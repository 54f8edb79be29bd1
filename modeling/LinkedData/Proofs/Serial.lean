/-
  LinkedData.Proofs.Serial — writers in any order do what they would do one at a time.

  Whatever the steps of the writers and their order, the calls that were carried out have the
  answers that they get one after another, in the order in which they released their guards,
  and when nobody stands between a batch and the release after it the store is the one they
  leave then (`serializable`). A call that is turned away or given up writes nothing.

  The invariant (`Inv`) compares the store with the store of the calls released so far. They
  agree outside the guards of those who wrote and did not release yet, and within such a guard
  the store is what the call would make of the other one (`Settles`), which depends on nothing
  outside the guard. The second reading, under a guard, is what makes a guard enough: the plan
  depends on two records that are in it themselves, so once a guard covers the plan no other
  writer can change the plan.
-/

import LinkedData.Proofs.Guards
import LinkedData.Proofs.Writers

namespace LinkedData

open Std SteadyStore

namespace Writers

variable {σ κ : Type}

/-- The locks are those of the guards, and no two guards share any. -/
structure Guarded (locks : Locks) (phase : κ → Phase) : Prop where
  held : ∀ x, x ∈ locks.held ↔ ∃ k g, (phase k).guard? = some g ∧ g.covers x = true
  apart : ∀ {k k' g g' x}, (phase k).guard? = some g → (phase k').guard? = some g' → g.covers x = true →
    g'.covers x = true → k = k'

namespace Guarded

variable {locks locks' : Locks} {phase : κ → Phase} {k : κ} {p : Phase} {g : Guard}

theorem iff_guarded : Guarded locks phase ↔ locks.Guarded fun k => (phase k).guard? :=
  ⟨fun h => ⟨h.held, h.apart⟩, fun h => ⟨h.held, h.apart⟩⟩

variable [DecidableEq κ]

/-- What the guards are after a writer came to another phase. -/
theorem guard?_update : (fun j => (Function.update phase k p j).guard?) =
    Function.update (fun j => (phase j).guard?) k p.guard? := by
  funext j
  exact Function.apply_update (fun _ => Phase.guard?) phase k p j

theorem keep (h : Guarded locks phase) (hp : p.guard? = (phase k).guard?) :
    Guarded locks (Function.update phase k p) := by
  rw [iff_guarded, guard?_update, hp, Function.update_eq_self]
  exact iff_guarded.mp h

theorem claim (h : Guarded locks phase) (hk : (phase k).guard? = none) (hp : p.guard? = some g) {ids : List Iri}
    (hc : locks.claim? ids = some (g, locks')) : Guarded locks' (Function.update phase k p) := by
  rw [iff_guarded, guard?_update, hp]
  exact (iff_guarded.mp h).claim hk hc

theorem drop (h : Guarded locks phase) (hk : (phase k).guard? = some g) (hp : p.guard? = none) :
    Guarded (locks.release g) (Function.update phase k p) := by
  rw [iff_guarded, guard?_update, hp]
  exact (iff_guarded.mp h).release hk

end Guarded

end Writers

/-! ## What a writer may rely on -/

/-- The same under every identifier that `g` covers. -/
def AgreeOn (g : Guard) (see see' : Notes) : Prop := ∀ x, g.covers x = true → see x = see' x

/-- Every record is noted under its own identifier. -/
def Notes.Keyed (notes : Notes) : Prop := ∀ x r, notes x = some r → r.id = x

theorem Notes.Keyed.update {notes : Notes} (h : notes.Keyed) {x : Iri} {r : Option Record}
    (hr : ∀ a, r = some a → a.id = x) :
    Notes.Keyed (Function.update notes x r) := by
  intro y a ha
  by_cases he : y = x
  · subst he
    rw [Function.update_self] at ha
    exact hr a ha
  · rw [Function.update_of_ne he] at ha
    exact h y a ha

theorem AgreeOn.update {g : Guard} {notes see : Notes} (h : AgreeOn g notes see) (x : Iri) :
    AgreeOn g (Function.update notes x (see x)) see := by
  intro y hy
  by_cases he : y = x
  · rw [he, Function.update_self]
  · rw [Function.update_of_ne he]
    exact h y hy

/-- The guard is enough for the task. -/
def Cleared (root : Iri) (g : Guard) (see : Notes) : Task → Prop
  | .makeRoot => g.covers root = true ∧ liveIn see root = none
  | .mutate id op => Identifier.Valid root id ∧ ∃ p, Identifier.parent? root id = .ok (some p) ∧
      ∀ x ∈ Mutation.planned (liveIn see) p id op, g.covers x = true

theorem Cleared.congr {root : Iri} {g : Guard} {see see' : Notes} {task : Task} (h : Cleared root g see task)
    (ha : AgreeOn g see see') : Cleared root g see' task := by
  have hlive : ∀ x, g.covers x = true → liveIn see x = liveIn see' x := by
    intro x hx
    unfold liveIn
    rw [ha x hx]
  cases task with
  | makeRoot => exact ⟨h.1, by rw [← hlive root h.1]; exact h.2⟩
  | mutate id op =>
    obtain ⟨hv, p, hp, hg⟩ := h
    have hcov := Mutation.covers_planned (liveIn see) id p op
    refine ⟨hv, p, hp, ?_⟩
    rwa [← Mutation.planned_congr (hlive p (hg p hcov.parent)) (hlive id (hg id hcov.target))]

/-! ## Jobs under a guard -/

section

variable {σ : Type} [RecordStore σ] [KeyedStore σ] {root : Iri} {g : Guard} {j : Job} {notes : Notes}
  {shared own : σ}

/-- A writing that was not turned away. -/
def Admitted (σ : Type) (root : Iri) (wr : Writing) : Prop :=
  ∀ (s : σ) (scopes : ScopeSource), (⟨root, s, scopes⟩ : Repository σ).barred? wr = none

/-- Under a guard that is enough, with notes that are right there, a job does what it does alone. -/
theorem carryOut_paired (hj : Admitted σ root j.writing) (hn : notes.Keyed) (ho : SelfKeyed own)
    (hc : Cleared root g notes j.task) (ha : AgreeOn g notes (find own)) (scopes : ScopeSource) (now : Instant) :
    Paired (fun x => g.covers x = true) (⟨notes, shared⟩ : Desk σ) own
      (((⟨root, ⟨notes, shared⟩, scopes⟩ : Repository (Desk σ)).carryOut g j now).1,
        ((⟨root, ⟨notes, shared⟩, scopes⟩ : Repository (Desk σ)).carryOut g j now).2.store)
      (((⟨root, own, scopes⟩ : Repository σ).alone j now).1,
        ((⟨root, own, scopes⟩ : Repository σ).alone j now).2.store) := by
  have hs : SelfKeyed (⟨notes, shared⟩ : Desk σ) := hn
  have halone := Repository.alone_of_not_barred (⟨root, own, scopes⟩ : Repository σ) (hj own scopes) now
  unfold Repository.carryOut
  generalize j.task = task at hc halone ⊢
  cases task with
  | makeRoot =>
    obtain ⟨hroot, hnone⟩ := hc
    have hown : findLive own root = none := by
      rw [← hnone, findLive, liveIn, ha root hroot]
    have hcreate : (⟨root, own, scopes⟩ : Repository σ).createRoot j.session now =
        Repository.answered ((⟨root, own, scopes⟩ : Repository σ).transact now
          (Mutation.foundRoot root j.session.agent)) := by
      unfold Repository.createRoot
      rw [Repository.get_eq_findLive, hown]
      rfl
    rw [show Repository.alone _ j now = _ from halone, hcreate]
    exact (Repository.foundRoot_paired hs (G := fun x => g.covers x = true) hroot ha scopes j.session.agent now).map
      (Except.map some)
  | mutate id op =>
    obtain ⟨hrefusal, halone⟩ := halone
    obtain ⟨hv, p, hp, hg⟩ := hc
    have hcov := Mutation.covers_planned (liveIn notes) id p op
    have hlive : ∀ x, g.covers x = true → liveIn notes x = findLive own x := fun x hx => by
      rw [findLive, liveIn, ha x hx]
    have hplan : Mutation.planned (findLive own) p id op = Mutation.planned (liveIn notes) p id op :=
      (Mutation.planned_congr (hlive p (hg p hcov.parent)) (hlive id (hg id hcov.target)) op).symm
    have hmutate : (⟨root, own, scopes⟩ : Repository σ).mutate id op j.session now =
        (⟨root, own, scopes⟩ : Repository σ).perform id op j.session now
          ⟨ExtTreeSet.ofList (Mutation.planned (liveIn notes) p id op) compare⟩ := by
      unfold Repository.mutate
      rw [hrefusal, Repository.affected_eq _ hp]
      dsimp only
      rw [hplan]
    rw [halone, hmutate]
    have hpaired := Repository.perform_paired hs ho hp hcov (fun x hx => ha x (hg x hx)) hg
      (fun x hx => Repository.covers_ofList hx) scopes j.session now
    exact (hpaired.map (Except.map some)).mono hg

/-- A turn on any store that agrees with `before` on the guard: its answer, and `see` under the guard
    afterwards. -/
def Settles (σ : Type) [RecordStore σ] [KeyedStore σ] (root : Iri) (before see : Notes) (t : Turn) (g : Guard) :
    Prop :=
  ∀ s : σ, SelfKeyed s → AgreeOn g before (find s) →
    ((⟨root, s, t.scopes⟩ : Repository σ).alone t.toJob t.now).1 = t.answer ∧
      SelfKeyed ((⟨root, s, t.scopes⟩ : Repository σ).alone t.toJob t.now).2.store ∧
      AgreeOn g (find ((⟨root, s, t.scopes⟩ : Repository σ).alone t.toJob t.now).2.store) see ∧
      ∀ x, ¬ g.covers x = true →
        find ((⟨root, s, t.scopes⟩ : Repository σ).alone t.toJob t.now).2.store x = find s x

theorem Settles.congr {before before' see see' : Notes} {t : Turn} (h : Settles σ root before see t g)
    (hb : AgreeOn g before' before) (hs : AgreeOn g see see') : Settles σ root before' see' t g := by
  intro s hk ha
  obtain ⟨hanswer, hkeyed, hafter, hrest⟩ := h s hk fun x hx => (hb x hx).symm.trans (ha x hx)
  exact ⟨hanswer, hkeyed, fun x hx => (hafter x hx).trans (hs x hx), hrest⟩

/-- A job that was carried out under its guard is settled, and left the rest of the store alone. -/
theorem settles_carryOut (hj : Admitted σ root j.writing) (hn : notes.Keyed) (hs : SelfKeyed shared)
    (hc : Cleared root g notes j.task) (ha : AgreeOn g notes (find shared)) {scopes : ScopeSource} {now : Instant}
    {a : Answer} {r : Repository (Desk σ)}
    (hr : (⟨root, ⟨notes, shared⟩, scopes⟩ : Repository (Desk σ)).carryOut g j now = (a, r)) :
    SelfKeyed r.store.shared ∧ (∀ x, ¬ g.covers x = true → find r.store.shared x = find shared x) ∧
      Settles σ root notes (find r.store.shared) ⟨j, now, scopes, a⟩ g := by
  have hleave : ∀ own : σ, SelfKeyed own → AgreeOn g notes (find own) → _ := fun own ho hown =>
    (carryOut_paired hj hn ho hc hown scopes now).leave hs ho fun x hx => (ha x hx).symm.trans (hown x hx)
  rw [hr] at hleave
  obtain ⟨-, ⟨hkeyed, -⟩, -, hrest⟩ := hleave shared hs ha
  refine ⟨hkeyed, fun x hx => (hrest x hx).1, fun own ho hown => ?_⟩
  obtain ⟨hanswer, ⟨-, hown'⟩, hon, hoff⟩ := hleave own ho hown
  exact ⟨hanswer, hown', hon, fun x hx => (hoff x hx).2⟩

theorem verdict_mutate {id : Iri} (h : Identifier.Valid root id ∧ id ≠ root) (op : Operation) (g : Guard)
    (notes : Notes) (shared : σ) (scopes : ScopeSource) :
    ∃ p, Identifier.parent? root id = .ok (some p) ∧
      (⟨root, ⟨notes, shared⟩, scopes⟩ : Repository (Desk σ)).verdict g (.mutate id op) =
        if g.coversAll (Mutation.planned (liveIn notes) p id op) then .go else .again := by
  obtain ⟨p, hp⟩ := Identifier.exists_parent h.1 h.2
  refine ⟨p, hp, ?_⟩
  unfold Repository.verdict
  dsimp only
  rw [Repository.affected_eq _ hp]
  rfl

theorem verdict_makeRoot (g : Guard) (notes : Notes) (shared : σ) (scopes : ScopeSource) :
    (⟨root, ⟨notes, shared⟩, scopes⟩ : Repository (Desk σ)).verdict g .makeRoot =
      match liveIn notes root with
      | some _ => .done (.ok none)
      | none => .go := by
  unfold Repository.verdict
  dsimp only
  rw [Repository.get_eq_findLive, show findLive (⟨notes, shared⟩ : Desk σ) root = liveIn notes root from rfl]
  cases liveIn notes root <;> rfl

omit [KeyedStore σ] in
theorem valid_of_admitted (h : Admitted σ root j.writing) (s : σ) {id : Iri} {op : Operation}
    (ht : j.task = .mutate id op) :
    Identifier.Valid root id ∧ id ≠ root := by
  have halone := Repository.alone_of_not_barred (⟨root, s, ⟨0⟩⟩ : Repository σ) (h s ⟨0⟩) ⟨0, 0⟩
  rw [ht] at halone
  exact Repository.refusal?_eq_none.mp halone.1

/-- A guard that covers the second plan is enough, and stays so whatever others write. -/
theorem cleared_of_go {see : Notes} {scopes : ScopeSource} (h : Admitted σ root j.writing)
    (hroot : j.task = .makeRoot → g.covers root = true) (ha : AgreeOn g notes see)
    (hv : (⟨root, ⟨notes, shared⟩, scopes⟩ : Repository (Desk σ)).verdict g j.task = .go) :
    Cleared root g see j.task := by
  refine Cleared.congr ?_ ha
  cases ht : j.task with
  | makeRoot =>
    refine ⟨hroot ht, ?_⟩
    rw [ht, verdict_makeRoot] at hv
    cases hl : liveIn notes root with
    | none => rfl
    | some x => rw [hl] at hv; cases hv
  | mutate id op =>
    have hvalid := valid_of_admitted h shared ht
    obtain ⟨p, hp, he⟩ := verdict_mutate hvalid op g notes shared scopes
    rw [ht, he] at hv
    refine ⟨hvalid.1, p, hp, ?_⟩
    split at hv
    · next hcov => exact Guard.coversAll_iff.mp hcov
    · cases hv

/-- Nothing is written when there is nothing to write. -/
theorem settles_of_done {see : Notes} {scopes : ScopeSource} {a : Answer} (h : Admitted σ root j.writing)
    (ha : AgreeOn g notes see) (hroot : j.task = .makeRoot → g.covers root = true)
    (hv : (⟨root, ⟨notes, shared⟩, scopes⟩ : Repository (Desk σ)).verdict g j.task = .done a) (now : Instant) :
    Settles σ root see see ⟨j, now, scopes, a⟩ g := by
  intro own ho hown
  have halone := Repository.alone_of_not_barred (⟨root, own, scopes⟩ : Repository σ) (h own scopes) now
  cases ht : j.task with
  | makeRoot =>
    rw [ht, verdict_makeRoot] at hv
    rw [ht] at halone
    cases hl : liveIn notes root with
    | none => rw [hl] at hv; cases hv
    | some x =>
      rw [hl] at hv
      cases hv
      have hlive : findLive own root = some x := by
        rw [← hl, findLive, liveIn, ha root (hroot ht), hown root (hroot ht)]
      have hcreate : (⟨root, own, scopes⟩ : Repository σ).createRoot j.session now =
          (.ok none, ⟨root, own, scopes⟩) := by
        unfold Repository.createRoot
        rw [Repository.get_eq_findLive, hlive]
      rw [show Repository.alone _ j now = _ from halone, hcreate]
      exact ⟨rfl, ho, fun x hx => (hown x hx).symm, fun _ _ => rfl⟩
  | mutate id op =>
    obtain ⟨p, hp, he⟩ := verdict_mutate (valid_of_admitted h shared ht) op g notes shared scopes
    rw [ht, he] at hv
    split at hv <;> cases hv

end

/-! ## The invariant -/

namespace Writers

variable {σ κ : Type} [RecordStore σ] [KeyedStore σ] {root : Iri} {s : σ}

/-- What holds of a writer, between the store of the calls released so far and the one there is. -/
def Fine (σ : Type) [RecordStore σ] [KeyedStore σ] (root : Iri) (before see : Notes) : Phase → Prop
  | .idle => True
  | .planning j _ _ => Admitted σ root j.writing
  | .waiting j _ ids => Admitted σ root j.writing ∧ (j.task = .makeRoot → root ∈ ids)
  | .checking j _ g notes =>
    Admitted σ root j.writing ∧ (j.task = .makeRoot → g.covers root = true) ∧ AgreeOn g notes see
  | .working j g notes => Admitted σ root j.writing ∧ Cleared root g see j.task ∧ notes.Keyed ∧ AgreeOn g notes see
  | .leaving t g => Settles σ root before see t g

/-- Why a job was not carried out: alone it would not have been either, or its writer gave up. -/
def Dismissed (σ : Type) [RecordStore σ] (root : Iri) (j : Job) (e : Error) : Prop :=
  (∀ (s : σ) (scopes : ScopeSource) (now : Instant),
    (⟨root, s, scopes⟩ : Repository σ).alone j now = (.error e, ⟨root, s, scopes⟩)) ∨
  ∃ id op, j.task = .mutate id op ∧ e = crowded id

/-- A writer does not notice what happens outside its guard. -/
theorem Fine.congr {before before' see see' : Notes} {p : Phase} (h : Fine σ root before see p)
    (ha : ∀ g, p.guard? = some g → AgreeOn g before' before ∧ AgreeOn g see see') :
    Fine σ root before' see' p := by
  cases p with
  | idle => exact trivial
  | planning j left notes => exact h
  | waiting j left ids => exact h
  | checking j left g notes =>
    obtain ⟨hadm, hroot, hnotes⟩ := h
    exact ⟨hadm, hroot, fun x hx => (hnotes x hx).trans ((ha g rfl).2 x hx)⟩
  | working j g notes =>
    obtain ⟨hadm, hc, hk, hnotes⟩ := h
    exact ⟨hadm, hc.congr (ha g rfl).2, hk, fun x hx => (hnotes x hx).trans ((ha g rfl).2 x hx)⟩
  | leaving t g => exact Settles.congr h (ha g rfl).1 (ha g rfl).2

theorem Fine.note {before see : Notes} {p : Phase} (h : Fine σ root before see p) (hk : see.Keyed) (x : Iri) :
    Fine σ root before see (p.note x (see x)) := by
  cases p with
  | checking j left g notes => exact ⟨h.1, h.2.1, h.2.2.update x⟩
  | working j g notes => exact ⟨h.1, h.2.1, h.2.2.1.update fun a ha => hk x a ha, h.2.2.2.update x⟩
  | _ => exact h

structure Inv (root : Iri) (s : σ) (w : Writers σ κ) : Prop where
  guarded : Guarded w.locks w.phase
  keyed : SelfKeyed w.store
  keyedThen : SelfKeyed (replay root s w.log).2
  answers : (replay root s w.log).1 = w.log.map (·.answer)
  /-- Outside the guards of those who leave, the store is the one of the calls released so far. -/
  same : ∀ x, (∀ k t g, w.phase k = .leaving t g → ¬ g.covers x = true) →
    find w.store x = find (replay root s w.log).2 x
  fine : ∀ k, Fine σ root (find (replay root s w.log).2) (find w.store) (w.phase k)
  away : ∀ a ∈ w.away, Dismissed σ root a.1 a.2

namespace Inv

variable {w : Writers σ κ} {k : κ}

theorem rest (hk : SelfKeyed s) : Inv root s (Writers.rest s : Writers σ κ) where
  guarded := by
    refine ⟨fun x => ?_, fun h => ?_⟩
    · simp [Writers.rest, Locks.none, Phase.guard?]
    · cases h
  keyed := hk
  keyedThen := hk
  answers := rfl
  same _ _ := rfl
  fine _ := trivial
  away _ ha := by cases ha

variable [DecidableEq κ]

/-- A step that writes nothing, and by which nobody leaves who did. -/
theorem move (h : Inv root s w) {p : Phase} {locks : Locks} {away : List (Job × Error)}
    (hg : Guarded locks (Function.update w.phase k p)) (hk : ∀ t g, w.phase k = .leaving t g → p = .leaving t g)
    (hf : Fine σ root (find (replay root s w.log).2) (find w.store) p)
    (haway : ∀ a ∈ away, Dismissed σ root a.1 a.2) :
    Inv root s ⟨w.store, locks, Function.update w.phase k p, w.log, away⟩ where
  guarded := hg
  keyed := h.keyed
  keyedThen := h.keyedThen
  answers := h.answers
  same x hx := by
    refine h.same x fun k' t g hk' => hx k' t g ?_
    dsimp only
    by_cases he : k' = k
    · rw [he, Function.update_self]
      exact hk t g (he ▸ hk')
    · rwa [Function.update_of_ne he]
  fine k' := by
    dsimp only
    by_cases he : k' = k
    · rw [he, Function.update_self]
      exact hf
    · rw [Function.update_of_ne he]
      exact h.fine k'
  away := haway

omit [DecidableEq κ] in
/-- Nobody leaving covers what the guard of another writer covers. -/
theorem same_of_covers (h : Inv root s w) {g : Guard} (hk : (w.phase k).guard? = some g)
    (hne : ∀ t g, w.phase k ≠ .leaving t g) : AgreeOn g (find (replay root s w.log).2) (find w.store) := by
  intro x hx
  refine (h.same x fun k' t g' hk' hx' => ?_).symm
  have he : k' = k := h.guarded.apart (by rw [hk']; rfl) hk hx' hx
  exact hne t g' (he ▸ hk')

theorem work (h : Inv root s w) {j : Job} {g : Guard} {notes : Notes} {scopes : ScopeSource} {now : Instant}
    {a : Answer} {r : Repository (Desk σ)} (hk : w.phase k = .working j g notes)
    (hr : (w.desk root notes scopes).carryOut g j now = (a, r)) :
    Inv root s { w.place k (.leaving ⟨j, now, scopes, a⟩ g) with store := r.store.shared } := by
  have hfine := h.fine k
  rw [hk] at hfine
  obtain ⟨hadm, hc, hnotes, ha⟩ := hfine
  have hguard : (w.phase k).guard? = some g := by rw [hk]; rfl
  obtain ⟨hkeyed, hoff, hset⟩ := settles_carryOut hadm hnotes h.keyed (hc.congr fun x hx => (ha x hx).symm) ha hr
  have hthen := h.same_of_covers hguard fun t g' he => by rw [hk] at he; cases he
  refine ⟨h.guarded.keep (by rw [hguard]; rfl), hkeyed, h.keyedThen, h.answers, fun x hx => ?_, fun k' => ?_, h.away⟩
  · have hnot : ¬ g.covers x = true := hx k ⟨j, now, scopes, a⟩ g (Function.update_self ..)
    refine (hoff x hnot).trans (h.same x fun k' t g' hk' => hx k' t g' ?_)
    refine (Function.update_of_ne ?_ _ _).trans hk'
    rintro rfl
    rw [hk] at hk'
    cases hk'
  · dsimp only [place]
    by_cases he : k' = k
    · rw [he, Function.update_self]
      exact Settles.congr hset (fun x hx => (hthen x hx).trans (ha x hx).symm) fun _ _ => rfl
    · rw [Function.update_of_ne he]
      refine (h.fine k').congr fun g' hg' => ⟨fun _ _ => rfl, fun x hx => (hoff x fun hx' => he ?_).symm⟩
      exact h.guarded.apart hg' hguard hx hx'

theorem release (h : Inv root s w) {t : Turn} {g : Guard} (hk : w.phase k = .leaving t g) :
    Inv root s { w.place k .idle with locks := w.locks.release g, log := w.log ++ [t] } := by
  have hfine := h.fine k
  rw [hk] at hfine
  have hguard : (w.phase k).guard? = some g := by rw [hk]; rfl
  obtain ⟨hanswer, hkeyed, hon, hoff⟩ := hfine (replay root s w.log).2 h.keyedThen fun _ _ => rfl
  refine ⟨h.guarded.drop hguard rfl, h.keyed, ?_, ?_, fun x hx => ?_, fun k' => ?_, h.away⟩
  · dsimp only
    rw [replay_append]
    exact hkeyed
  · dsimp only
    rw [replay_append, List.map_append, h.answers, hanswer]
    rfl
  · dsimp only at hx ⊢
    rw [replay_append]
    by_cases hx' : g.covers x = true
    · exact (hon x hx').symm
    · refine (h.same x fun k' t' g' hk' => ?_).trans (hoff x hx').symm
      by_cases he : k' = k
      · rw [he, hk] at hk'
        cases hk'
        exact hx'
      · exact hx k' t' g' ((Function.update_of_ne he _ _).trans hk')
  · dsimp only [place]
    rw [replay_append]
    by_cases he : k' = k
    · rw [he, Function.update_self]
      exact trivial
    · rw [Function.update_of_ne he]
      refine (h.fine k').congr fun g' hg' => ⟨fun x hx => hoff x fun hx' => he ?_, fun _ _ => rfl⟩
      exact h.guarded.apart hg' hguard hx hx'

omit [DecidableEq κ] in
/-- The end of a job without a guard. -/
theorem dismiss (h : Inv root s w) {j : Job} {e : Error} (hd : Dismissed σ root j e) :
    ∀ a ∈ w.away ++ [(j, e)], Dismissed σ root a.1 a.2 := by
  intro a ha
  rcases List.mem_append.mp ha with ha | ha
  · exact h.away a ha
  · rw [List.mem_singleton.mp ha]
    exact hd

/-- Every step keeps the invariant. -/
theorem step {w' : Writers σ κ} (h : Inv root s w) (hs : Step root k w w') : Inv root s w' := by
  have hfine := h.fine k
  cases hs with
  | bar hk he =>
    refine ⟨h.guarded, h.keyed, h.keyedThen, h.answers, h.same, h.fine, h.dismiss (.inl fun s scopes now => ?_)⟩
    exact Repository.alone_of_barred? _ (by exact he) now
  | start hk he => exact h.move (h.guarded.keep (by rw [hk]; rfl)) (by simp [hk]) (fun _ _ => he) h.away
  | look x =>
    exact h.move (h.guarded.keep (Phase.guard?_note ..)) (fun t g hl => by rw [hl]; rfl) (hfine.note h.keyed x) h.away
  | @plan j left notes scopes ids hk hp =>
    rw [hk] at hfine
    refine h.move (h.guarded.keep (by rw [hk]; rfl)) (by simp [hk]) ⟨hfine, fun hj => ?_⟩ h.away
    rw [hj] at hp
    cases hp
    exact List.mem_singleton_self root
  | @stop j left notes scopes e hk hp =>
    rw [hk] at hfine
    cases ht : j.task with
    | makeRoot => rw [ht] at hp; cases hp
    | mutate id op =>
      obtain ⟨hv, hne⟩ := valid_of_admitted hfine w.store ht
      obtain ⟨p, hpar⟩ := Identifier.exists_parent hv hne
      rw [ht] at hp
      cases (Repository.affected_eq (w.desk root notes scopes) hpar op).symm.trans hp
  | claim hk hc =>
    rw [hk] at hfine
    refine h.move (h.guarded.claim (by rw [hk]; rfl) rfl hc) (by simp [hk])
      ⟨hfine.1, fun hj => ?_, fun _ _ => rfl⟩ h.away
    exact ((Locks.of_claim? hc).1 root).mpr (hfine.2 hj)
  | go hk hv =>
    rw [hk] at hfine
    obtain ⟨hadm, hroot, ha⟩ := hfine
    exact h.move (h.guarded.keep (by rw [hk]; rfl)) (by simp [hk])
      ⟨hadm, cleared_of_go hadm hroot ha hv, h.keyed, fun _ _ => rfl⟩ h.away
  | again hk hv =>
    rw [hk] at hfine
    exact h.move (h.guarded.drop (by rw [hk]; rfl) rfl) (by simp [hk]) hfine.1 h.away
  | giveUp hk hj hv =>
    exact h.move (h.guarded.drop (by rw [hk]; rfl) rfl) (by simp [hk]) trivial (h.dismiss (.inr ⟨_, _, hj, rfl⟩))
  | @settle j left g notes scopes a now hk hv =>
    have hguard : (w.phase k).guard? = some g := by rw [hk]; rfl
    have hthen := h.same_of_covers hguard (by simp [hk])
    rw [hk] at hfine
    obtain ⟨hadm, hroot, ha⟩ := hfine
    refine h.move (h.guarded.keep (by rw [hk]; rfl)) (by simp [hk]) ?_ h.away
    exact (settles_of_done hadm ha hroot hv now).congr hthen fun _ _ => rfl
  | work now scopes hk hr => exact h.work hk hr
  | release hk => exact h.release hk

end Inv

theorem Reach.inv [DecidableEq κ] {w : Writers σ κ} (h : Reach root s w) (hk : SelfKeyed s) : Inv root s w := by
  induction h with
  | rest => exact .rest hk
  | step _ hs ih => exact ih.step hs

/-! ## Calls that come to nothing -/

section

variable [DecidableEq κ] {k : κ} {w w' : Writers σ κ}

/-- One call of `k`, begun at `w` and not ended yet, among the steps of others; and the steps of its own. -/
inductive Course (root : Iri) (k : κ) (w : Writers σ κ) :
    Writers σ κ → List (Writers σ κ × Writers σ κ) → Prop
  | nil (hk : w.phase k = .idle) : Course root k w w []
  | own {w₁ w₂ : Writers σ κ} {steps : List (Writers σ κ × Writers σ κ)} (h : Course root k w w₁ steps)
      (hs : Step root k w₁ w₂) (hk : w₂.phase k ≠ .idle) : Course root k w w₂ (steps ++ [(w₁, w₂)])
  | other {w₁ w₂ : Writers σ κ} {steps : List (Writers σ κ × Writers σ κ)} {k' : κ}
      (h : Course root k w w₁ steps) (hne : k' ≠ k) (hs : Step root k' w₁ w₂) : Course root k w w₂ steps

theorem Step.phase_of_ne {k' : κ} (hs : Step root k' w w') (hne : k' ≠ k) : w'.phase k = w.phase k := by
  cases hs <;> first | rfl | exact Function.update_of_ne (Ne.symm hne) _ _

/-- Who writes is leaving then, and nothing else is written. -/
theorem Step.store_eq (hs : Step root k w w') (hl : ∀ t g, w'.phase k ≠ .leaving t g) : w'.store = w.store := by
  cases hs with
  | work now scopes hk hr => exact absurd (Function.update_self ..) (hl _ _)
  | _ => rfl

/-- Who is leaving stays so, or is idle with its turn in the log. -/
theorem Step.of_leaving (hs : Step root k w w') {t : Turn} {g : Guard} (hk : w.phase k = .leaving t g) :
    w'.phase k = .leaving t g ∨ w'.phase k = .idle ∧ w'.log = w.log ++ [t] := by
  cases hs with
  | look x =>
    refine .inl ((Function.update_self ..).trans ?_)
    rw [hk]
    rfl
  | release h =>
    rw [hk] at h
    cases h
    exact .inr ⟨Function.update_self .., rfl⟩
  | _ => simp_all

theorem Course.store_eq {steps : List (Writers σ κ × Writers σ κ)} (h : Course root k w w' steps)
    (hl : ∀ t g, w'.phase k ≠ .leaving t g) : ∀ e ∈ steps, e.2.store = e.1.store := by
  induction h with
  | nil hk => simp
  | @own w₁ w₂ steps h hs hk ih =>
    have hl₁ : ∀ t g, w₁.phase k ≠ .leaving t g := by
      intro t g he
      rcases hs.of_leaving he with he' | ⟨hidle, -⟩
      · exact hl t g he'
      · exact hk hidle
    intro e he
    rcases List.mem_append.mp he with he | he
    · exact ih hl₁ e he
    · rw [List.mem_singleton.mp he]
      exact hs.store_eq hl
  | other h hne hs ih => exact ih fun t g he => hl t g (hs.phase_of_ne hne ▸ he)

end

/-- The calls that were carried out have the answers that they get one at a time, in the order of
    their releases, and leave the store that they leave then. Any other call gets the error that
    it gets alone, or was given up after its last attempt, and wrote nothing from its start to
    its end. -/
theorem serializable [DecidableEq κ] {w : Writers σ κ} (hk : SelfKeyed s) (h : Reach root s w) :
    (replay root s w.log).1 = w.log.map (·.answer) ∧
      ((∀ k t g, w.phase k ≠ .leaving t g) → find w.store = find (replay root s w.log).2) ∧
      (∀ j e, (j, e) ∈ w.away → Dismissed σ root j e) ∧
      ∀ k w₁ w₂ steps, Course root k w w₁ steps → Step root k w₁ w₂ → w₂.away ≠ w₁.away →
        (∀ e ∈ steps, e.2.store = e.1.store) ∧ w₂.store = w₁.store ∧ w₂.log = w₁.log := by
  have hi := h.inv hk
  refine ⟨hi.answers, fun hl => funext fun x => hi.same x fun k t g he => absurd he (hl k t g),
    fun j e ha => hi.away (j, e) ha, ?_⟩
  intro k w₁ w₂ steps hcourse hs haway
  have hnot : ∀ t g, w₁.phase k ≠ .leaving t g := by
    intro t g he
    cases hs <;> simp_all [place]
  refine ⟨hcourse.store_eq hnot, ?_⟩
  cases hs <;> first | exact ⟨rfl, rfl⟩ | exact absurd rfl haway

/-- The job of a writer that makes the root. -/
def founder : Job := ⟨.makeRoot, .administrator ⟨1, 0⟩⟩

/-- The job of a writer that creates a child of it. -/
def author : Job := ⟨.create ⟨"trellis:data/a"⟩ .rdfSource .empty, .anonymous ⟨2, 0⟩⟩

/-- The author plans before there is a root, and comes to its turn after the founder. -/
theorem two_writers : ∃ w : Writers Table Bool, Reach ⟨"trellis:data/"⟩ Table.empty w ∧
    (w.log.map fun t => t.answer.map Option.isSome) = [.ok true, .ok true] ∧
    (replay ⟨"trellis:data/"⟩ Table.empty w.log).1 = w.log.map (·.answer) ∧
    find w.store = find (replay ⟨"trellis:data/"⟩ Table.empty w.log).2 := by
  have h₀ : Reach ⟨"trellis:data/"⟩ Table.empty (rest Table.empty : Writers Table Bool) := .rest
  have h₁ := h₀.step (@Step.start _ _ _ _ _ _ true _ author ⟨0⟩ rfl (by decide +kernel))
  have h₂ := h₁.step (@Step.plan _ _ _ _ _ _ true _ _ _ _ ⟨0⟩ [⟨"trellis:data/a"⟩, ⟨"trellis:data/"⟩] rfl
    (by decide +kernel))
  have h₃ := h₂.step (@Step.start _ _ _ _ _ _ false _ founder ⟨0⟩ rfl rfl)
  have h₄ := h₃.step (@Step.plan _ _ _ _ _ _ false _ _ _ _ ⟨0⟩ _ rfl rfl)
  have h₅ := h₄.step (@Step.claim _ _ _ _ _ _ false _ _ _ [⟨"trellis:data/"⟩] _ _ rfl
    (Locks.claim?_of_isFree (by decide +kernel)))
  have h₆ := h₅.step (@Step.go _ _ _ _ _ _ false _ _ _ _ _ ⟨0⟩ rfl (by decide +kernel))
  have h₇ := h₆.step (@Step.work _ _ _ _ _ _ false _ _ _ _ _ _ ⟨1, 0⟩ ⟨1⟩ rfl (Prod.eta _).symm)
  have h₈ := h₇.step (@Step.release _ _ _ _ _ _ false _ _ _ rfl)
  have h₉ := h₈.step (@Step.claim _ _ _ _ _ _ true _ _ _ [⟨"trellis:data/a"⟩, ⟨"trellis:data/"⟩] _ _ rfl
    (Locks.claim?_of_isFree (by decide +kernel)))
  have h₁₀ := h₉.step (@Step.go _ _ _ _ _ _ true _ _ _ _ _ ⟨0⟩ rfl (by decide +kernel))
  have h₁₁ := h₁₀.step (@Step.work _ _ _ _ _ _ true _ _ _ _ _ _ ⟨2, 0⟩ ⟨2⟩ rfl (Prod.eta _).symm)
  have h₁₂ := h₁₁.step (@Step.release _ _ _ _ _ _ true _ _ _ rfl)
  have hk : SelfKeyed Table.empty := fun id r hr => by
    rw [show find Table.empty id = none from Table.get?_empty id] at hr
    cases hr
  obtain ⟨hanswers, hstore, -⟩ := serializable hk h₁₂
  refine ⟨_, h₁₂, by decide +kernel, hanswers, hstore fun k t g hl => ?_⟩
  cases k <;> cases hl

end Writers

end LinkedData
