/-
  LinkedData.Proofs.Backlog — the history of every resource is complete and exact.

  Mementos are written after commits and outside the locks, so those of different commits may be
  written in any order. A `Backlog` is a service together with the states that wait to be recorded,
  and with an account of what happened: the live states that were committed and the mementos that
  were removed after they were recorded. A move serves a request up to its commit, records any one of
  the states that wait, or deletes a memento; a service that handles a request makes one move for the
  request and one for each of its states (`run_request`).

  In every state of a run, the mementos on file are exactly the committed states that do not wait any
  more and were not removed (`Inv.held`). So once nothing waits, the times of an identifier are those
  of its committed states, ascending, and the state as of a time is the latest one until then, also
  for a resource that was deleted since (`history_complete`). What makes keys distinct is that the
  times of an identifier ascend (`Tallied.ascending`).
-/

import LinkedData.Archive.Files
import LinkedData.Proofs.Histories
import LinkedData.Proofs.Pipeline

namespace LinkedData

open Std SteadyStore Repository

/-- A service whose mementos are written some time after their commits. -/
structure Backlog (σ α ε : Type) where
  service : Service σ α ε
  /-- The states that wait to be recorded. -/
  pending : List Resource
  /-- The live states that were committed so far, in the order of their commits. -/
  committed : List Resource
  /-- The mementos that were deleted after they were recorded. -/
  removed : List (Iri × Instant)

namespace Backlog

section

variable {σ α ε : Type}

/-- What is recorded of an identifier and a time, going by the account. -/
def noted (b : Backlog σ α ε) (id : Iri) (t : Instant) : Option Resource :=
  b.committed.find? fun r => decide (r.id = id ∧ r.modified = t ∧ r ∉ b.pending ∧ (id, t) ∉ b.removed)

/-- The states of an identifier that were committed and not removed. -/
def kept (b : Backlog σ α ε) (id : Iri) : List Resource :=
  b.committed.filter fun r => decide (r.id = id ∧ (id, r.modified) ∉ b.removed)

/-- Before anything happened. -/
def rest (s : Service σ α ε) : Backlog σ α ε := ⟨s, [], [], []⟩

inductive Move
  /-- A request, up to its commit. -/
  | request (now : Instant) (q : Request)
  /-- The write of one of the states that wait. -/
  | record (k : Nat)
  | forget (id : Iri) (t : Instant)

variable [RecordStore σ] [MementoStore α] [BlobStore α]

/-- Those of a commit's states whose resources are live after it. -/
def liveStates (s : Service σ α ε) (c : Commit) : List Resource :=
  c.resources.filter fun r => (s.get r.id).toOption.join.isSome

def step (b : Backlog σ α ε) : Move → Backlog σ α ε
  | .request now q =>
    let (answer, service) := b.service.enact now q
    match answer.toOption.join with
    | none => { b with service }
    | some c => { b with
        service
        pending := b.pending ++ Service.archived c
        committed := b.committed ++ liveStates service c }
  | .record k =>
    match b.pending[k]? with
    | none => b
    | some r => { b with
        service := { b.service with archive := (MementoStore.put b.service.archive r.id r.modified r).2 }
        pending := b.pending.eraseIdx k }
  | .forget id t => { b with
      service := (b.service.deleteMemento id t).2
      removed := if (b.noted id t).isSome then (id, t) :: b.removed else b.removed }

def run (b : Backlog σ α ε) (moves : List Move) : Backlog σ α ε := moves.foldl step b

end

/-! ## The account -/

section

variable {σ α ε : Type} {b : Backlog σ α ε}

/-- An account that agrees with itself: what waits or was removed was committed, and the states of one
    identifier have ascending times. -/
structure Tallied (b : Backlog σ α ε) : Prop where
  waiting : ∀ r ∈ b.pending, r ∈ b.committed
  once : b.pending.Nodup
  ascending : b.committed.Pairwise fun x y => x.id = y.id → x.modified < y.modified
  gone : ∀ id t, (id, t) ∈ b.removed → ∃ r ∈ b.committed, r.id = id ∧ r.modified = t ∧ r ∉ b.pending

/-- A state is known by its identifier and its time. -/
theorem Tallied.eq_of_key (h : Tallied b) {x y : Resource} (hx : x ∈ b.committed) (hy : y ∈ b.committed)
    (hid : x.id = y.id) (ht : x.modified = y.modified) : x = y := by
  have hkeys : (b.committed.map fun r => (r.id, r.modified)).Nodup := by
    rw [List.Nodup, List.pairwise_map]
    refine h.ascending.imp fun {x y} hlt heq => ?_
    obtain ⟨hid, ht⟩ := Prod.mk.inj heq
    have hless := hlt hid
    rw [ht] at hless
    exact Instant.lt_asymm hless hless
  exact List.inj_on_of_nodup_map hkeys hx hy (Prod.ext hid ht)

theorem Tallied.noted_eq_some (h : Tallied b) {id : Iri} {t : Instant} {r : Resource} :
    b.noted id t = some r ↔
      r ∈ b.committed ∧ r.id = id ∧ r.modified = t ∧ r ∉ b.pending ∧ (id, t) ∉ b.removed := by
  unfold noted
  constructor
  · intro hr
    have hsays := List.find?_some hr
    exact ⟨List.mem_of_find?_eq_some hr, of_decide_eq_true hsays⟩
  · rintro ⟨hmem, hr⟩
    cases hfound : b.committed.find? fun r =>
      decide (r.id = id ∧ r.modified = t ∧ r ∉ b.pending ∧ (id, t) ∉ b.removed) with
    | none => exact absurd (decide_eq_true hr) (List.find?_eq_none.mp hfound r hmem)
    | some x =>
      have hsays := List.find?_some hfound
      obtain ⟨hid, ht, -⟩ := of_decide_eq_true hsays
      rw [h.eq_of_key (List.mem_of_find?_eq_some hfound) hmem (hid.trans hr.1.symm) (ht.trans hr.2.1.symm)]

variable {d : Backlog σ α ε}

/-- Accounts that agree on which states of an identifier and a time are recorded note the same of them. -/
theorem Tallied.noted_eq (h : Tallied b) (hd : Tallied d) {id : Iri} {t : Instant}
    (hiff : ∀ r : Resource, r.id = id → r.modified = t →
      (r ∈ d.committed ∧ r ∉ d.pending ∧ (id, t) ∉ d.removed ↔
      r ∈ b.committed ∧ r ∉ b.pending ∧ (id, t) ∉ b.removed)) : d.noted id t = b.noted id t := by
  refine Option.ext fun r => ?_
  rw [hd.noted_eq_some, h.noted_eq_some]
  constructor
  · rintro ⟨hmem, hid, ht, hrest⟩
    obtain ⟨hmem', hrest'⟩ := (hiff r hid ht).mp ⟨hmem, hrest⟩
    exact ⟨hmem', hid, ht, hrest'⟩
  · rintro ⟨hmem, hid, ht, hrest⟩
    obtain ⟨hmem', hrest'⟩ := (hiff r hid ht).mpr ⟨hmem, hrest⟩
    exact ⟨hmem', hid, ht, hrest'⟩

/-- What waits was not removed. -/
theorem Tallied.not_removed (h : Tallied b) {r : Resource} (hr : r ∈ b.pending) :
    (r.id, r.modified) ∉ b.removed := by
  intro hgone
  obtain ⟨x, hx, hid, ht, hwaits⟩ := h.gone _ _ hgone
  exact hwaits (h.eq_of_key hx (h.waiting r hr) hid ht ▸ hr)

/-- New states are committed, and wait. -/
theorem Tallied.commit (h : Tallied b) {new : List Resource} (hdistinct : new.Pairwise (·.id ≠ ·.id))
    (hlater : ∀ x ∈ b.committed, ∀ y ∈ new, x.id = y.id → x.modified < y.modified)
    (hp : d.pending = b.pending ++ new) (hc : d.committed = b.committed ++ new) (hr : d.removed = b.removed) :
    Tallied d ∧ d.noted = b.noted := by
  have hfresh : ∀ x ∈ b.committed, x ∉ new := fun x hx hn => by
    have hless := hlater x hx x hn rfl
    exact Instant.lt_asymm hless hless
  have htallied : Tallied d := by
    refine ⟨fun r hr => ?_, ?_, ?_, fun id t hgone => ?_⟩
    · rw [hp, List.mem_append] at hr
      rw [hc, List.mem_append]
      exact hr.imp_left (h.waiting r)
    · rw [hp, List.nodup_append]
      refine ⟨h.once, hdistinct.imp fun {x y} hne heq => hne (by rw [heq]), fun x hx y hy heq => ?_⟩
      exact hfresh x (h.waiting x hx) (heq ▸ hy)
    · rw [hc, List.pairwise_append]
      exact ⟨h.ascending, hdistinct.imp fun hne heq => absurd heq hne, hlater⟩
    · rw [hr] at hgone
      obtain ⟨r, hmem, hid, ht, hwaits⟩ := h.gone id t hgone
      rw [hc, hp]
      refine ⟨r, List.mem_append_left _ hmem, hid, ht, fun hin => ?_⟩
      rcases List.mem_append.mp hin with hin | hin
      · exact hwaits hin
      · exact hfresh r hmem hin
  refine ⟨htallied, funext fun id => funext fun t => h.noted_eq htallied fun r _ _ => ?_⟩
  rw [hc, hp, hr, List.mem_append, List.mem_append, not_or]
  constructor
  · rintro ⟨hmem, ⟨hwaits, hold⟩, hkept⟩
    exact ⟨hmem.resolve_right hold, hwaits, hkept⟩
  · rintro ⟨hmem, hwaits, hkept⟩
    exact ⟨.inl hmem, ⟨hwaits, hfresh r hmem⟩, hkept⟩

theorem mem_eraseIdx_of_nodup {rs : List Resource} (h : rs.Nodup) {k : Nat} {r : Resource} (hk : rs[k]? = some r)
    {x : Resource} : x ∈ rs.eraseIdx k ↔ x ≠ r ∧ x ∈ rs := by
  obtain ⟨hlt, rfl⟩ := List.getElem?_eq_some_iff.mp hk
  rw [List.mem_eraseIdx_iff_getElem, List.mem_iff_getElem]
  constructor
  · rintro ⟨i, hi, hne, rfl⟩
    exact ⟨mt h.getElem_inj_iff.mp hne, i, hi, rfl⟩
  · rintro ⟨hne, i, hi, rfl⟩
    exact ⟨i, hi, fun heq => hne (by subst heq; rfl), rfl⟩

/-- A state that waits is recorded. -/
theorem Tallied.record (h : Tallied b) {k : Nat} {r : Resource} (hk : b.pending[k]? = some r)
    (hp : d.pending = b.pending.eraseIdx k) (hc : d.committed = b.committed) (hr : d.removed = b.removed) :
    Tallied d ∧ d.noted = Histories.set b.noted r.id r.modified (some r) := by
  have hwaits := List.mem_of_getElem? hk
  have hmem := h.waiting r hwaits
  have hleft : ∀ x, x ∈ d.pending ↔ x ≠ r ∧ x ∈ b.pending :=
    fun x => by rw [hp, mem_eraseIdx_of_nodup h.once hk]
  have htallied : Tallied d := by
    refine ⟨fun x hx => ?_, ?_, ?_, fun id t hgone => ?_⟩
    · rw [hc]
      exact h.waiting x ((hleft x).mp hx).2
    · rw [hp]
      exact h.once.sublist (List.eraseIdx_sublist _ _)
    · rw [hc]
      exact h.ascending
    · rw [hr] at hgone
      obtain ⟨x, hx, hid, ht, hnot⟩ := h.gone id t hgone
      exact ⟨x, by rwa [hc], hid, ht, fun hin => hnot ((hleft x).mp hin).2⟩
  refine ⟨htallied, Histories.eq_set ?_ fun id t hkey => h.noted_eq htallied fun x hid ht => ?_⟩
  · rw [htallied.noted_eq_some, hc, hr, hleft]
    exact ⟨hmem, rfl, rfl, fun hx => hx.1 rfl, h.not_removed hwaits⟩
  · have hne : x ≠ r := fun heq => hkey ⟨by rw [← hid, heq], by rw [← ht, heq]⟩
    rw [hc, hr, hleft, and_iff_right hne]

/-- What is recorded of an identifier and a time, if anything is, is removed. -/
theorem Tallied.forget (h : Tallied b) {id : Iri} {t : Instant} (hp : d.pending = b.pending)
    (hc : d.committed = b.committed)
    (hr : d.removed = if (b.noted id t).isSome then (id, t) :: b.removed else b.removed) :
    Tallied d ∧ d.noted = Histories.set b.noted id t none := by
  have hkept : ∀ x s, (x, s) ∉ d.removed ↔ (x, s) ∉ b.removed ∧
      ((b.noted id t).isSome → ¬ (x = id ∧ s = t)) := by
    intro x s
    rw [hr]
    split
    · next hsome => simp [hsome, and_comm]
    · next hnone => simp [hnone]
  have htallied : Tallied d := by
    refine ⟨fun r hr => ?_, ?_, ?_, fun x s hgone => ?_⟩
    · rw [hc]
      exact h.waiting r (hp ▸ hr)
    · rw [hp]
      exact h.once
    · rw [hc]
      exact h.ascending
    · rw [hc, hp]
      by_cases hbefore : (x, s) ∈ b.removed
      · exact h.gone x s hbefore
      · have hnow := mt (hkept x s).mpr (not_not_intro hgone)
        simp only [hbefore, not_false_eq_true, true_and, Classical.not_imp, not_not] at hnow
        obtain ⟨hsome, rfl, rfl⟩ := hnow
        obtain ⟨r, hnoted⟩ := Option.isSome_iff_exists.mp hsome
        obtain ⟨hmem, hid, ht, hnot, -⟩ := h.noted_eq_some.mp hnoted
        exact ⟨r, hmem, hid, ht, hnot⟩
  refine ⟨htallied, Histories.eq_set (Option.eq_none_iff_forall_ne_some.mpr fun r hnoted => ?_)
    fun x s hkey => h.noted_eq htallied fun r _ _ => ?_⟩
  · rw [htallied.noted_eq_some, hc, hp, hkept] at hnoted
    obtain ⟨hmem, hid, ht, hnot, hbefore, hnone⟩ := hnoted
    refine hnone ?_ ⟨rfl, rfl⟩
    rw [h.noted_eq_some.mpr ⟨hmem, hid, ht, hnot, hbefore⟩]
    rfl
  · rw [hc, hp, hkept, and_iff_left fun _ => hkey]

/-! The states that are kept of an identifier -/

theorem mem_kept {id : Iri} {r : Resource} :
    r ∈ b.kept id ↔ r ∈ b.committed ∧ r.id = id ∧ (id, r.modified) ∉ b.removed := by
  rw [kept, List.mem_filter, decide_eq_true_eq]

theorem Tallied.ascending_kept (h : Tallied b) (id : Iri) : ((b.kept id).map (·.modified)).Pairwise (· < ·) := by
  rw [List.pairwise_map]
  refine (h.ascending.filter _).imp_of_mem fun {x y} hx hy hlt => hlt ?_
  rw [(mem_kept.mp hx).2.1, (mem_kept.mp hy).2.1]

theorem Tallied.noted_of_done (h : Tallied b) (hdone : b.pending = []) {id : Iri} {t : Instant} {r : Resource} :
    b.noted id t = some r ↔ r ∈ b.kept id ∧ r.modified = t := by
  rw [h.noted_eq_some, mem_kept, hdone]
  constructor
  · rintro ⟨hmem, hid, rfl, -, hkept⟩
    exact ⟨⟨hmem, hid, hkept⟩, rfl⟩
  · rintro ⟨⟨hmem, hid, hkept⟩, rfl⟩
    exact ⟨hmem, hid, rfl, List.not_mem_nil, hkept⟩

/-- The last of ascending states is the latest. -/
theorem le_of_getLast? {rs : List Resource} (h : (rs.map (·.modified)).Pairwise (· < ·)) {x y : Resource}
    (hx : rs.getLast? = some x) (hy : y ∈ rs) : y.modified ≤ x.modified := by
  obtain ⟨front, rfl⟩ := List.getLast?_eq_some_iff.mp hx
  rw [List.map_append, List.pairwise_append] at h
  rcases List.mem_append.mp hy with hy | hy
  · exact Instant.le_of_lt (h.2.2 _ (List.mem_map_of_mem hy) _ (List.mem_singleton_self _))
  · rw [List.mem_singleton.mp hy]
    exact Instant.le_refl _

/-- Where a state is kept, the latest until a time that is not before it is one that is not older. -/
theorem Tallied.getLast?_kept (h : Tallied b) {id : Iri} {r : Resource} (hr : r ∈ b.kept id) {t : Instant}
    (ht : r.modified ≤ t) :
    ∃ x ∈ b.kept id, r.modified ≤ x.modified ∧ x.modified ≤ t ∧
      ((b.kept id).filter (·.modified ≤ t)).getLast? = some x := by
  have hin : r ∈ (b.kept id).filter (·.modified ≤ t) := List.mem_filter.mpr ⟨hr, decide_eq_true ht⟩
  have hascending : (((b.kept id).filter (·.modified ≤ t)).map (·.modified)).Pairwise (· < ·) := by
    rw [List.pairwise_map]
    exact (List.pairwise_map.mp (h.ascending_kept id)).filter _
  obtain ⟨x, hx⟩ := Option.ne_none_iff_exists'.mp (mt List.getLast?_eq_none_iff.mp (List.ne_nil_of_mem hin))
  obtain ⟨hkept, hle⟩ := List.mem_filter.mp (List.mem_of_getLast? hx)
  exact ⟨x, hkept, le_of_getLast? hascending hx hin, of_decide_eq_true hle, hx⟩

end

/-! ## Requests up to their commits -/

section

variable {σ α ε : Type} [RecordStore σ] [KeyedStore σ]

/-- A request dates what it commits, or leaves all records as they were. -/
theorem enact_told [BlobStore α] {s : Service σ α ε} (hs : Sound s.repository) (now : Instant) (q : Request) :
    Told s.repository now (s.enact now q).1.toOption.join (s.enact now q).2.repository := by
  rcases s.enact_cases now q with ⟨⟨e, he⟩, hstill⟩ | ⟨call, session, -, hcommit, hrepository, -⟩
  · rw [he, hstill]
    exact ⟨rfl, rfl⟩
  · rw [hcommit, hrepository]
    exact call_told hs session now call

omit [KeyedStore σ] in
theorem toOption_get [SteadyStore σ] (s : Service σ α ε) (id : Iri) :
    (s.get id).toOption.join = findLive s.repository.store id := by
  rw [Service.get, get_eq_findLive]
  rfl

theorem mem_liveStates {r : Repository σ} {s : Service σ α ε} {now : Instant} {c : Commit}
    (hd : Dated r now c s.repository) {x : Resource} :
    x ∈ liveStates s c ↔ x ∈ c.resources ∧ findLive s.repository.store x.id = some x := by
  unfold liveStates
  rw [List.mem_filter, toOption_get]
  refine and_congr_right fun hx => ⟨fun hlive => ?_, fun hlive => by rw [hlive]; rfl⟩
  obtain ⟨record, hfind, hresource⟩ := hd.written hx
  obtain ⟨y, hy⟩ := Option.isSome_iff_exists.mp hlive
  rw [hy]
  rw [findLive, hfind] at hy
  exact congrArg some ((Record.live?_eq_some.mp hy).2.symm.trans hresource)

/-- What a service records of a commit is what is live after it. -/
theorem archived_eq_liveStates {r : Repository σ} {s : Service σ α ε} {now : Instant} {c : Commit}
    (hd : Dated r now c s.repository) : Service.archived c = liveStates s c := by
  have htarget := hd.target
  rw [record_eq, Except.ok.injEq] at htarget
  have htouched : (c.touched.filter fun y => (s.get y.id).toOption.join.isSome) = c.touched := by
    refine List.filter_eq_self.mpr fun y hy => ?_
    have hrecord := hd.touched y hy
    rw [record_eq, Except.ok.injEq] at hrecord
    rw [toOption_get, findLive, hrecord]
    rfl
  unfold Service.archived liveStates Commit.resources
  rw [List.filter_cons, htouched, toOption_get, findLive, htarget]
  by_cases hk : c.kind = .deleted
  · rw [if_pos hk, if_pos hk]
    rfl
  · rw [if_neg hk, if_neg hk]
    rfl

end

/-! ## Requests that are handled at once -/

section

variable {σ α ε : Type} [RecordStore σ] [MementoStore α] [BlobStore α]

/-- All that waits is recorded, in order. -/
theorem run_record (b : Backlog σ α ε) :
    run b (List.replicate b.pending.length (.record 0)) =
      { b with
        service := { b.service with
          archive := b.pending.foldl (fun a r => (MementoStore.put a r.id r.modified r).2) b.service.archive }
        pending := [] } := by
  obtain ⟨service, pending, committed, removed⟩ := b
  induction pending generalizing service with
  | nil => rfl
  | cons r pending ih => exact ih _

/-- A request that is handled is one whose states are recorded right after its commit. -/
theorem run_request [EventSink ε] {b : Backlog σ α ε} (hdone : b.pending = [])
    (hkeeps : b.service.keepsHistory = true) (now : Instant) (q : Request) :
    ∃ n, (run b (.request now q :: List.replicate n (.record 0))).pending = [] ∧
      (run b (.request now q :: List.replicate n (.record 0))).service.repository =
        (b.service.handle now q).2.repository ∧
      (run b (.request now q :: List.replicate n (.record 0))).service.archive =
        (b.service.handle now q).2.archive := by
  have hrun : run b (.request now q :: List.replicate (step b (.request now q)).pending.length (.record 0)) = _ :=
    run_record (step b (.request now q))
  have henacted := (Service.enacted b.service now q).keepsHistory
  refine ⟨(step b (.request now q)).pending.length, ?_⟩
  rw [hrun, Service.handle_eq]
  unfold step Service.wrapUp
  dsimp only
  generalize b.service.enact now q = out at henacted
  obtain ⟨answer, s⟩ := out
  have hhistory : s.keepsHistory = true := henacted.trans hkeeps
  rcases answer with e | c | c
  · exact ⟨rfl, rfl, by simp [hdone, Except.toOption]⟩
  · exact ⟨rfl, rfl, by simp [hdone, Except.toOption]⟩
  · exact ⟨rfl, rfl, by simp [hdone, hhistory, Except.toOption, Service.finish, Service.recordMementos]⟩

end

/-! ## What holds at every time -/

section

variable {σ ε : Type} [RecordStore σ] [KeyedStore σ] {known : Set Iri} {b : Backlog σ FileArchive ε}

/-- The store is at the last of the states that were committed, and the archive holds those that were
    recorded and not removed. -/
structure Inv (known : Set Iri) (b : Backlog σ FileArchive ε) : Prop extends Tallied b where
  sound : Sound b.service.repository
  keepsHistory : b.service.keepsHistory = true
  held : b.service.archive.Holds known b.noted
  reached : ∀ x ∈ b.committed, ∃ record, find b.service.repository.store x.id = some record ∧
    x.modified ≤ record.resource.modified
  current : ∀ id r, findLive b.service.repository.store id = some r → r ∈ b.committed

theorem inv_rest {s : Service σ FileArchive ε} (hempty : ∀ id, find s.repository.store id = none)
    (hkeeps : s.keepsHistory = true) (hl : s.archive.Laid known) (hb : s.archive.Blank) : Inv known (rest s) where
  sound := Sound.of_empty hempty
  waiting _ hr := by cases hr
  once := List.nodup_nil
  ascending := .nil
  gone _ _ h := by cases h
  keepsHistory := hkeeps
  held := hb.holds hl
  reached _ hx := by cases hx
  current id r hr := by
    rw [findLive, show find (rest s).service.repository.store id = none from hempty id] at hr
    cases hr

/-- The store after a commit, seen from the states that were committed before and by it. -/
theorem Inv.store_commit (hi : Inv known b) {now : Instant} {c : Commit} {s : Service σ FileArchive ε}
    (hd : Dated b.service.repository now c s.repository) :
    (∀ x ∈ b.committed ++ liveStates s c, ∃ record, find s.repository.store x.id = some record ∧
        x.modified ≤ record.resource.modified) ∧
      (∀ id r, findLive s.repository.store id = some r → r ∈ b.committed ++ liveStates s c) ∧
      ∀ x ∈ b.committed, ∀ y ∈ liveStates s c, x.id = y.id → x.modified < y.modified := by
  have hlater : ∀ x ∈ b.committed, ∀ y ∈ c.resources, x.id = y.id → x.modified < y.modified := by
    intro x hx y hy hid
    obtain ⟨old, hold, hle⟩ := hi.reached x hx
    rw [hid] at hold
    exact Instant.lt_of_le_of_lt hle (hd.later y hy old (by rw [record_eq, hold]))
  refine ⟨fun x hx => ?_, fun id r hr => ?_, fun x hx y hy => hlater x hx y ((mem_liveStates hd).mp hy).1⟩
  · rcases List.mem_append.mp hx with hx | hx
    · obtain ⟨old, hold, hle⟩ := hi.reached x hx
      obtain ⟨record, hrecord, hle'⟩ := hd.reaches hold
      exact ⟨record, hrecord, Instant.le_trans hle hle'⟩
    · obtain ⟨record, hrecord, rfl⟩ := hd.written ((mem_liveStates hd).mp hx).1
      exact ⟨record, hrecord, Instant.le_refl _⟩
  · obtain ⟨record, hfind, hlive⟩ := Option.bind_eq_some_iff.mp hr
    rw [List.mem_append, mem_liveStates hd]
    rcases hd.find_cases hfind with ⟨y, hy, rfl, hrecord⟩ | ⟨-, hold⟩
    · refine .inr ?_
      have hresource : record.resource = y := by
        rcases hrecord with rfl | ⟨-, -, rfl⟩ <;> rfl
      obtain ⟨-, rfl⟩ := Record.live?_eq_some.mp hlive
      rw [hresource] at hr ⊢
      exact ⟨hy, hr⟩
    · refine .inl (hi.current id r ?_)
      rw [findLive, hold]
      exact hlive

theorem Inv.request (hi : Inv known b) (now : Instant) (q : Request) : Inv known (step b (.request now q)) := by
  have htold := enact_told hi.sound now q
  have henacted := Service.enacted b.service now q
  unfold step
  dsimp only
  generalize b.service.enact now q = out at htold henacted
  obtain ⟨answer, s⟩ := out
  have hsound := htold.sound hi.sound
  have hheld := henacted.archive.keeps (P := (FileArchive.Holds known · b.noted)) hi.held.store hi.held
  have hkeeps : s.keepsHistory = true := henacted.keepsHistory.trans hi.keepsHistory
  dsimp only at htold hsound hheld ⊢
  cases hc : answer.toOption.join with
  | none =>
    rw [hc] at htold
    have hstore : s.repository.store = b.service.repository.store := htold.2
    dsimp only
    refine ⟨⟨hi.waiting, hi.once, hi.ascending, hi.gone⟩, hsound, hkeeps, hheld, ?_, ?_⟩
    · rw [hstore]
      exact hi.reached
    · rw [hstore]
      exact hi.current
  | some c =>
    rw [hc] at htold
    have hd : Dated b.service.repository now c s.repository := htold.2
    dsimp only
    rw [archived_eq_liveStates hd]
    obtain ⟨hreached, hcurrent, hlater⟩ := hi.store_commit hd
    obtain ⟨htallied, hnoted⟩ := hi.toTallied.commit
      (d := ⟨s, b.pending ++ liveStates s c, b.committed ++ liveStates s c, b.removed⟩)
      ((List.pairwise_map.mp hd.once).filter _) hlater rfl rfl rfl
    exact ⟨htallied, hsound, hkeeps, hnoted ▸ hheld, hreached, hcurrent⟩

theorem Inv.record (hi : Inv known b) (k : Nat) (hk : ∀ r ∈ b.committed, r.id ∈ known ∧ r.Readable) :
    Inv known (step b (.record k)) := by
  cases hr : b.pending[k]? with
  | none =>
    rw [show step b (.record k) = b by simp only [step, hr]]
    exact hi
  | some r =>
    have hwaits := List.mem_of_getElem? hr
    obtain ⟨hid, hreadable⟩ := hk r (hi.waiting r hwaits)
    obtain ⟨a, hput, hheld⟩ := hi.held.put hid hreadable.1 hreadable
    have hstep : step b (.record k) =
        ⟨{ b.service with archive := a }, b.pending.eraseIdx k, b.committed, b.removed⟩ := by
      simp only [step, hr, hput]
    rw [hstep]
    obtain ⟨htallied, hnoted⟩ := hi.toTallied.record
      (d := ⟨{ b.service with archive := a }, b.pending.eraseIdx k, b.committed, b.removed⟩) hr rfl rfl rfl
    exact ⟨htallied, hi.sound, hi.keepsHistory, hnoted ▸ hheld, hi.reached, hi.current⟩

/-- A deletion says truly whether there was something to delete. -/
theorem Inv.forget (hi : Inv known b) {id : Iri} (hid : id ∈ known) {t : Instant} (ht : t.Valid) :
    (b.service.deleteMemento id t).1 = .ok (b.noted id t).isSome ∧ Inv known (step b (.forget id t)) := by
  obtain ⟨a, hdelete, hheld⟩ := hi.held.delete hid ht
  have hanswer : b.service.deleteMemento id t = (.ok (b.noted id t).isSome, { b.service with archive := a }) := by
    unfold Service.deleteMemento
    rw [if_pos hi.keepsHistory, hdelete]
    rfl
  unfold step
  dsimp only
  rw [hanswer]
  obtain ⟨htallied, hnoted⟩ := hi.toTallied.forget
    (d := ⟨{ b.service with archive := a }, b.pending, b.committed,
      if (b.noted id t).isSome then (id, t) :: b.removed else b.removed⟩) rfl rfl rfl
  exact ⟨rfl, htallied, hi.sound, hi.keepsHistory, hnoted ▸ hheld, hi.reached, hi.current⟩

/-- A move that only forgets what an identifier and a time can name. -/
def Move.Names (known : Set Iri) : Move → Prop
  | .forget id t => id ∈ known ∧ t.Valid
  | _ => True

omit [KeyedStore σ] in
theorem committed_step (b : Backlog σ FileArchive ε) (m : Move) : b.committed <+: (step b m).committed := by
  cases m with
  | request now q =>
    unfold step
    dsimp only
    split
    · exact List.prefix_refl _
    · exact List.prefix_append _ _
  | record k =>
    unfold step
    dsimp only
    split <;> exact List.prefix_refl _
  | forget id t => exact List.prefix_refl _

omit [KeyedStore σ] in
theorem committed_run (b : Backlog σ FileArchive ε) (moves : List Move) :
    b.committed <+: (run b moves).committed := by
  induction moves generalizing b with
  | nil => exact List.prefix_refl _
  | cons m moves ih => exact (committed_step b m).trans (ih (step b m))

theorem Inv.step (hi : Inv known b) {m : Move} (hm : m.Names known)
    (hk : ∀ r ∈ (Backlog.step b m).committed, r.id ∈ known ∧ r.Readable) : Inv known (Backlog.step b m) := by
  cases m with
  | request now q => exact hi.request now q
  | record k => exact hi.record k fun r hr => hk r ((committed_step b (.record k)).subset hr)
  | forget id t => exact (hi.forget hm.1 hm.2).2

theorem Inv.run (hi : Inv known b) {moves : List Move} (hm : ∀ m ∈ moves, m.Names known)
    (hk : ∀ r ∈ (Backlog.run b moves).committed, r.id ∈ known ∧ r.Readable) :
    Inv known (Backlog.run b moves) := by
  induction moves generalizing b with
  | nil => exact hi
  | cons m moves ih =>
    have hstep := hi.step (hm m List.mem_cons_self) fun r hr => hk r ((committed_run _ moves).subset hr)
    exact ih hstep (fun n hn => hm n (List.mem_cons_of_mem m hn)) hk

/-! ## When nothing waits -/

/-- The history of an identifier as clients see it: its times are those of the states that were
    committed and not removed, and each time is answered with the latest of them until then. -/
structure Complete (b : Backlog σ FileArchive ε) (id : Iri) : Prop where
  ascending : ((b.kept id).map (·.modified)).Pairwise (· < ·)
  times : b.service.mementoTimes id = .ok ((b.kept id).map (·.modified))
  states : ∀ t, b.service.getAt id t = .ok ((b.kept id).filter (·.modified ≤ t)).getLast?
  /-- The present state is the last of the history, if it was not removed from it. -/
  present : ∀ r, b.service.get id = .ok (some r) → (id, r.modified) ∉ b.removed →
    ∀ t, r.modified ≤ t → b.service.getAt id t = b.service.get id
  /-- Earlier states stay, whether the resource is live or not. -/
  earlier : ∀ r ∈ b.kept id, ∀ t, r.modified ≤ t →
    ∃ x ∈ b.kept id, r.modified ≤ x.modified ∧ x.modified ≤ t ∧ b.service.getAt id t = .ok (some x)

/-- What is live is the latest of what was committed. -/
theorem Inv.present (hi : Inv known b) {id : Iri} {r : Resource}
    (hr : findLive b.service.repository.store id = some r) :
    r ∈ b.committed ∧ r.id = id ∧ ∀ x ∈ b.committed, x.id = id → x.modified ≤ r.modified := by
  obtain ⟨record, hfind, hlive⟩ := Option.bind_eq_some_iff.mp hr
  obtain ⟨-, rfl⟩ := Record.live?_eq_some.mp hlive
  refine ⟨hi.current id _ hr, hi.sound.keyed id record hfind, fun x hx hid => ?_⟩
  obtain ⟨last, hlast, hle⟩ := hi.reached x hx
  rw [hid, hfind, Option.some.injEq] at hlast
  rwa [← hlast] at hle

theorem Inv.complete (hi : Inv known b) (hdone : b.pending = []) {id : Iri} (hid : id ∈ known) : Complete b id := by
  have hascending := hi.toTallied.ascending_kept id
  have hmem : ∀ t, t ∈ (b.kept id).map (·.modified) ↔ b.noted id t ≠ none := by
    intro t
    rw [List.mem_map, Option.ne_none_iff_exists']
    exact exists_congr fun r => (hi.toTallied.noted_of_done hdone).symm
  have hstates : ∀ t, b.service.getAt id t = .ok ((b.kept id).filter (·.modified ≤ t)).getLast? := by
    intro t
    unfold Service.getAt
    rw [if_pos hi.keepsHistory, hi.held.get hid hascending hmem fun r hr =>
      ⟨(mem_kept.mp hr).2.1, (hi.toTallied.noted_of_done hdone).mpr ⟨hr, rfl⟩⟩]
    rfl
  have hearlier : ∀ r ∈ b.kept id, ∀ t, r.modified ≤ t →
      ∃ x ∈ b.kept id, r.modified ≤ x.modified ∧ x.modified ≤ t ∧ b.service.getAt id t = .ok (some x) := by
    intro r hr t ht
    obtain ⟨x, hx, hle, hle', hlast⟩ := hi.toTallied.getLast?_kept hr ht
    exact ⟨x, hx, hle, hle', by rw [hstates, hlast]⟩
  refine ⟨hascending, ?_, hstates, fun r hr hkept t ht => ?_, hearlier⟩
  · unfold Service.mementoTimes
    rw [if_pos hi.keepsHistory, hi.held.list hid hascending hmem]
    rfl
  · rw [Service.get, get_eq_findLive, Except.ok.injEq] at hr
    obtain ⟨hmem, hown, hlatest⟩ := hi.present hr
    obtain ⟨x, hx, hle, -, hanswer⟩ := hearlier r (mem_kept.mpr ⟨hmem, hown, hkept⟩) t ht
    obtain ⟨hmemx, hidx, -⟩ := mem_kept.mp hx
    have hsame : x = r :=
      hi.toTallied.eq_of_key hmemx hmem (hidx.trans hown.symm) (Instant.le_antisymm (hlatest x hmemx hidx) hle)
    rw [hanswer, hsame, Service.get, get_eq_findLive, hr]

/-- From an empty workspace that keeps history, after any requests, removals of mementos and records of
    states, these in any order: once nothing waits, the history of every identifier is complete. -/
theorem history_complete {s : Service σ FileArchive ε} (hempty : ∀ id, find s.repository.store id = none)
    (hkeeps : s.keepsHistory = true) (hl : s.archive.Laid known) (hb : s.archive.Blank) {moves : List Move}
    (hm : ∀ m ∈ moves, m.Names known) (hk : ∀ r ∈ ((rest s).run moves).committed, r.id ∈ known ∧ r.Readable)
    (hdone : ((rest s).run moves).pending = []) : ∀ id ∈ known, Complete ((rest s).run moves) id :=
  fun _ hid => ((inv_rest hempty hkeeps hl hb).run hm hk).complete hdone hid

end

/-- A service over an empty table and an empty tree. -/
def unused : Service Table FileArchive Sink :=
  ⟨.open ⟨"trellis:data/"⟩ .empty 0 ⟨0, 0⟩, ⟨.empty, ["data", "mementos"], ["data", "binaries"]⟩, true,
    .discard, "urn:agents:", .new 1, 0, 0⟩

theorem laid_unused : unused.archive.Laid {⟨"trellis:data/"⟩, ⟨"trellis:data/a"⟩} where
  apart := by
    have hhashes : ([(⟨"trellis:data/"⟩ : Iri), ⟨"trellis:data/a"⟩].map fun id =>
        Blake3.hash (Encoding.utf8 id.text)).Nodup := by
      decide +kernel
    exact MementoFiles.apart_of_nodup (fun id hid => by simpa using hid) hhashes
  suits := by decide +kernel
  plain := by decide
  beside := .of_length (by decide) (by decide)

/-- A resource is created in the root container and deleted. The states are recorded late and out of order,
    and one of the root's is removed again. -/
def belated : List Move :=
  [.request ⟨9, 0⟩ .makeRoot,
   .request ⟨9, 0⟩ (.create ⟨"trellis:data/a"⟩ .rdfSource .empty (.anonymous ⟨9, 0⟩)),
   .record 2, .record 0,
   .forget ⟨"trellis:data/"⟩ ⟨9, 0⟩, .forget ⟨"trellis:data/a"⟩ ⟨9, 0⟩,
   .request ⟨3, 0⟩ (.delete ⟨"trellis:data/a"⟩ (.anonymous ⟨3, 0⟩)),
   .record 1, .record 0]

/-- The root's removed state is missing from its history; the deleted resource has all of its states, since
    the other removal came before there was anything to remove. -/
theorem belated_history_complete :
    ((((rest unused).run belated).kept ⟨"trellis:data/"⟩).map (·.modified) = [⟨9, 1⟩, ⟨9, 2⟩] ∧
      (((rest unused).run belated).kept ⟨"trellis:data/a"⟩).map (·.modified) = [⟨9, 0⟩] ∧
      ((rest unused).run belated).service.get ⟨"trellis:data/a"⟩ = .ok none) ∧
      ∀ id ∈ ({⟨"trellis:data/"⟩, ⟨"trellis:data/a"⟩} : Set Iri), Complete ((rest unused).run belated) id := by
  have hnames : ∀ m ∈ belated, m.Names {⟨"trellis:data/"⟩, ⟨"trellis:data/a"⟩} := by
    intro m hm
    cases m with
    | request now q => trivial
    | record k => trivial
    | forget id t =>
      have hforgets : id = ⟨"trellis:data/"⟩ ∧ t = ⟨9, 0⟩ ∨
          id = ⟨"trellis:data/a"⟩ ∧ t = ⟨9, 0⟩ := by simpa [belated] using hm
      rcases hforgets with ⟨rfl, rfl⟩ | ⟨rfl, rfl⟩
      · exact ⟨by simp, by decide⟩
      · exact ⟨by simp, by decide⟩
  have hstates : ∀ r ∈ ((rest unused).run belated).committed,
      r.id ∈ ({⟨"trellis:data/"⟩, ⟨"trellis:data/a"⟩} : Set Iri) ∧ r.Readable := by
    show ∀ r ∈ ((rest unused).run belated).committed,
      (r.id = ⟨"trellis:data/"⟩ ∨ r.id = ⟨"trellis:data/a"⟩) ∧ r.Readable
    decide +kernel
  have hdone : ((rest unused).run belated).pending = [] := by decide +kernel
  refine ⟨?_, history_complete Table.get?_empty rfl laid_unused (.of_empty _ _) hnames hstates hdone⟩
  decide +kernel

end Backlog

end LinkedData
