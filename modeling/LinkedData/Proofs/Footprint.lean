/-
  LinkedData.Proofs.Footprint — what a mutation depends on.

  Two transactions on two stores are linked over a set of identifiers when they stand at the
  same point, have read and written only identifiers of the set, and their stores hold the
  same under each of them. Every step keeps them linked if the identifiers that it is about
  are in the set. The plan of a mutation is such a set for the whole of it (`Covers`,
  `linked_apply`): a mutation neither reads nor writes outside its plan, and two stores that
  agree on the plan give it the same end.
-/

import LinkedData.Proofs.Hierarchy
import LinkedData.Proofs.Members
import LinkedData.Proofs.Targets
import Mathlib.Data.List.Basic

namespace LinkedData

open Std SteadyStore

namespace Transaction

variable {σ₁ σ₂ : Type} [RecordStore σ₁] [SteadyStore σ₁] [RecordStore σ₂] [SteadyStore σ₂]

/-- At the same point, within `G`, over stores that agree on `G`. -/
structure Linked (G : Iri → Prop) (tx₁ : Transaction σ₁) (tx₂ : Transaction σ₂) : Prop where
  now : tx₁.now = tx₂.now
  scopes : tx₁.scopes = tx₂.scopes
  reads : tx₁.reads = tx₂.reads
  staged : tx₁.staged = tx₂.staged
  readsIn : ∀ x ∈ tx₁.reads, G x
  stagedIn : ∀ x ∈ tx₁.staged, G x
  agree : ∀ x, G x → find tx₁.store x = find tx₂.store x
  tidy : tx₁.Tidy

namespace Linked

variable {G : Iri → Prop} {tx₁ : Transaction σ₁} {tx₂ : Transaction σ₂}

theorem look (h : Linked G tx₁ tx₂) {x : Iri} (hx : G x) : tx₁.look x = tx₂.look x := by
  unfold Transaction.look
  rw [h.staged, h.agree x hx]

theorem lookLive (h : Linked G tx₁ tx₂) {x : Iri} (hx : G x) : tx₁.lookLive x = tx₂.lookLive x := by
  unfold Transaction.lookLive
  rw [h.look hx]

theorem due (h : Linked G tx₁ tx₂) {x : Iri} (hx : G x) : tx₁.due x = tx₂.due x := by
  unfold Transaction.due
  rw [h.now, h.agree x hx]

theorem ask (h : Linked G tx₁ tx₂) {x : Iri} (hx : G x) : Linked G (tx₁.ask x) (tx₂.ask x) where
  now := h.now
  scopes := h.scopes
  reads := by simp only [Transaction.ask, h.reads]
  staged := h.staged
  readsIn y hy := by
    rcases ExtTreeSet.mem_insert.mp hy with e | hy
    · exact LawfulEqCmp.eq_of_compare e ▸ hx
    · exact h.readsIn y hy
  stagedIn := h.stagedIn
  agree := h.agree
  tidy := h.tidy

theorem touch (h : Linked G tx₁ tx₂) {x : Iri} (hx : G x) : Linked G (tx₁.touch x) (tx₂.touch x) := by
  unfold Transaction.touch
  rw [h.staged]
  split
  · exact h
  · exact h.ask hx

theorem touchAll (h : Linked G tx₁ tx₂) {ids : List Iri} (hx : ∀ x ∈ ids, G x) :
    Linked G (tx₁.touchAll ids) (tx₂.touchAll ids) := by
  induction ids generalizing tx₁ tx₂ with
  | nil => exact h
  | cons x ids ih =>
    exact ih (h.touch (hx x List.mem_cons_self)) fun y hy => hx y (List.mem_cons_of_mem _ hy)

theorem put (h : Linked G tx₁ tx₂) {r : Record} (hr : G r.id) : Linked G (tx₁.put r) (tx₂.put r) where
  now := h.now
  scopes := h.scopes
  reads := h.reads
  staged := by simp only [Transaction.put, h.staged]
  readsIn := h.readsIn
  stagedIn y hy := by
    rcases ExtTreeMap.mem_insert.mp hy with e | hy
    · exact LawfulEqCmp.eq_of_compare e ▸ hr
    · exact h.stagedIn y hy
  agree := h.agree
  tidy := h.tidy.put r

theorem draw (h : Linked G tx₁ tx₂) : Linked G tx₁.draw tx₂.draw :=
  ⟨h.now, by simp only [Transaction.draw, h.scopes], h.reads, h.staged, h.readsIn, h.stagedIn, h.agree, h.tidy⟩

theorem edit (h : Linked G tx₁ tx₂) {e : Edit} (he : G e.holder) : Linked G (tx₁.edit e) (tx₂.edit e) := by
  unfold Transaction.edit
  rw [← h.lookLive he]
  cases hl : tx₁.lookLive e.holder with
  | none => exact h.touch he
  | some r =>
    have hr : r.id = e.holder := h.tidy.id_eq hl
    exact (h.touch he).put (by rwa [Record.id_live, Edit.id_on, hr])

theorem edits (h : Linked G tx₁ tx₂) {es : List Edit} (he : ∀ e ∈ es, G e.holder) :
    Linked G (tx₁.edits es) (tx₂.edits es) := by
  induction es generalizing tx₁ tx₂ with
  | nil => exact h
  | cons e es ih =>
    exact ih (h.edit (he e List.mem_cons_self)) fun e' he' => he e' (List.mem_cons_of_mem _ he')

end Linked

end Transaction

/-! ## Upkeep within a set -/

namespace Upkeep

/-- All that is read or edited is in `G`. -/
def Within (G : Iri → Prop) (u : Upkeep) : Prop := (∀ x ∈ u.reads, G x) ∧ ∀ e ∈ u.edits, G e.holder

end Upkeep

namespace Upkeep

variable {G : Iri → Prop} {see see' : Iri → Option Resource}

theorem retract_within (see : Iri → Option Resource) (m : Membership) {container : Resource} (leaving : Iri)
    {ts : List MemberTriple} (hc : ∀ x ∈ container.children, G x) (ht : ∀ t ∈ ts, G t.holder) :
    (retract see m container leaving ts).Within G := by
  unfold retract
  split
  · exact ⟨by simp, by simp⟩
  · refine ⟨fun x hx => hc x (List.mem_filter.mp hx).1, fun e he => ?_⟩
    obtain ⟨t, ht', rfl⟩ := List.mem_map.mp he
    exact ht t (List.mem_filter.mp ht').1

theorem retract_congr {m : Membership} {container : Resource} {leaving : Iri} {ts : List MemberTriple}
    (h : ∀ x ∈ container.children, see x = see' x) :
    retract see m container leaving ts = retract see' m container leaving ts := by
  have hs : (container.children.filter (· ≠ leaving)).filterMap see =
      (container.children.filter (· ≠ leaving)).filterMap see' :=
    List.filterMap_congr fun x hx => h x (List.mem_filter.mp hx).1
  simp only [retract, hs]

theorem above_eq_some {parent : Iri} {c : Resource} {m : Membership} :
    above see parent = some (c, m) ↔ see parent = some c ∧ Membership.ofContainer? c = some m := by
  unfold above
  cases see parent with
  | none => simp
  | some c' =>
    simp only [Option.bind_some, Option.map_eq_some_iff, Prod.mk.injEq, Option.some.injEq]
    constructor
    · intro h'
      obtain ⟨m', hm, rfl, rfl⟩ := h'
      exact ⟨rfl, hm⟩
    · intro h'
      obtain ⟨rfl, hm⟩ := h'
      exact ⟨m, hm, rfl, rfl⟩

theorem above_congr {parent : Iri} (h : see parent = see' parent) : above see parent = above see' parent := by
  unfold above
  rw [h]

theorem rejoin_within {parent id : Iri} {current updated : Resource} (hp : G parent)
    (hm : ∀ c m, above see parent = some (c, m) → G m.target ∧ ∀ x ∈ c.children, G x) (hi : G id)
    (hc : current.id = id) (hu : updated.id = id) : (rejoin see parent id current updated).Within G := by
  have hparent : ∀ x ∈ [parent], G x := fun x hx => List.mem_singleton.mp hx ▸ hp
  unfold rejoin
  cases ha : above see parent with
  | none => exact ⟨hparent, by simp⟩
  | some cm =>
    obtain ⟨c, m⟩ := cm
    obtain ⟨ht, hs⟩ := hm c m ha
    have hold : ∀ child : Resource, child.id = id → ∀ t ∈ m.triples child, G t.holder := fun child hcid t hmem => by
      rcases Membership.holder_of_mem_triples hmem with h | h
      · rw [h]; exact ht
      · rw [h, hcid]; exact hi
    dsimp only
    split
    · exact ⟨hparent, by simp⟩
    · have hlost : ∀ t ∈ (m.triples current).filter fun t => ¬ (m.triples updated).contains t, G t.holder :=
        fun t hmem => hold current hc t (List.mem_filter.mp hmem).1
      have hr := retract_within see m id hs hlost
      refine ⟨fun x hx => ?_, fun e he => ?_⟩
      · rcases List.mem_cons.mp hx with rfl | hx
        · exact hp
        · exact hr.1 x hx
      · rcases List.mem_append.mp he with he | he
        · exact hr.2 e he
        · obtain ⟨t, hmem, rfl⟩ := List.mem_map.mp he
          exact hold updated hu t hmem

theorem rejoin_congr {parent id : Iri} {current updated : Resource} (hp : see parent = see' parent)
    (hm : ∀ c m, above see parent = some (c, m) → ∀ x ∈ c.children, see x = see' x) :
    rejoin see parent id current updated = rejoin see' parent id current updated := by
  unfold rejoin
  rw [← above_congr hp]
  cases ha : above see parent with
  | none => rfl
  | some cm =>
    dsimp only
    rw [retract_congr (hm cm.1 cm.2 ha)]

theorem holder_of_mem_contributions {m : Option Membership} {children : List Resource} {t : MemberTriple}
    (h : t ∈ contributions m children) :
    (∃ m' ∈ m, t.holder = m'.target) ∨ ∃ c ∈ children, t.holder = c.id := by
  unfold contributions at h
  cases m with
  | none => cases h
  | some m =>
    obtain ⟨c, hc, ht⟩ := List.mem_flatMap.mp h
    rcases Membership.holder_of_mem_triples ht with ht | ht
    · exact .inl ⟨m, rfl, ht⟩
    · exact .inr ⟨c, hc, ht⟩

theorem reconfigure_within {current updated : Resource}
    (hm : ∀ m, Membership.ofContainer? current = some m ∨ Membership.ofContainer? updated = some m →
      G m.target ∧ ∀ x ∈ current.children, G x)
    (hs : ∀ x c, see x = some c → c.id = x) : (reconfigure see current updated).Within G := by
  unfold reconfigure
  dsimp only
  split
  · exact ⟨by simp, by simp⟩
  · next hne =>
    have hchildren : ∀ x ∈ current.children, G x := by
      cases ho : Membership.ofContainer? current with
      | some m => exact (hm m (.inl ho)).2
      | none =>
        cases hn : Membership.ofContainer? updated with
        | some m => exact (hm m (.inr hn)).2
        | none => exact absurd (ho.trans hn.symm) hne
    have hold : ∀ m : Option Membership, (∀ m' ∈ m, G m'.target) →
        ∀ t ∈ contributions m (current.children.filterMap see), G t.holder := fun m hmem t ht => by
      rcases holder_of_mem_contributions ht with ⟨m', hm', h⟩ | ⟨c, hc, h⟩
      · rw [h]; exact hmem m' hm'
      · obtain ⟨x, hx, hsee⟩ := List.mem_filterMap.mp hc
        rw [h, hs x c hsee]
        exact hchildren x hx
    refine ⟨hchildren, fun e he => ?_⟩
    rcases List.mem_append.mp he with he | he
    · obtain ⟨t, ht, rfl⟩ := List.mem_map.mp he
      exact hold _ (fun m hmem => (hm m (.inl hmem)).1) t ht
    · obtain ⟨t, ht, rfl⟩ := List.mem_map.mp he
      exact hold _ (fun m hmem => (hm m (.inr hmem)).1) t ht

theorem reconfigure_congr (see : Iri → Option Resource) {current updated : Resource}
    (h : Membership.ofContainer? current ≠ Membership.ofContainer? updated →
      ∀ x ∈ current.children, see x = see' x) :
    reconfigure see current updated = reconfigure see' current updated := by
  unfold reconfigure
  by_cases hne : Membership.ofContainer? current = Membership.ofContainer? updated
  · simp only [if_pos hne]
  · simp only [if_neg hne, List.filterMap_congr (h hne)]

theorem leave_within {parent id : Iri} {current : Resource} (hp : G parent)
    (hm : ∀ c m, above see parent = some (c, m) → G m.target ∧ ∀ x ∈ c.children, G x) (hi : G id)
    (hc : current.id = id) : (leave see parent id current).Within G := by
  have hlast : ∀ e ∈ [Edit.drop ⟨parent, Resource.containment parent id⟩], G e.holder := fun e he => by
    rw [List.mem_singleton.mp he]
    exact hp
  unfold leave
  cases ha : above see parent with
  | none => exact ⟨fun x hx => List.mem_singleton.mp hx ▸ hp, hlast⟩
  | some cm =>
    obtain ⟨c, m⟩ := cm
    obtain ⟨ht, hs⟩ := hm c m ha
    have hcur : ∀ t ∈ m.triples current, G t.holder := fun t hmem => by
      rcases Membership.holder_of_mem_triples hmem with h | h
      · rw [h]; exact ht
      · rw [h, hc]; exact hi
    have hr := retract_within see m id hs hcur
    refine ⟨fun x hx => ?_, fun e he => ?_⟩
    · rcases List.mem_cons.mp hx with rfl | hx
      · exact hp
      · exact hr.1 x hx
    · rcases List.mem_append.mp he with he | he
      · exact hr.2 e he
      · exact hlast e he

theorem leave_congr {parent id : Iri} {current : Resource} (hp : see parent = see' parent)
    (hm : ∀ c m, above see parent = some (c, m) → ∀ x ∈ c.children, see x = see' x) :
    leave see parent id current = leave see' parent id current := by
  unfold leave
  rw [← above_congr hp]
  cases ha : above see parent with
  | none => rfl
  | some cm =>
    dsimp only
    rw [retract_congr (hm cm.1 cm.2 ha)]

theorem join_within {parent id : Iri} {container child : Resource} (hp : G parent)
    (hm : ∀ m, Membership.ofContainer? container = some m → G m.target) (hc : G child.id) :
    (join parent container id child).Within G := by
  refine ⟨by simp [join], fun e he => ?_⟩
  rcases List.mem_cons.mp he with rfl | he
  · exact hp
  · obtain ⟨t, ht, rfl⟩ := List.mem_map.mp he
    rcases holder_of_mem_contributions ht with ⟨m, hmem, h⟩ | ⟨c, hmem, h⟩
    · show G t.holder
      rw [h]
      exact hm m hmem
    · show G t.holder
      rw [h, List.mem_singleton.mp hmem]
      exact hc

end Upkeep

/-! ## The operations -/

namespace Mutation

open Transaction Vocabulary

/-- A container as a replacement leaves it, as far as its membership is concerned. -/
def proposed (current : Resource) (userGraph : Graph) : Resource :=
  { current with dataset := current.dataset.set .user userGraph }

theorem ofContainer?_revised (current : Resource) (userGraph : Graph) (agent : Iri) (time : Instant) (b : BlankNode) :
    Membership.ofContainer? (revised current userGraph agent time b) =
      Membership.ofContainer? (proposed current userGraph) :=
  Membership.ofContainer?_congr rfl rfl (userGraph_logged _ _ _ _ _)

/-- `G` holds everything that `op` on `id`, a child of `p`, may read or write. -/
structure Covers (see : Iri → Option Resource) (id p : Iri) (op : Operation) (G : Iri → Prop) : Prop where
  target : G id
  parent : G p
  holder : ∀ {c m}, see p = some c → Membership.ofContainer? c = some m → G m.target
  siblings : op.isCreate = false → ∀ {c m}, see p = some c → Membership.ofContainer? c = some m →
    ∀ x ∈ c.children, G x
  own : ∀ {g e current m}, op = .replace g e → see id = some current →
    Membership.ofContainer? current = some m ∨ Membership.ofContainer? (proposed current g) = some m →
    G m.target ∧ ∀ x ∈ current.children, G x

variable {σ₁ σ₂ : Type} [RecordStore σ₁] [SteadyStore σ₁] [RecordStore σ₂] [SteadyStore σ₂]
variable {G : Iri → Prop} {tx₁ : Transaction σ₁} {tx₂ : Transaction σ₂} {root id p : Iri}

/-- Two runs that answer alike and stay linked. -/
def Alike (G : Iri → Prop) {α : Type} (a : Except Error α × Transaction σ₁)
    (b : Except Error α × Transaction σ₂) : Prop :=
  a.1 = b.1 ∧ Linked G a.2 b.2

end Mutation

namespace Transaction.Linked

variable {σ₁ σ₂ : Type} [RecordStore σ₁] [SteadyStore σ₁] [RecordStore σ₂] [SteadyStore σ₂]
variable {G : Iri → Prop} {tx₁ : Transaction σ₁} {tx₂ : Transaction σ₂}

theorem renew (h : Linked G tx₁ tx₂) {id : Iri} {r : Record} (hid : G id) (hr : G r.id) :
    Linked G (tx₁.renew id r) (tx₂.renew id r) :=
  ((h.touch hid).ask hid).draw.put hr

theorem keepUp (h : Linked G tx₁ tx₂) {u : Upkeep} (hu : u.Within G) : Linked G (tx₁.keepUp u) (tx₂.keepUp u) :=
  (h.touchAll hu.1).edits hu.2

end Transaction.Linked

namespace Mutation

open Transaction Vocabulary

variable {σ₁ σ₂ : Type} [RecordStore σ₁] [SteadyStore σ₁] [RecordStore σ₂] [SteadyStore σ₂]
variable {G : Iri → Prop} {tx₁ : Transaction σ₁} {tx₂ : Transaction σ₂} {root id p : Iri}

theorem linked_applyCreate (hp : Identifier.parent? root id = .ok (some p)) {model : InteractionModel}
    {userGraph : Graph} {binary : Option Binary} (hc : Covers tx₁.lookLive id p (.create model userGraph binary) G)
    (agent : Iri) (h : Linked G tx₁ tx₂) :
    Alike G (eval (applyCreate root id model userGraph binary agent) tx₁)
      (eval (applyCreate root id model userGraph binary agent) tx₂) := by
  have hid := h.lookLive hc.target
  have hpar := h.lookLive hc.parent
  cases hl : tx₁.lookLive id with
  | some x =>
    rw [eval_applyCreate_of_live hl, eval_applyCreate_of_live (hid.symm.trans hl)]
    exact ⟨rfl, h.touch hc.target⟩
  | none =>
    cases hf : (tx₁.lookLive p).filter (·.isContainer) with
    | none =>
      rw [eval_applyCreate_of_not_container hl hp hf,
        eval_applyCreate_of_not_container (hid.symm.trans hl) hp (by rw [← hpar]; exact hf)]
      exact ⟨rfl, (h.touch hc.target).touch hc.parent⟩
    | some container =>
      obtain ⟨hlp, hcont⟩ := Option.filter_eq_some_iff.mp hf
      rw [eval_applyCreate hl hp hlp hcont,
        eval_applyCreate (hid.symm.trans hl) hp (hpar.symm.trans hlp) hcont, ← h.look hc.target, ← h.due hc.target,
        ← h.scopes]
      refine ⟨rfl, ?_⟩
      dsimp only
      have hput := (((h.touch hc.target).touch hc.parent).ask hc.target).draw.put
        (r := .live (born id model userGraph binary (tx₁.look id) agent (tx₁.due id) ⟨tx₁.scopes.next, 0⟩))
        (show G id from hc.target)
      refine hput.keepUp (Upkeep.join_within hc.parent (fun m hm => hc.holder hlp hm) ?_)
      exact hc.target

theorem presence_ok {id : Iri} {r : Option Record} {x : Resource} (h : presence id r = .ok x) :
    r.bind Record.live? = some x := by
  unfold presence at h
  cases r with
  | none => cases h
  | some r =>
    cases hl : r.live? with
    | none => simp [hl] at h
    | some y =>
      simp only [hl, Except.ok.injEq] at h
      rw [← h]
      exact hl

theorem linked_applyReplace (hp : Identifier.parent? root id = .ok (some p)) {userGraph : Graph}
    {expected : Option InteractionModel} (hc : Covers tx₁.lookLive id p (.replace userGraph expected) G) (agent : Iri)
    (h : Linked G tx₁ tx₂) :
    Alike G (eval (applyReplace root id userGraph expected agent) tx₁)
      (eval (applyReplace root id userGraph expected agent) tx₂) := by
  have hlook := h.look hc.target
  cases hpr : presence id (tx₁.look id) with
  | error e =>
    rw [eval_applyReplace_of_absent hpr, eval_applyReplace_of_absent (hlook ▸ hpr)]
    exact ⟨rfl, h.touch hc.target⟩
  | ok current =>
    by_cases he : ∀ m ∈ expected, current.model = m
    · rw [eval_applyReplace hpr hp he, eval_applyReplace (hlook ▸ hpr) hp he, ← h.due hc.target, ← h.scopes]
      refine ⟨rfl, ?_⟩
      have hcur : tx₁.lookLive id = some current := presence_ok hpr
      have hcid : current.id = id := h.tidy.id_eq hcur
      generalize hx : revised current userGraph agent (tx₁.due id) ⟨tx₁.scopes.next, 0⟩ = x
      have hxid : x.id = id := by rw [← hx]; exact hcid
      have hb := h.renew (r := .live x) hc.target (by rw [Record.id_live, hxid]; exact hc.target)
      have habove : ∀ c m, Upkeep.above (tx₁.renew id (.live x)).lookLive p = some (c, m) →
          tx₁.lookLive p = some c ∧ Membership.ofContainer? c = some m := fun c m ha => by
        obtain ⟨hsee, hm⟩ := Upkeep.above_eq_some.mp ha
        refine ⟨?_, hm⟩
        rw [← hsee]
        unfold Transaction.lookLive
        rw [look_renew, Record.id_live, hxid, if_neg (Ne.symm (Identifier.parent?_ne hp))]
      have hr := hb.keepUp (Upkeep.rejoin_within hc.parent
        (fun c m ha => ⟨hc.holder (habove c m ha).1 (habove c m ha).2,
          hc.siblings rfl (habove c m ha).1 (habove c m ha).2⟩) hc.target hcid hxid)
      have hown : ∀ m, Membership.ofContainer? current = some m ∨ Membership.ofContainer? x = some m →
          G m.target ∧ ∀ y ∈ current.children, G y := fun m hm => by
        rw [← hx, ofContainer?_revised] at hm
        exact hc.own rfl hcur hm
      have hk := hr.keepUp (Upkeep.reconfigure_within hown fun y c => hr.tidy.id_eq)
      dsimp only
      rw [← Upkeep.rejoin_congr (hb.lookLive hc.parent)
        fun c m ha y hy => hb.lookLive (hc.siblings rfl (habove c m ha).1 (habove c m ha).2 y hy)]
      rw [← Upkeep.reconfigure_congr (Transaction.keepUp _ _).lookLive fun hne y hy => hr.lookLive ?_]
      · exact hk
      · cases ho : Membership.ofContainer? current with
        | some m => exact (hown m (.inl ho)).2 y hy
        | none =>
          cases hn : Membership.ofContainer? x with
          | some m => exact (hown m (.inr hn)).2 y hy
          | none => exact absurd (ho.trans hn.symm) hne
    · simp only [not_forall] at he
      obtain ⟨m, rfl, hm⟩ := he
      rw [eval_applyReplace_of_outdated hpr hm, eval_applyReplace_of_outdated (hlook ▸ hpr) hm]
      exact ⟨rfl, h.touch hc.target⟩

theorem linked_applyDelete (hp : Identifier.parent? root id = .ok (some p)) (hc : Covers tx₁.lookLive id p .delete G)
    (agent : Iri) (h : Linked G tx₁ tx₂) :
    Alike G (eval (applyDelete root id agent) tx₁) (eval (applyDelete root id agent) tx₂) := by
  have hlook := h.look hc.target
  cases hpr : presence id (tx₁.look id) with
  | error e =>
    rw [eval_applyDelete_of_absent hpr, eval_applyDelete_of_absent (hlook ▸ hpr)]
    exact ⟨rfl, h.touch hc.target⟩
  | ok current =>
    rw [eval_applyDelete hpr hp, eval_applyDelete (hlook ▸ hpr) hp, ← h.due hc.target, ← h.scopes]
    refine ⟨rfl, ?_⟩
    have hcur : tx₁.lookLive id = some current := presence_ok hpr
    have hcid : current.id = id := h.tidy.id_eq hcur
    have habove : ∀ c m, Upkeep.above tx₁.lookLive p = some (c, m) → G m.target ∧ ∀ x ∈ c.children, G x :=
      fun c m ha => by
        obtain ⟨hsee, hm⟩ := Upkeep.above_eq_some.mp ha
        exact ⟨hc.holder hsee hm, hc.siblings rfl hsee hm⟩
    have hl := (h.touch hc.target).keepUp (Upkeep.leave_within hc.parent habove hc.target hcid)
    dsimp only
    rw [← Upkeep.leave_congr (h.lookLive hc.parent) fun c m ha y hy => h.lookLive ((habove c m ha).2 y hy),
      ← hl.lookLive hc.target]
    refine hl.renew hc.target ?_
    show G (Resource.id (Option.getD _ _))
    cases hd : (((tx₁.touch id).keepUp (Upkeep.leave tx₁.lookLive p id current)).lookLive id) with
    | none => exact hcid ▸ hc.target
    | some d =>
      have hdid : d.id = id := hl.tidy.id_eq hd
      exact hdid ▸ hc.target

/-- A mutation stays within its plan, and ends alike on stores that agree on the plan. -/
theorem linked_apply (hp : Identifier.parent? root id = .ok (some p)) {op : Operation}
    (hc : Covers tx₁.lookLive id p op G) (agent : Iri) (h : Linked G tx₁ tx₂) :
    Alike G (eval (apply root id agent op) tx₁) (eval (apply root id agent op) tx₂) := by
  cases op with
  | create model userGraph binary => exact linked_applyCreate hp hc agent h
  | replace userGraph expected => exact linked_applyReplace hp hc agent h
  | delete => exact linked_applyDelete hp hc agent h

end Mutation

end LinkedData
