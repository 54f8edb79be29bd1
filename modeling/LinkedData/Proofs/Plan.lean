/-
  LinkedData.Proofs.Plan — the identifiers that a mutation locks.

  On a steady store the plan is a function of two records, the target's and the one above it
  (`affected_eq`, `planned_congr`), and it covers whatever the mutation may touch
  (`covers_planned`).
-/

import LinkedData.Proofs.Footprint

namespace LinkedData

open Std SteadyStore

namespace Mutation

/-- What a mutation may touch on the side of the parent. -/
def plannedAbove (see : Iri → Option Resource) (p : Iri) (op : Operation) : List Iri :=
  match see p with
  | none => [p]
  | some container =>
    match Membership.ofContainer? container with
    | none => [p]
    | some m => p :: m.target :: if op.isCreate then [] else container.children

/-- The memberships that a replacement of `current` is about. -/
def disputed (current : Resource) (userGraph : Graph) : List Membership :=
  [Membership.ofContainer? current, Membership.ofContainer? (proposed current userGraph)].filterMap fun m => m

/-- What a mutation may touch on the side of the children. -/
def plannedBelow (see : Iri → Option Resource) (id : Iri) : Operation → List Iri
  | .replace userGraph _ =>
    match see id with
    | none => []
    | some current =>
      (disputed current userGraph).map (·.target) ++ if disputed current userGraph = [] then [] else current.children
  | .create .. | .delete => []

/-- The plan of `op` on `id`, a child of `p`, by what is live. -/
def planned (see : Iri → Option Resource) (p id : Iri) (op : Operation) : List Iri :=
  id :: plannedAbove see p op ++ plannedBelow see id op

theorem planned_congr {see see' : Iri → Option Resource} {p id : Iri} (hp : see p = see' p) (hid : see id = see' id)
    (op : Operation) : planned see p id op = planned see' p id op := by
  unfold planned plannedAbove plannedBelow
  rw [hp, hid]

theorem mem_disputed {current : Resource} {userGraph : Graph} {m : Membership} :
    m ∈ disputed current userGraph ↔
      Membership.ofContainer? current = some m ∨ Membership.ofContainer? (proposed current userGraph) = some m := by
  simp [disputed, eq_comm]

theorem target_mem_plannedAbove {see : Iri → Option Resource} {p : Iri} {op : Operation} {c : Resource}
    {m : Membership} (hc : see p = some c) (hm : Membership.ofContainer? c = some m) :
    m.target ∈ plannedAbove see p op := by
  simp [plannedAbove, hc, hm]

theorem child_mem_plannedAbove {see : Iri → Option Resource} {p : Iri} {op : Operation} {c : Resource}
    {m : Membership} (hop : op.isCreate = false) (hc : see p = some c) (hm : Membership.ofContainer? c = some m)
    {x : Iri} (hx : x ∈ c.children) : x ∈ plannedAbove see p op := by
  simp [plannedAbove, hc, hm, hop, hx]

theorem parent_mem_plannedAbove (see : Iri → Option Resource) (p : Iri) (op : Operation) :
    p ∈ plannedAbove see p op := by
  unfold plannedAbove
  split
  · simp
  · split <;> simp

/-- Everything that a mutation may touch is in its plan. -/
theorem covers_planned (see : Iri → Option Resource) (id p : Iri) (op : Operation) :
    Covers see id p op (· ∈ planned see p id op) where
  target := List.mem_append_left _ List.mem_cons_self
  parent := List.mem_append_left _ (List.mem_cons_of_mem _ (parent_mem_plannedAbove see p op))
  holder hc hm := List.mem_append_left _ (List.mem_cons_of_mem _ (target_mem_plannedAbove hc hm))
  siblings hop _ _ hc hm _ hx :=
    List.mem_append_left _ (List.mem_cons_of_mem _ (child_mem_plannedAbove hop hc hm hx))
  own {g e current m} hop hsee hm := by
    subst hop
    have hmem : m ∈ disputed current g := mem_disputed.mpr hm
    have hne : disputed current g ≠ [] := List.ne_nil_of_mem hmem
    have hbelow : plannedBelow see id (.replace g e) =
        (disputed current g).map (·.target) ++ current.children := by
      simp only [plannedBelow, hsee, if_neg hne]
    refine ⟨List.mem_append_right _ ?_, fun x hx => List.mem_append_right _ ?_⟩
    · rw [hbelow]
      exact List.mem_append_left _ (List.mem_map_of_mem hmem)
    · rw [hbelow]
      exact List.mem_append_right _ hx

end Mutation

namespace Repository

variable {σ : Type} [RecordStore σ] [SteadyStore σ]

theorem record_eq (r : Repository σ) (id : Iri) : r.record id = .ok (find r.store id) := by
  rw [record, get_eq]
  rfl

theorem get_eq_findLive (r : Repository σ) (id : Iri) : r.get id = .ok (findLive r.store id) := by
  unfold get
  rw [record_eq]
  rfl

theorem require_eq (r : Repository σ) (id : Iri) : r.require id = Mutation.presence id (find r.store id) := by
  unfold require Mutation.presence
  rw [record_eq]
  dsimp only [bind, Except.bind]
  cases find r.store id with
  | none => rfl
  | some x =>
    dsimp only
    cases x.live? <;> rfl

theorem affected_eq (r : Repository σ) {id p : Iri} (hp : Identifier.parent? r.root id = .ok (some p))
    (op : Operation) :
    r.affected id op = .ok (Mutation.planned (findLive r.store) p id op) := by
  have hparent : Mutation.parentOf r.root id = .ok (some p) := by
    rw [Mutation.parentOf, hp]
    rfl
  unfold affected Mutation.planned Mutation.plannedAbove Mutation.plannedBelow
  simp only [hparent, get_eq_findLive, bind, Except.bind, pure, Except.pure]
  cases findLive r.store p with
  | none =>
    cases op with
    | replace g e => cases findLive r.store id <;> rfl
    | create _ _ _ => rfl
    | delete => rfl
  | some c =>
    cases hm : Membership.ofContainer? c with
    | none =>
      simp only [hm]
      cases op with
      | replace g e => cases findLive r.store id <;> rfl
      | create _ _ _ => rfl
      | delete => rfl
    | some m =>
      simp only [hm]
      cases op with
      | replace g e => cases findLive r.store id <;> rfl
      | create _ _ _ => rfl
      | delete => rfl

end Repository

end LinkedData
