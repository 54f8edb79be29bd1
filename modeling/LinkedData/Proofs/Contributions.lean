/-
  LinkedData.Proofs.Contributions — which triples an upkeep drops and adds.

  The edits of every upkeep are drops followed by additions. `join_edits`, `rejoin_edits`,
  `reconfigure_edits` and `leave_edits` say which triples are among them, in terms of what
  children supply (`Supplied`): a child that goes, or changes, takes along what no sibling
  supplies; a container that changes its membership takes back all that its children supplied
  to the old one and gives all that they supply to the new one.
-/

import LinkedData.Proofs.Upkeep

namespace LinkedData

open Std

/-- Some live one of `ids` supplies `q` to `m`. -/
def Supplied (see : Iri → Option Resource) (m : Membership) (ids : List Iri) (q : MemberTriple) : Prop :=
  ∃ x ∈ ids, ∃ c, see x = some c ∧ q ∈ m.triples c

theorem mem_flatMap_triples {see : Iri → Option Resource} {m : Membership} {ids : List Iri} {q : MemberTriple} :
    q ∈ (ids.filterMap see).flatMap m.triples ↔ Supplied see m ids q := by
  simp only [List.mem_flatMap, List.mem_filterMap, Supplied]
  constructor
  · intro h'
    obtain ⟨c, ⟨x, hx, hc⟩, hq⟩ := h'
    exact ⟨x, hx, c, hc, hq⟩
  · intro h'
    obtain ⟨x, hx, c, hc, hq⟩ := h'
    exact ⟨c, ⟨x, hx, hc⟩, hq⟩

namespace Upkeep

variable {see : Iri → Option Resource}

theorem mem_contributions {m : Option Membership} {ids : List Iri} {q : MemberTriple} :
    q ∈ contributions m (ids.filterMap see) ↔ ∃ m' ∈ m, Supplied see m' ids q := by
  cases m with
  | none => simp [contributions]
  | some m => simp [contributions, ← mem_flatMap_triples]

theorem retract_edits (see : Iri → Option Resource) (m : Membership) (container : Resource) (leaving : Iri)
    (ts : List MemberTriple) :
    ∃ ds : List MemberTriple, (retract see m container leaving ts).edits = ds.map .drop ∧
      ∀ q, q ∈ ds ↔ q ∈ ts ∧ ¬ Supplied see m (container.children.filter (· ≠ leaving)) q := by
  unfold retract
  by_cases h : ts = []
  · rw [if_pos h]
    exact ⟨[], rfl, fun q => by simp [h]⟩
  · rw [if_neg h]
    refine ⟨_, rfl, fun q => ?_⟩
    rw [← mem_flatMap_triples]
    simp only [List.mem_filter, List.contains_iff_mem, decide_eq_true_eq]

/-- The triples that `current` alone contributes to the membership of its container. -/
def Parts (see : Iri → Option Resource) (p id : Iri) (current : Resource) (q : MemberTriple) : Prop :=
  ∃ c m, above see p = some (c, m) ∧ q ∈ m.triples current ∧ ¬ Supplied see m (c.children.filter (· ≠ id)) q

theorem leave_edits (see : Iri → Option Resource) (p id : Iri) (current : Resource) :
    ∃ ds : List MemberTriple, (leave see p id current).edits = ds.map .drop ∧
      ∀ q, q ∈ ds ↔ q = ⟨p, Resource.containment p id⟩ ∨ Parts see p id current q := by
  unfold leave Parts
  cases ha : above see p with
  | none => exact ⟨[⟨p, Resource.containment p id⟩], rfl, fun q => by simp⟩
  | some cm =>
    obtain ⟨c, m⟩ := cm
    obtain ⟨ds, hds, hmem⟩ := retract_edits see m c id (m.triples current)
    refine ⟨ds ++ [⟨p, Resource.containment p id⟩], ?_, fun q => ?_⟩
    · dsimp only
      rw [hds, List.map_append]
      rfl
    · rw [List.mem_append, List.mem_singleton, hmem, or_comm]
      constructor
      · exact Or.imp_right fun h => ⟨c, m, rfl, h⟩
      · refine Or.imp_right ?_
        intro h'
        obtain ⟨c', m', he, h⟩ := h'
        cases he
        exact h

theorem join_edits (p : Iri) (container : Resource) (id : Iri) (child : Resource) :
    ∃ as : List MemberTriple, (join p container id child).edits = as.map .add ∧
      ∀ q, q ∈ as ↔ q = ⟨p, Resource.containment p id⟩ ∨
        ∃ m, Membership.ofContainer? container = some m ∧ q ∈ m.triples child := by
  refine ⟨⟨p, Resource.containment p id⟩ :: contributions (Membership.ofContainer? container) [child], rfl,
    fun q => ?_⟩
  rw [List.mem_cons]
  cases Membership.ofContainer? container <;> simp [contributions]

theorem rejoin_edits (see : Iri → Option Resource) (p id : Iri) (current updated : Resource) :
    ∃ ds as : List MemberTriple, (rejoin see p id current updated).edits = ds.map .drop ++ as.map .add ∧
      (∀ q, q ∈ ds ↔ ∃ c m, above see p = some (c, m) ∧ m.triples current ≠ m.triples updated ∧
        q ∈ m.triples current ∧ q ∉ m.triples updated ∧ ¬ Supplied see m (c.children.filter (· ≠ id)) q) ∧
      ∀ q, q ∈ as ↔ ∃ c m, above see p = some (c, m) ∧ m.triples current ≠ m.triples updated ∧
        q ∈ m.triples updated := by
  unfold rejoin
  cases ha : above see p with
  | none => exact ⟨[], [], rfl, fun q => by simp, fun q => by simp⟩
  | some cm =>
    obtain ⟨c, m⟩ := cm
    dsimp only
    by_cases h : m.triples current = m.triples updated
    · rw [if_pos h]
      refine ⟨[], [], rfl, fun q => ?_, fun q => ?_⟩
      · simp only [List.not_mem_nil, false_iff]
        intro h'
        obtain ⟨c', m', he, hne, -⟩ := h'
        cases he
        exact hne h
      · simp only [List.not_mem_nil, false_iff]
        intro h'
        obtain ⟨c', m', he, hne, -⟩ := h'
        cases he
        exact hne h
    · rw [if_neg h]
      obtain ⟨ds, hds, hmem⟩ := retract_edits see m c id
        ((m.triples current).filter fun t => ¬ (m.triples updated).contains t)
      refine ⟨ds, m.triples updated, by dsimp only; rw [hds], fun q => ?_, fun q => ?_⟩
      · rw [hmem, List.mem_filter]
        simp only [List.contains_iff_mem, decide_eq_true_eq, and_assoc]
        constructor
        · exact fun hq => ⟨c, m, rfl, h, hq⟩
        · intro h'
          obtain ⟨c', m', he, -, hq⟩ := h'
          cases he
          exact hq
      · constructor
        · exact fun hq => ⟨c, m, rfl, h, hq⟩
        · intro h'
          obtain ⟨c', m', he, -, hq⟩ := h'
          cases he
          exact hq

theorem reconfigure_edits (see : Iri → Option Resource) (current updated : Resource) :
    ∃ ds as : List MemberTriple, (reconfigure see current updated).edits = ds.map .drop ++ as.map .add ∧
      (∀ q, q ∈ ds ↔ Membership.ofContainer? current ≠ Membership.ofContainer? updated ∧
        ∃ m, Membership.ofContainer? current = some m ∧ Supplied see m current.children q) ∧
      ∀ q, q ∈ as ↔ Membership.ofContainer? current ≠ Membership.ofContainer? updated ∧
        ∃ m, Membership.ofContainer? updated = some m ∧ Supplied see m current.children q := by
  unfold reconfigure
  dsimp only
  by_cases h : Membership.ofContainer? current = Membership.ofContainer? updated
  · rw [if_pos h]
    exact ⟨[], [], rfl, fun q => by simp [h], fun q => by simp [h]⟩
  · rw [if_neg h]
    refine ⟨_, _, rfl, fun q => ?_, fun q => ?_⟩
    · rw [mem_contributions]
      exact ⟨fun hq => ⟨h, hq⟩, And.right⟩
    · rw [mem_contributions]
      exact ⟨fun hq => ⟨h, hq⟩, And.right⟩

end Upkeep

end LinkedData
