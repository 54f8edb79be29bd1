/-
  LinkedData.Proofs.Guards — what is held is what the guards cover.

  A guard that is granted covers what was asked for, none of it was held before, and all of it is
  held then (`of_claim?`); without a guard, something that was asked for is held (`of_claim?_eq_none`).
  So as long as guards are only granted and given back, the locks are the disjoint union of the guards
  (`Guarded`), whoever has them.
-/

import LinkedData.Locks
import Mathlib.Logic.Function.Basic

namespace LinkedData

open Std

theorem Guard.covers_iff_mem {g : Guard} {x : Iri} : g.covers x = true ↔ x ∈ g.ids := ExtTreeSet.contains_iff_mem

theorem Guard.coversAll_iff {g : Guard} {ids : List Iri} :
    g.coversAll ids = true ↔ ∀ x ∈ ids, g.covers x = true :=
  List.all_eq_true

namespace Locks

theorem mem_foldl_insert (s : IriSet) (ids : List Iri) (x : Iri) :
    x ∈ ids.foldl ExtTreeSet.insert s ↔ x ∈ s ∨ x ∈ ids := by
  induction ids generalizing s with
  | nil => simp
  | cons a ids ih =>
    rw [List.foldl_cons, ih, ExtTreeSet.mem_insert, LawfulEqCmp.compare_eq_iff_eq, List.mem_cons, eq_comm]
    simp only [or_assoc, or_left_comm]

theorem mem_foldl_erase (s : IriSet) (ids : List Iri) (x : Iri) :
    x ∈ ids.foldl ExtTreeSet.erase s ↔ x ∈ s ∧ x ∉ ids := by
  induction ids generalizing s with
  | nil => simp
  | cons a ids ih =>
    rw [List.foldl_cons, ih, ExtTreeSet.mem_erase, ne_eq, LawfulEqCmp.compare_eq_iff_eq, List.mem_cons, eq_comm, not_or]
    simp only [and_assoc, and_left_comm]

theorem isFree_iff {l : Locks} {ids : List Iri} :
    l.isFree (ExtTreeSet.ofList ids compare) = true ↔ ∀ x ∈ ids, x ∉ l.held := by
  rw [isFree, List.all_eq_true]
  constructor
  · intro h x hx hheld
    have hfree := h x (ExtTreeSet.mem_toList.mpr (ExtTreeSet.mem_ofList.mpr (by simpa using hx)))
    rw [ExtTreeSet.contains_iff_mem.mpr hheld] at hfree
    cases hfree
  · intro h x hx
    have hmem : x ∈ ids := by simpa using ExtTreeSet.mem_ofList.mp (ExtTreeSet.mem_toList.mp hx)
    rw [Bool.not_eq_true', Bool.eq_false_iff]
    exact fun hheld => h x hmem (ExtTreeSet.contains_iff_mem.mp hheld)

/-- What was claimed was free, and is held. -/
theorem of_claim? {l l' : Locks} {ids : List Iri} {g : Guard} (h : l.claim? ids = some (g, l')) :
    (∀ x, g.covers x = true ↔ x ∈ ids) ∧ (∀ x, g.covers x = true → x ∉ l.held) ∧
      ∀ x, x ∈ l'.held ↔ x ∈ l.held ∨ g.covers x = true := by
  unfold claim? at h
  dsimp only at h
  split at h
  · next hfree =>
    cases h
    have hcovers : ∀ x, (Guard.mk (ExtTreeSet.ofList ids compare)).covers x = true ↔ x ∈ ids := fun x => by
      rw [Guard.covers_iff_mem, ExtTreeSet.mem_ofList]
      simp
    refine ⟨hcovers, fun x hx => isFree_iff.mp hfree x ((hcovers x).mp hx), fun x => ?_⟩
    rw [mem_foldl_insert, ExtTreeSet.mem_toList, Guard.covers_iff_mem]
  · cases h

theorem claim?_of_isFree {l : Locks} {ids : List Iri} (h : l.isFree (ExtTreeSet.ofList ids compare) = true) :
    l.claim? ids = some (⟨ExtTreeSet.ofList ids compare⟩,
      ⟨(ExtTreeSet.ofList ids compare).toList.foldl ExtTreeSet.insert l.held⟩) := by
  unfold claim?
  rw [if_pos h]

/-- A claim that is not granted meets a lock that is held. -/
theorem of_claim?_eq_none {l : Locks} {ids : List Iri} (h : l.claim? ids = Option.none) :
    ∃ x ∈ ids, x ∈ l.held := by
  by_contra hnone
  have hfree : ∀ x ∈ ids, x ∉ l.held := fun x hx hheld => hnone ⟨x, hx, hheld⟩
  rw [claim?_of_isFree (isFree_iff.mpr hfree)] at h
  cases h

theorem mem_release {l : Locks} {g : Guard} {x : Iri} :
    x ∈ (l.release g).held ↔ x ∈ l.held ∧ ¬ g.covers x = true := by
  unfold release
  rw [mem_foldl_erase, ExtTreeSet.mem_toList, Guard.covers_iff_mem]

/-! ## Guards that are given out -/

/-- The locks are those of the guards, and no two guards share any. -/
structure Guarded {κ : Type} (l : Locks) (guards : κ → Option Guard) : Prop where
  held : ∀ x, x ∈ l.held ↔ ∃ k g, guards k = some g ∧ g.covers x = true
  apart : ∀ {k k' g g' x}, guards k = some g → guards k' = some g' →
    g.covers x = true → g'.covers x = true → k = k'

namespace Guarded

variable {κ : Type} {l l' : Locks} {guards : κ → Option Guard} {k : κ} {g : Guard}

theorem none : Guarded Locks.none fun _ : κ => Option.none where
  held x := by simp [Locks.none]
  apart h := by cases h

variable [DecidableEq κ]

theorem claim (h : Guarded l guards) (hk : guards k = Option.none) {ids : List Iri}
    (hc : l.claim? ids = some (g, l')) : Guarded l' (Function.update guards k (some g)) := by
  obtain ⟨-, hfree, hheld⟩ := of_claim? hc
  have hcases : ∀ {j e}, Function.update guards k (some g) j = some e →
      j = k ∧ e = g ∨ j ≠ k ∧ guards j = some e := by
    intro j e hj
    by_cases he : j = k
    · rw [he, Function.update_self] at hj
      exact .inl ⟨he, (Option.some.inj hj).symm⟩
    · rw [Function.update_of_ne he] at hj
      exact .inr ⟨he, hj⟩
  have hnew : ∀ {j e x}, guards j = some e → e.covers x = true → ¬ g.covers x = true :=
    fun hj hx hgx => hfree _ hgx ((h.held _).mpr ⟨_, _, hj, hx⟩)
  refine ⟨fun x => ?_, fun {j j' e e' x} hj hj' hx hx' => ?_⟩
  · rw [hheld, h.held]
    constructor
    · rintro (⟨j, e, hj, hx⟩ | hx)
      · refine ⟨j, e, ?_, hx⟩
        rwa [Function.update_of_ne]
        rintro rfl
        rw [hk] at hj
        cases hj
      · exact ⟨k, g, Function.update_self .., hx⟩
    · rintro ⟨j, e, hj, hx⟩
      rcases hcases hj with ⟨-, rfl⟩ | ⟨-, hj⟩
      · exact .inr hx
      · exact .inl ⟨j, e, hj, hx⟩
  · rcases hcases hj with ⟨rfl, rfl⟩ | ⟨-, hold⟩ <;> rcases hcases hj' with ⟨rfl, rfl⟩ | ⟨-, hold'⟩
    · rfl
    · exact absurd hx (hnew hold' hx')
    · exact absurd hx' (hnew hold hx)
    · exact h.apart hold hold' hx hx'

theorem release (h : Guarded l guards) (hk : guards k = some g) :
    Guarded (l.release g) (Function.update guards k Option.none) := by
  have hof : ∀ {j e}, Function.update guards k Option.none j = some e → j ≠ k ∧ guards j = some e := by
    intro j e hj
    by_cases he : j = k
    · rw [he, Function.update_self] at hj
      cases hj
    · rw [Function.update_of_ne he] at hj
      exact ⟨he, hj⟩
  refine ⟨fun x => ?_, fun {j j' e e' x} hj hj' => h.apart (hof hj).2 (hof hj').2⟩
  rw [mem_release, h.held]
  constructor
  · rintro ⟨⟨j, e, hj, hx⟩, hnot⟩
    refine ⟨j, e, ?_, hx⟩
    rwa [Function.update_of_ne]
    rintro rfl
    rw [hk] at hj
    cases hj
    exact hnot hx
  · rintro ⟨j, e, hj, hx⟩
    obtain ⟨hne, hj⟩ := hof hj
    exact ⟨⟨j, e, hj, hx⟩, fun hgx => hne (h.apart hj hk hx hgx)⟩

end Guarded

end Locks

end LinkedData
