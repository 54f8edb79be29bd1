/-
  LinkedData.Proofs.Instants — times are in one order.

  Instants are compared by their seconds and then by what is left, in every way in which they are
  compared. Times that ascend are all different, two ascending lists of the same times are one list, and
  a memento store selects the last of those that are not too late (`Memento.select_eq`), which is the
  greatest of them (`Memento.last_cases`).
-/

import LinkedData.Memento
import Mathlib.Data.List.Perm.Basic

namespace LinkedData

open Std

namespace Instant

variable {a b c : Instant}

theorem le_refl (a : Instant) : a ≤ a := .inr ⟨rfl, Nat.le_refl _⟩

theorem le_trans (hab : a ≤ b) (hbc : b ≤ c) : a ≤ c := by
  rw [le_def] at *
  omega

theorem le_total (a b : Instant) : a ≤ b ∨ b ≤ a := by
  rw [le_def, le_def]
  omega

theorem le_antisymm (hab : a ≤ b) (hba : b ≤ a) : a = b := by
  rw [le_def] at hab hba
  have hsecond : a.second = b.second := by omega
  have hnano : a.nano = b.nano := by omega
  cases a
  cases b
  simp_all

theorem lt_of_not_le (h : ¬ a ≤ b) : b < a := by
  rw [le_def] at h
  rw [lt_def]
  omega

theorem lt_of_le_of_ne (hab : a ≤ b) (hne : a ≠ b) : a < b :=
  lt_of_not_le fun hba => hne (le_antisymm hab hba)

theorem le_of_lt (hab : a < b) : a ≤ b := by
  rw [lt_def] at hab
  rw [le_def]
  omega

theorem lt_of_le_of_lt (hab : a ≤ b) (hbc : b < c) : a < c := by
  rw [le_def] at hab
  rw [lt_def] at *
  omega

theorem lt_trans (hab : a < b) (hbc : b < c) : a < c := lt_of_le_of_lt (le_of_lt hab) hbc

theorem lt_asymm (hab : a < b) : ¬ b < a := by
  rw [lt_def] at *
  omega

theorem compare_eq_lt : compare a b = .lt ↔ a < b := by
  show (compare a.second b.second).then (compare a.nano b.nano) = .lt ↔ _
  rw [Ordering.then_eq_lt, Int.compare_eq_lt, LawfulEqCmp.compare_eq_iff_eq, Nat.compare_eq_lt, lt_def]

/-! ## Ascending times -/

theorem nodup_of_ascending {ts : List Instant} (h : ts.Pairwise (· < ·)) : ts.Nodup := by
  refine List.Pairwise.imp (fun {a b} hab => ?_) h
  rintro rfl
  exact lt_asymm hab hab

theorem ascending_mergeSort {ts : List Instant} (h : ts.Nodup) :
    (ts.mergeSort fun a b => decide (a ≤ b)).Pairwise (· < ·) := by
  have hsorted : (ts.mergeSort fun a b => decide (a ≤ b)).Pairwise fun a b => decide (a ≤ b) = true := by
    refine List.pairwise_mergeSort (fun a b c hab hbc => ?_) (fun a b => ?_) ts
    · rw [decide_eq_true_eq] at *
      exact le_trans hab hbc
    · rw [Bool.or_eq_true, decide_eq_true_eq, decide_eq_true_eq]
      exact le_total a b
  have hdistinct : (ts.mergeSort fun a b => decide (a ≤ b)).Pairwise (· ≠ ·) :=
    (List.mergeSort_perm ts _).nodup_iff.mpr h
  exact (hsorted.and hdistinct).imp fun {a b} hab => lt_of_le_of_ne (of_decide_eq_true hab.1) hab.2

/-- Two ascending lists of the same times are one. -/
theorem ascending_unique {ts us : List Instant} (ht : ts.Pairwise (· < ·)) (hu : us.Pairwise (· < ·))
    (h : ∀ t, t ∈ ts ↔ t ∈ us) : ts = us := by
  have hperm : ts.Perm us := (List.perm_ext_iff_of_nodup (nodup_of_ascending ht) (nodup_of_ascending hu)).mpr h
  exact hperm.eq_of_pairwise (fun a b _ _ hab hba => absurd hba (lt_asymm hab)) ht hu

end Instant

namespace Memento

/-- Of ascending times, those until `t` come first. -/
theorem takeWhile_le {times : List Instant} (h : times.Pairwise (· < ·)) (t : Instant) :
    times.takeWhile (· ≤ t) = times.filter (· ≤ t) := by
  induction times with
  | nil => rfl
  | cons a rest ih =>
    obtain ⟨hfirst, hrest⟩ := List.pairwise_cons.mp h
    by_cases ha : a ≤ t
    · rw [List.takeWhile_cons_of_pos (by simpa using ha), List.filter_cons_of_pos (by simpa using ha), ih hrest]
    · rw [List.takeWhile_cons_of_neg (by simpa using ha), List.filter_cons_of_neg (by simpa using ha), eq_comm,
        List.filter_eq_nil_iff]
      intro b hb hbt
      exact ha (Instant.le_trans (Instant.le_of_lt (hfirst b hb)) (of_decide_eq_true hbt))

theorem select_eq {times : List Instant} (h : times.Pairwise (· < ·)) (t : Instant) :
    select times t = (times.filter (· ≤ t)).getLast? := by
  rw [select, takeWhile_le h]

/-- The last of ascending times until `t` is the greatest of them, if there is one. -/
theorem last_cases {times : List Instant} (h : times.Pairwise (· < ·)) (t : Instant) :
    ((times.filter (· ≤ t)).getLast? = none ∧ ∀ u ∈ times, ¬ u ≤ t) ∨
      ∃ u, (times.filter (· ≤ t)).getLast? = some u ∧ u ∈ times ∧ u ≤ t ∧
        ∀ v ∈ times, v ≤ t → v ≤ u := by
  cases hlast : (times.filter (· ≤ t)).getLast? with
  | none =>
    rw [List.getLast?_eq_none_iff, List.filter_eq_nil_iff] at hlast
    exact .inl ⟨rfl, fun u hu hle => hlast u hu (decide_eq_true hle)⟩
  | some u =>
    obtain ⟨hu, hle⟩ := List.mem_filter.mp (List.mem_of_getLast? hlast)
    refine .inr ⟨u, rfl, hu, of_decide_eq_true hle, fun v hv hvt => ?_⟩
    obtain ⟨earlier, hsplit⟩ := List.getLast?_eq_some_iff.mp hlast
    have hin : v ∈ earlier ++ [u] := by
      rw [← hsplit]
      exact List.mem_filter.mpr ⟨hv, decide_eq_true hvt⟩
    have hascending : (earlier ++ [u]).Pairwise (· < ·) := by
      rw [← hsplit]
      exact h.filter _
    rcases List.mem_append.mp hin with hearlier | hsame
    · exact Instant.le_of_lt ((List.pairwise_append.mp hascending).2.2 v hearlier u List.mem_cons_self)
    · obtain rfl := List.mem_singleton.mp hsame
      exact Instant.le_refl v

end Memento

end LinkedData
