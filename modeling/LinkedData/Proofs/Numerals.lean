/-
  LinkedData.Proofs.Numerals — runs of digits, written and read back.

  Three writers of numbers: of a fixed width, padded to a least width, and padded with a sign. What
  each writes is digits, after a minus sign or not, and has the value of its number. A reader that
  takes digits as long as they come stops where a run ends.
-/

import LinkedData.Text.Blank
import LinkedData.Text.Digits
import Mathlib.Data.Nat.Digits.Defs

namespace LinkedData.Text

/-- Nothing of it is a digit's continuation: it is empty or starts with something else. -/
def Breaks (cs : List Char) : Prop := ∀ c ∈ cs.head?, c.isDigit = false

theorem breaks_cons {c : Char} (h : c.isDigit = false) (cs : List Char) : Breaks (c :: cs) := by
  intro d hd
  cases hd
  exact h

theorem takeWhile_isDigit {ds rest : List Char} (h : ∀ c ∈ ds, c.isDigit = true) (hr : Breaks rest) :
    (ds ++ rest).takeWhile Char.isDigit = ds := by
  rw [List.takeWhile_append_of_pos h]
  cases rest with
  | nil => simp
  | cons c cs => simp [hr c rfl]

theorem dropWhile_isDigit {ds rest : List Char} (h : ∀ c ∈ ds, c.isDigit = true) (hr : Breaks rest) :
    (ds ++ rest).dropWhile Char.isDigit = rest := by
  rw [List.dropWhile_append_of_pos h]
  cases rest with
  | nil => simp
  | cons c cs => simp [hr c rfl]

theorem isBlank_of_isDigit {c : Char} (h : c.isDigit = true) : isBlank c = false := by
  have hrange : 48 ≤ c.toNat ∧ c.toNat ≤ 57 := by simpa [Char.isDigit, UInt32.le_iff_toNat_le] using h
  by_contra hb
  rw [Bool.not_eq_false, isBlank, inRanges_eq_true] at hb
  simp only [blankRanges, List.mem_cons, List.not_mem_nil, or_false] at hb
  obtain ⟨r, hr, hlo, hhi⟩ := hb
  rcases hr with rfl | rfl | rfl | rfl | rfl | rfl | rfl | rfl | rfl | rfl <;> simp at hlo hhi <;> omega

theorem trimLeft_cons {c : Char} (h : isBlank c = false) (cs : List Char) : trimLeft (c :: cs) = c :: cs := by
  simp [trimLeft, h]

/-! ## Fixed width -/

theorem isDigit_digitChar {n : Nat} (h : n < 10) : (Nat.digitChar n).isDigit = true := by
  match n, h with
  | 0, _ | 1, _ | 2, _ | 3, _ | 4, _ | 5, _ | 6, _ | 7, _ | 8, _ | 9, _ => rfl

theorem isDigit_of_mem_fixed {width n : Nat} {c : Char} (h : c ∈ fixed width n) : c.isDigit = true := by
  induction width generalizing n with
  | zero => cases h
  | succ width ih =>
    rcases List.mem_append.mp h with h | h
    · exact ih h
    · rw [List.mem_singleton.mp h]
      exact isDigit_digitChar (Nat.mod_lt _ (by decide))

theorem value_fixed_of_lt {width n : Nat} (h : n < 10 ^ width) : value (fixed width n) = n := by
  rw [value_fixed]
  exact Nat.mod_eq_of_lt h

theorem value_append_zeros (cs : List Char) (k : Nat) :
    value (cs ++ List.replicate k '0') = value cs * 10 ^ k := by
  induction k with
  | zero => simp
  | succ k ih =>
    rw [List.replicate_succ', ← List.append_assoc, value_append, ih, show digitValue '0' = 0 from rfl, pow_succ]
    ring

/-! ## Padded -/

theorem value_eq_ofDigitChars (cs : List Char) : value cs = Nat.ofDigitChars 10 cs 0 := rfl

theorem value_zeros_append (k : Nat) (cs : List Char) : value (List.replicate k '0' ++ cs) = value cs := by
  induction k with
  | zero => rfl
  | succ k ih => exact ih

theorem isDigit_of_mem_padded {width n : Nat} {c : Char} (h : c ∈ padded width n) : c.isDigit = true := by
  rcases List.mem_append.mp h with h | h
  · rw [(List.mem_replicate.mp h).2]
    rfl
  · exact Nat.isDigit_of_mem_toDigits (by decide) (by decide) h

theorem value_padded (width n : Nat) : value (padded width n) = n := by
  rw [padded, value_zeros_append, value_eq_ofDigitChars]
  exact Nat.ofDigitChars_toDigits (by decide) (by decide)

theorem padded_ne_nil (width n : Nat) : padded width n ≠ [] := by
  have hpos : 0 < (natural n).length := Nat.length_toDigits_pos
  intro h
  rw [padded, List.append_eq_nil_iff] at h
  simp [h.2] at hpos

theorem length_padded_le {width most n : Nat} (hw : width ≤ most) (h0 : 0 < most) (h : n < 10 ^ most) :
    (padded width n).length ≤ most := by
  have hlen : (natural n).length ≤ most := (Nat.length_toDigits_le_iff (by decide) h0).mpr h
  rw [padded, List.length_append, List.length_replicate]
  omega

end LinkedData.Text
