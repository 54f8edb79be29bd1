/-
  LinkedData.Proofs.Dates — every instant of the calendar is read back from its text.

  A day number and its date determine one another (`Date.toDays_ofDays`), and the date found for
  a day exists (`Date.exists_ofDays`). A written time is a row of digit runs with marks between
  them; a reader that takes all digits that come, or as many as it may, gets each run back whole,
  because a mark is no digit (`numberAt_fixed`, `yearAt_writeYear`, `fraction_writeFraction`). So
  the reader of stored times inverts their writer (`readRelaxed_write_stored`): for years of any
  sign and length, for fractions of 0, 3, 6 or 9 digits, and for leap seconds.
-/

import LinkedData.Instant.Rfc3339
import LinkedData.Proofs.Numerals

namespace LinkedData

/-- The next step of a reader. -/
theorem bind_of_eq_some {α β : Type} {x : Option α} {a : α} {f : α → Option β} {y : Option β} (h : x = some a)
    (hf : f a = y) : (x >>= f) = y := by
  rw [h]
  exact hf

namespace Calendar

/-! ## Days and dates -/

theorem sum_monthLengths (y : Int) : ((monthLengths y).sum : Int) = yearStart (y + 1) - yearStart y := by
  have hleap : isLeap y = decide (y % 4 = 0 ∧ (y % 100 ≠ 0 ∨ y % 400 = 0)) := by
    simp [isLeap, Bool.beq_eq_decide_eq, bne]
  unfold monthLengths
  rw [hleap]
  simp only [List.sum_cons, List.sum_nil, decide_eq_true_eq, yearStart]
  split <;> omega

theorem length_monthLengths (y : Int) : (monthLengths y).length = 12 := rfl

theorem le_of_mem_monthLengths {y : Int} {n : Nat} (h : n ∈ monthLengths y) : n ≤ 31 := by
  unfold monthLengths at h
  simp only [List.mem_cons, List.not_mem_nil, or_false] at h
  split at h <;> omega

/-- Walking the months stops in the one that has the day. -/
theorem monthOf_spec {lengths : List Nat} {rest : Nat} (m : Nat) (h : rest < lengths.sum) :
    ∃ k length day, lengths[k]? = some length ∧ monthOf lengths m rest = (m + k, day) ∧
      1 ≤ day ∧ day ≤ length ∧ rest + 1 = (lengths.take k).sum + day := by
  induction lengths generalizing m rest with
  | nil => simp at h
  | cons length more ih =>
    rw [monthOf]
    by_cases hlt : rest < length
    · exact ⟨0, length, rest + 1, rfl, by simp [hlt], by omega, by omega, by simp⟩
    · rw [List.sum_cons] at h
      obtain ⟨k, n, day, hk, hm, h1, hn, hday⟩ := ih (m + 1) (show rest - length < more.sum by omega)
      refine ⟨k + 1, n, day, by simpa using hk, by rw [if_neg hlt, hm]; congr 1; omega, h1, hn, ?_⟩
      rw [List.take_succ_cons, List.sum_cons]
      omega

theorem yearStart_le {a b : Int} (h : a ≤ b) : yearStart a ≤ yearStart b := by
  unfold yearStart
  omega

/-- A day is in the years that it is between. -/
theorem yearOf_between {d first last : Int} (hf : yearStart first ≤ d) (hl : d < yearStart (last + 1)) :
    first ≤ yearOf d ∧ yearOf d ≤ last := by
  obtain ⟨hstart, hend⟩ := yearStart_yearOf d
  constructor
  · by_contra hlt
    have := yearStart_le (a := yearOf d + 1) (b := first) (by omega)
    omega
  · by_contra hlt
    have := yearStart_le (a := last + 1) (b := yearOf d) (by omega)
    omega

namespace Date

/-- The date of a day: its month is there, has the day, and the days before it add up. -/
theorem ofDays_spec (d : Int) : ∃ k length day, (monthLengths (yearOf d))[k]? = some length ∧
    ofDays d = ⟨yearOf d, 1 + k, day⟩ ∧ 1 ≤ day ∧ day ≤ length ∧
    (d - yearStart (yearOf d)).toNat + 1 = ((monthLengths (yearOf d)).take k).sum + day := by
  obtain ⟨hstart, hend⟩ := yearStart_yearOf d
  have hsum := sum_monthLengths (yearOf d)
  obtain ⟨k, length, day, hk, hm, h1, hl, hday⟩ :=
    monthOf_spec 1 (show (d - yearStart (yearOf d)).toNat < (monthLengths (yearOf d)).sum by omega)
  exact ⟨k, length, day, hk, by unfold ofDays; simp only [hm], h1, hl, hday⟩

theorem year_ofDays (d : Int) : (ofDays d).year = yearOf d := rfl

theorem exists_ofDays (d : Int) : (ofDays d).Exists := by
  obtain ⟨k, length, day, hk, hd, h1, hl, -⟩ := ofDays_spec d
  rw [hd]
  exact ⟨length, by simpa using hk, by simp, h1, hl⟩

theorem toDays_ofDays (d : Int) : (ofDays d).toDays = d := by
  obtain ⟨hstart, -⟩ := yearStart_yearOf d
  obtain ⟨k, length, day, -, hd, -, -, hday⟩ := ofDays_spec d
  rw [hd, toDays, daysBefore]
  simp only [Nat.add_sub_cancel_left]
  rw [← List.sum_eq_foldl]
  omega

theorem month_le (d : Int) : (ofDays d).month ≤ 12 := by
  obtain ⟨k, length, day, hk, hd, -⟩ := ofDays_spec d
  have hlt : k < 12 := by
    rw [← length_monthLengths (yearOf d)]
    exact (List.getElem?_eq_some_iff.mp hk).1
  rw [hd]
  show 1 + k ≤ 12
  omega

theorem day_le (d : Int) : (ofDays d).day ≤ 31 := by
  obtain ⟨k, length, day, hk, hd, -, hl, -⟩ := ofDays_spec d
  rw [hd]
  exact hl.trans (le_of_mem_monthLengths (List.mem_of_getElem? hk))

end Date

end Calendar

namespace Instant

open Text Calendar

/-! ## Reading what was written -/

theorem numberAt_digits {most : Nat} {ds rest : List Char} (h : ∀ c ∈ ds, c.isDigit = true) (hne : ds ≠ [])
    (hl : ds.length ≤ most) (hr : Breaks rest) : numberAt most (ds ++ rest) = some (value ds, rest) := by
  obtain ⟨c, cs, rfl⟩ := List.exists_cons_of_ne_nil hne
  have htrim : trimLeft (c :: cs ++ rest) = c :: cs ++ rest := trimLeft_cons (isBlank_of_isDigit (h c (by simp))) _
  rw [numberAt]
  simp only [htrim, takeWhile_isDigit h hr, List.take_of_length_le hl, reduceCtorEq, if_false, List.drop_left]

theorem numberAt_fixed {width n : Nat} {rest : List Char} (hw : 0 < width) (hn : n < 10 ^ width) (hr : Breaks rest) :
    numberAt width (fixed width n ++ rest) = some (n, rest) := by
  have hne : fixed width n ≠ [] := by
    intro h
    have hlen := length_fixed width n
    rw [h] at hlen
    exact absurd hlen (Nat.ne_of_lt hw)
  rw [numberAt_digits (fun _ => isDigit_of_mem_fixed) hne (length_fixed _ _).le hr, value_fixed_of_lt hn]

theorem anyNumber_padded (width n : Nat) {rest : List Char} (hr : Breaks rest) :
    yearAt.anyNumber (padded width n ++ rest) = some (n, rest) := by
  have hdigits : ∀ c ∈ padded width n, c.isDigit = true := fun _ => isDigit_of_mem_padded
  rw [yearAt.anyNumber]
  simp only [takeWhile_isDigit hdigits hr, padded_ne_nil, if_false, List.drop_left, value_padded]

theorem yearAt_writeYear (y : Int) {rest : List Char} (hr : Breaks rest) :
    yearAt (writeYear y ++ rest) = some (y, rest) := by
  have hplus : isBlank '+' = false := by decide
  have hminus : isBlank '-' = false := by decide
  cases y with
  | negSucc n =>
    rw [writeYear, List.cons_append, yearAt, trimLeft_cons hminus]
    simp only [anyNumber_padded _ _ hr, Option.map_some]
    rfl
  | ofNat n =>
    rw [writeYear]
    split
    · next h =>
      obtain ⟨c, cs, hc⟩ : ∃ c cs, fixed 4 n = c :: cs := List.exists_cons_of_length_eq_add_one (length_fixed 4 n)
      have hdigit : c.isDigit = true := isDigit_of_mem_fixed (show c ∈ fixed 4 n by rw [hc]; exact List.mem_cons_self)
      have hnumber : numberAt 4 (fixed 4 n ++ rest) = some (n, rest) := numberAt_fixed (by decide) (by omega) hr
      rw [hc, List.cons_append] at hnumber ⊢
      rw [yearAt, trimLeft_cons (isBlank_of_isDigit hdigit)]
      split
      · next heq => cases heq; cases hdigit
      · next heq => cases heq; cases hdigit
      · rw [hnumber]
        rfl
    · rw [List.cons_append, yearAt, trimLeft_cons hplus]
      simp only [anyNumber_padded _ _ hr, Option.map_some]
      rfl

theorem separatorAt_self {c : Char} (h : isBlank c = false) (rest : List Char) :
    separatorAt c (c :: rest) = some rest := by
  rw [separatorAt, trimLeft_cons h]
  simp only [if_true]

/-- A fraction is its digits, filled up to nine. -/
theorem fraction_fixed {width n : Nat} {rest : List Char} (hw : 0 < width) (h9 : width ≤ 9) (hn : n < 10 ^ width)
    (hr : Breaks rest) : fraction (fixed width n ++ rest) = .ok (n * 10 ^ (9 - width), rest) := by
  have hdigits : ∀ c ∈ fixed width n, c.isDigit = true := fun _ => isDigit_of_mem_fixed
  have hlen := length_fixed width n
  have hne : fixed width n ≠ [] := by
    intro h
    rw [h] at hlen
    exact absurd hlen (Nat.ne_of_lt hw)
  have htake : (fixed width n).take 9 = fixed width n := List.take_of_length_le (by omega)
  unfold fraction
  dsimp only
  rw [takeWhile_isDigit hdigits hr, dropWhile_isDigit hdigits hr, htake, hlen, value_append_zeros, value_fixed_of_lt hn]
  split
  · next heq => exact absurd (List.append_eq_nil_iff.mp heq).1 hne
  · next heq => exact absurd heq hne
  · rfl

/-- A fraction is left out, or has the fewest digits that are enough. -/
theorem writeFraction_cases {nano : Nat} (h : nano < 1000000000) :
    nano = 0 ∧ writeFraction .fewest nano = [] ∨
      ∃ width n, 0 < width ∧ width ≤ 9 ∧ n < 10 ^ width ∧ n * 10 ^ (9 - width) = nano ∧
        writeFraction .fewest nano = '.' :: fixed width n := by
  rw [writeFraction]
  by_cases h0 : nano = 0
  · exact .inl ⟨h0, if_pos h0⟩
  · rw [if_neg h0]
    refine .inr ?_
    split
    · exact ⟨3, nano / 1000000, by decide, by decide, by omega, by omega, rfl⟩
    · split
      · exact ⟨6, nano / 1000, by decide, by decide, by omega, by omega, rfl⟩
      · exact ⟨9, nano, by decide, by decide, by omega, by omega, rfl⟩

/-- The fields of an instant give it back. A leap second is second 60 of its minute. -/
theorem ofFields_clock {t : Instant} (ht : t.Valid) :
    let clock := (t.second % 86400).toNat
    ofFields (Date.ofDays (t.second / 86400 + epoch)) (clock / 3600) (clock / 60 % 60)
      (clock % 60 + t.nano / 1000000000) (t.nano % 1000000000) 0 = .ok t := by
  obtain ⟨hfirst, hlast, hnano⟩ := ht
  have hyear : firstYear ≤ (Date.ofDays (t.second / 86400 + epoch)).year ∧
      (Date.ofDays (t.second / 86400 + epoch)).year ≤ lastYear := by
    rw [Date.year_ofDays]
    refine yearOf_between ?_ ?_
    · unfold firstSecond at hfirst
      omega
    · unfold lastSecond at hlast
      omega
  dsimp only
  generalize hc : (t.second % 86400).toNat = clock
  have hleap : (clock % 60 + t.nano / 1000000000 = 60) ↔ 1000000000 ≤ t.nano := by omega
  unfold ofFields
  simp only [Date.toDays_ofDays, hleap, Date.exists_ofDays, hyear, true_and]
  have hsecond : (t.second / 86400 + epoch - epoch) * 86400 + (clock / 3600 : Nat) * 3600 +
      (clock / 60 % 60 : Nat) * 60 +
      ((if 1000000000 ≤ t.nano then 59 else clock % 60 + t.nano / 1000000000 : Nat) : Int) - 0 = t.second := by
    split <;> omega
  have hn : (if 1000000000 ≤ t.nano then t.nano % 1000000000 + 1000000000 else t.nano % 1000000000) = t.nano := by
    split <;> omega
  rw [hn, hsecond, if_pos ⟨by omega, by omega, by omega, hfirst, hlast⟩]

theorem readRelaxedChars_writeChars {t : Instant} (ht : t.Valid) :
    readRelaxedChars (writeChars .stored t) = some t := by
  have hmonth := Date.month_le (t.second / 86400 + epoch)
  have hday := Date.day_le (t.second / 86400 + epoch)
  have hfields := ofFields_clock ht
  have hnano := ht.2.2
  dsimp only at hfields
  unfold writeChars writeDate
  dsimp only
  generalize hc : (t.second % 86400).toNat = clock at hfields ⊢
  generalize Date.ofDays (t.second / 86400 + epoch) = date at hmonth hday hfields ⊢
  have hdash (cs : List Char) : Breaks ('-' :: cs) := breaks_cons rfl cs
  have hcolon (cs : List Char) : Breaks (':' :: cs) := breaks_cons rfl cs
  have hT (cs : List Char) : Breaks ('T' :: cs) := breaks_cons rfl cs
  simp only [List.append_assoc, List.cons_append]
  unfold readRelaxedChars
  refine bind_of_eq_some (yearAt_writeYear _ (hdash _)) ?_
  refine bind_of_eq_some (separatorAt_self (by decide) _) ?_
  refine bind_of_eq_some (numberAt_fixed (by decide) (by omega) (hdash _)) ?_
  refine bind_of_eq_some (separatorAt_self (by decide) _) ?_
  refine bind_of_eq_some (numberAt_fixed (by decide) (by omega) (hT _)) ?_
  refine bind_of_eq_some rfl ?_
  refine bind_of_eq_some (numberAt_fixed (by decide) (by omega) (hcolon _)) ?_
  refine bind_of_eq_some (separatorAt_self (by decide) _) ?_
  refine bind_of_eq_some (numberAt_fixed (by decide) (by omega) (hcolon _)) ?_
  refine bind_of_eq_some (separatorAt_self (by decide) _) ?_
  have hsecond : clock % 60 + t.nano / 1000000000 < 10 ^ 2 := by omega
  have hfinal : (if trimLeft [] ≠ [] ∨ 86400 ≤ (0 : Int).natAbs then none
      else (ofFields ⟨date.year, date.month, date.day⟩ (clock / 3600) (clock / 60 % 60)
        (clock % 60 + t.nano / 1000000000) (t.nano % 1000000000) 0).toOption) = some t := by
    rw [hfields]
    rfl
  rcases writeFraction_cases (Nat.mod_lt t.nano (by decide : 1000000000 > 0)) with
    ⟨h0, hw⟩ | ⟨width, n, h0, h9, hn, hnano', hw⟩
  · rw [show writeFraction Style.stored.precision _ = _ from hw]
    refine bind_of_eq_some (numberAt_fixed (by decide) hsecond (breaks_cons rfl _)) ?_
    rw [← h0]
    exact hfinal
  · rw [show writeFraction Style.stored.precision _ = _ from hw]
    refine bind_of_eq_some (numberAt_fixed (by decide) hsecond (breaks_cons rfl _)) ?_
    refine bind_of_eq_some (congrArg Except.toOption (fraction_fixed h0 h9 hn (breaks_cons rfl _))) ?_
    rw [hnano']
    exact hfinal

theorem readRelaxed_write_stored {t : Instant} (ht : t.Valid) : readRelaxed (t.write .stored) = some t := by
  rw [readRelaxed, write, String.toList_ofList]
  exact readRelaxedChars_writeChars ht

end Instant

end LinkedData
