/-
  LinkedData.Proofs.Hexadecimals — hexadecimal text, read in any case of its letters.

  A digit is one of sixteen characters once it is in lower case (`digitValue?_eq_some_iff`), so what
  is read as some bytes is what they are written as, up to the case of its letters. A text is read by
  the bytes of its characters; those that are no ASCII have bytes that are no digits, so this makes no
  difference to what can be read (`decode_eq_ok_iff`).
-/

import LinkedData.Hex
import Mathlib.Data.String.Basic

namespace LinkedData.Hex

/-! ## Digits -/

theorem ascii_of_digitValue? {c : Char} {n : Nat} (h : digitValue? c = some n) : c.toNat < 128 := by
  have hle : ∀ d : Char, c ≤ d → c.toNat ≤ d.toNat := fun d hd => UInt32.le_iff_toNat_le.mp hd
  unfold digitValue? at h
  split at h
  · next hc => exact Nat.lt_of_le_of_lt (hle '9' hc.2) (by decide)
  · split at h
    · next hc => exact Nat.lt_of_le_of_lt (hle 'f' hc.2) (by decide)
    · split at h
      · next hc => exact Nat.lt_of_le_of_lt (hle 'F' hc.2) (by decide)
      · cases h

theorem ascii_of_toLower {c : Char} (h : c.toLower.toNat < 128) : c.toNat < 128 := by
  unfold Char.toLower at h
  split at h
  · next hc => exact Nat.lt_of_le_of_lt (UInt32.le_iff_toNat_le.mp hc.2) (by decide)
  · exact h

/-- A digit is one of sixteen characters, in either case. -/
theorem digitValue?_eq_some_iff {c : Char} {n : Nat} : digitValue? c = some n ↔ n < 16 ∧ c.toLower = digit n := by
  -- both sides are about ASCII characters only, and these are few enough to look at
  have hascii : ∀ k : Fin 128, ∀ n ∈ digitValue? (Char.ofNat k),
      n < 16 ∧ (Char.ofNat k).toLower = digit n := by decide
  have hdigit : ∀ k : Fin 128, ∀ n : Fin 16, (Char.ofNat k).toLower = digit n →
      digitValue? (Char.ofNat k) = some n.val := by
    decide +kernel
  have hbound : ∀ n : Fin 16, (digit n).toNat < 128 := by decide
  constructor
  · intro h
    have hall := hascii ⟨c.toNat, ascii_of_digitValue? h⟩ n
    rw [Char.ofNat_toNat] at hall
    exact hall h
  · rintro ⟨hn, h⟩
    have hc : c.toNat < 128 := ascii_of_toLower (by rw [h]; exact hbound ⟨n, hn⟩)
    have hall := hdigit ⟨c.toNat, hc⟩ ⟨n, hn⟩
    rw [Char.ofNat_toNat] at hall
    exact hall h

theorem isDigit_digit {n : Nat} (h : n < 16) : isDigit (digit n) = true := by
  rw [isDigit, digitValue?_digit h]
  rfl

theorem isDigit_of_mem_encodeChars {bs : Bytes} {c : Char} (h : c ∈ encodeChars bs) : isDigit c = true := by
  obtain ⟨b, -, hc⟩ := List.mem_flatMap.mp h
  have hb : b.toNat < 256 := b.toNat_lt
  simp only [byte, List.mem_cons, List.not_mem_nil, or_false] at hc
  rcases hc with rfl | rfl
  · exact isDigit_digit (by omega)
  · exact isDigit_digit (by omega)

theorem ascii_of_isDigit {c : Char} (h : isDigit c = true) : c.toNat < 128 := by
  obtain ⟨n, hn⟩ := Option.isSome_iff_exists.mp h
  exact ascii_of_digitValue? hn

/-! ## Digits of bytes -/

theorem byte_ofNat {x y : Nat} (hx : x < 16) (hy : y < 16) : byte (UInt8.ofNat (16 * x + y)) = [digit x, digit y] := by
  have hval : (UInt8.ofNat (16 * x + y)).toNat = 16 * x + y := by
    rw [UInt8.toNat_ofNat']
    omega
  rw [byte, hval, show (16 * x + y) / 16 = x by omega, show (16 * x + y) % 16 = y by omega]

theorem lower_of_decodeFrom {i : Nat} {cs : List Char} {bs : Bytes} (h : decodeFrom i cs = .ok bs) :
    cs.map Char.toLower = encodeChars bs := by
  induction i, cs using decodeFrom.induct generalizing bs with
  | case1 i =>
    cases h
    rfl
  | case2 i c => cases h
  | case3 i a b rest y x hb ha ih =>
    rw [decodeFrom, ha, hb] at h
    cases hrest : decodeFrom (i + 2) rest with
    | error f =>
      rw [hrest] at h
      cases h
    | ok more =>
      rw [hrest] at h
      cases h
      obtain ⟨hx, hlow⟩ := digitValue?_eq_some_iff.mp ha
      obtain ⟨hy, hlow'⟩ := digitValue?_eq_some_iff.mp hb
      rw [List.map_cons, List.map_cons, hlow, hlow', ih hrest, encodeChars, encodeChars, List.flatMap_cons,
        byte_ofNat hx hy]
      rfl
  | case4 i a b rest ha => rw [decodeFrom, ha] at h; cases h
  | case5 i a b rest x ha hb => rw [decodeFrom, ha, hb] at h; cases h

theorem decodeFrom_of_lower {i : Nat} {cs : List Char} {bs : Bytes} (h : cs.map Char.toLower = encodeChars bs) :
    decodeFrom i cs = .ok bs := by
  induction bs generalizing i cs with
  | nil =>
    rw [List.map_eq_nil_iff.mp h]
    rfl
  | cons b bs ih =>
    rw [encodeChars, List.flatMap_cons, byte, List.cons_append, List.cons_append, List.nil_append] at h
    obtain ⟨c, cs, rfl, hc, hcs⟩ := List.map_eq_cons_iff.mp h
    obtain ⟨c', cs, rfl, hc', hcs⟩ := List.map_eq_cons_iff.mp hcs
    have hb : b.toNat < 256 := b.toNat_lt
    have hhigh := digitValue?_eq_some_iff.mpr ⟨show b.toNat / 16 < 16 by omega, hc⟩
    have hlow := digitValue?_eq_some_iff.mpr ⟨show b.toNat % 16 < 16 by omega, hc'⟩
    rw [decodeFrom, hhigh, hlow]
    dsimp only
    rw [ih hcs, show 16 * (b.toNat / 16) + b.toNat % 16 = b.toNat by omega, UInt8.ofNat_toNat]
    rfl

theorem encodeChars_injective : Function.Injective encodeChars := by
  intro bs bs' h
  have hdecoded := decodeFrom_encodeChars 0 bs
  rw [h, decodeFrom_encodeChars] at hdecoded
  exact (Except.ok.inj hdecoded).symm

/-! ## Characters and their bytes -/

theorem byteChars_eq (s : String) :
    byteChars s = s.toList.flatMap fun c => (String.utf8EncodeChar c).map fun b => Char.ofNat b.toNat := by
  have hbytes : s.toUTF8.data.toList = s.toList.flatMap String.utf8EncodeChar := by
    conv_lhs => rw [← String.ofList_toList (s := s)]
    rw [String.toUTF8_eq_toByteArray, String.toByteArray_ofList, List.utf8Encode, List.toList_data_toByteArray]
  rw [byteChars, hbytes, List.map_flatMap]

theorem byteChars_of_ascii {s : String} (h : ∀ c ∈ s.toList, c.toNat < 128) : byteChars s = s.toList := by
  rw [byteChars_eq]
  generalize s.toList = cs at h
  induction cs with
  | nil => rfl
  | cons c cs ih =>
    have hc := h c List.mem_cons_self
    have hone : String.utf8EncodeChar c = [UInt8.ofNat c.toNat] := if_pos (Nat.le_of_lt_succ hc)
    have hback : (UInt8.ofNat c.toNat).toNat = c.toNat := by
      rw [UInt8.toNat_ofNat']
      omega
    rw [List.flatMap_cons, ih fun d hd => h d (List.mem_cons_of_mem c hd), hone, List.map_singleton, hback,
      Char.ofNat_toNat]
    rfl

/-- The first byte of any other character is no ASCII. -/
theorem ascii_of_byteChars {s : String} (h : ∀ c ∈ byteChars s, c.toNat < 128) :
    ∀ c ∈ s.toList, c.toNat < 128 := by
  intro c hc
  by_contra hlarge
  have hfirst : ∃ b ∈ String.utf8EncodeChar c, 192 ≤ b.toNat := by
    have hval : ¬ c.val.toNat ≤ 127 := fun h => hlarge (Nat.lt_succ_of_le h)
    unfold String.utf8EncodeChar
    dsimp only
    rw [if_neg hval]
    split
    · exact ⟨_, List.mem_cons_self, by rw [UInt8.toNat_ofNat']; omega⟩
    · split
      · exact ⟨_, List.mem_cons_self, by rw [UInt8.toNat_ofNat']; omega⟩
      · exact ⟨_, List.mem_cons_self, by rw [UInt8.toNat_ofNat']; omega⟩
  obtain ⟨b, hb, hlow⟩ := hfirst
  have hmem : Char.ofNat b.toNat ∈ byteChars s := by
    rw [byteChars_eq, List.mem_flatMap]
    exact ⟨c, hc, List.mem_map.mpr ⟨b, hb, rfl⟩⟩
  have hchar := h _ hmem
  have hvalid : b.toNat.isValidChar := .inl (b.toNat_lt.trans (by decide))
  have hback : (Char.ofNat b.toNat).toNat = b.toNat := by
    rw [Char.ofNat, dif_pos hvalid]
    rfl
  omega

/-! ## Text -/

theorem ascii_of_lower {cs : List Char} {bs : Bytes} (h : cs.map Char.toLower = encodeChars bs) :
    ∀ c ∈ cs, c.toNat < 128 := by
  intro c hc
  have hmem : c.toLower ∈ encodeChars bs := h ▸ List.mem_map_of_mem hc
  exact ascii_of_toLower (ascii_of_isDigit (isDigit_of_mem_encodeChars hmem))

/-- A text is read as some bytes just if it is what they are written as, in any case. -/
theorem decode_eq_ok_iff {s : String} {bs : Bytes} :
    decode s = .ok bs ↔ s.toList.map Char.toLower = encodeChars bs := by
  unfold decode
  dsimp only
  constructor
  · intro h
    split at h
    · cases h
    · have hlower := lower_of_decodeFrom h
      rwa [byteChars_of_ascii (ascii_of_byteChars (ascii_of_lower hlower))] at hlower
  · intro h
    have hlength := congrArg List.length h
    rw [List.length_map, length_encodeChars] at hlength
    rw [byteChars_of_ascii (ascii_of_lower h), if_neg (by omega), decodeFrom_of_lower h]

end LinkedData.Hex
