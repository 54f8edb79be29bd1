/-
  LinkedData.Proofs.FileNames — the names of mementos, of blobs and of the directories they are in.

  The name of a memento's file is read back as its time (`parse?_fileName`), so two times never
  share a file, and no file has the name that another one has while it is written
  (`fileName_ne_temporary`). The directory of an identifier is found from its hash and determines
  it (`hash_eq_of_directoryOf`). A blob's file and its directories are named by the digits of a hash,
  so two hashes never share a file either (`place_injective`, `name_ne_temporary`). All these names
  are fit for files, and a path of them below a root is short enough when the root leaves room for it
  (`Suits`).
-/

import LinkedData.Blob.Files
import LinkedData.Memento.Files
import LinkedData.Proofs.FileTrees
import LinkedData.Proofs.Hexadecimals
import LinkedData.Proofs.Numerals

namespace LinkedData

open Text

namespace FileTree

/-- A name of some ASCII characters, the first of them no dot. -/
structure Tame (cs : List Char) : Prop where
  ascii : ∀ c ∈ cs, 0 < c.toNat ∧ c.toNat < 128
  start : ∃ c rest, cs = c :: rest ∧ c ≠ '.'

theorem Tame.append {cs ds : List Char} (h : Tame cs) (hd : ∀ c ∈ ds, 0 < c.toNat ∧ c.toNat < 128) :
    Tame (cs ++ ds) := by
  obtain ⟨c, rest, rfl, hc⟩ := h.start
  refine ⟨fun x hx => ?_, c, rest ++ ds, rfl, hc⟩
  rcases List.mem_append.mp hx with hx | hx
  · exact h.ascii x hx
  · exact hd x hx

theorem utf8ByteSize_of_ascii {cs : List Char} (h : ∀ c ∈ cs, 0 < c.toNat ∧ c.toNat < 128) :
    (String.ofList cs).utf8ByteSize = cs.length := by
  rw [String.utf8ByteSize_ofList]
  induction cs with
  | nil => rfl
  | cons c cs ih =>
    have hsize : c.utf8Size = 1 := by
      have hlt := (h c List.mem_cons_self).2
      rw [Char.utf8Size_eq_one_iff, UInt32.le_iff_toNat_le]
      exact Nat.le_of_lt_succ hlt
    rw [String.utf8Len, ih fun d hd => h d (List.mem_cons_of_mem c hd), hsize, List.length_cons]

theorem Tame.plain {cs : List Char} (h : Tame cs) : Plain (String.ofList cs) := by
  obtain ⟨c, rest, rfl, hc⟩ := h.start
  have hne : ∀ s : String, (∀ d, s.toList.head? = some d → d = '.') → String.ofList (c :: rest) ≠ s := by
    intro s hs he
    refine hc (hs c ?_)
    rw [← he, String.toList_ofList]
    rfl
  refine ⟨?_, hne ".." fun d hd => ?_⟩
  · rw [isHere, Bool.or_eq_false_iff, beq_eq_false_iff_ne, beq_eq_false_iff_ne]
    refine ⟨hne "" fun d hd => ?_, hne "." fun d hd => ?_⟩
    · cases hd
    · cases hd
      rfl
  · cases hd
    rfl

theorem Tame.fit {cs : List Char} (h : Tame cs) (hl : cs.length ≤ longestName) : Fit (String.ofList cs) := by
  refine ⟨h.plain, ?_, ?_⟩
  · rwa [utf8ByteSize_of_ascii h.ascii]
  · rw [String.toList_ofList]
    intro hzero
    exact absurd (h.ascii _ hzero).1 (by decide)

end FileTree

open FileTree

/-! ## Hexadecimal names -/

theorem Hex.tame_isDigit {c : Char} (h : Hex.isDigit c = true) : (0 < c.toNat ∧ c.toNat < 128) ∧ c ≠ '.' := by
  refine ⟨⟨Nat.pos_of_ne_zero fun hzero => ?_, Hex.ascii_of_isDigit h⟩, ?_⟩
  · rw [← Char.ofNat_toNat c, hzero] at h
    exact absurd h (by decide)
  · rintro rfl
    exact absurd h (by decide)

theorem Hex.tame_of_isDigit {cs : List Char} (h : ∀ c ∈ cs, Hex.isDigit c = true) (hne : cs ≠ []) : Tame cs := by
  obtain ⟨c, rest, rfl⟩ := List.exists_cons_of_ne_nil hne
  exact ⟨fun d hd => (Hex.tame_isDigit (h d hd)).1, c, rest, rfl, (Hex.tame_isDigit (h c List.mem_cons_self)).2⟩

/-- A name of some hexadecimal digits. -/
theorem Hex.fit_ofList {cs : List Char} (h : ∀ c ∈ cs, Hex.isDigit c = true) (hne : cs ≠ [])
    (hl : cs.length ≤ longestName) : Fit (String.ofList cs) ∧ (String.ofList cs).utf8ByteSize = cs.length := by
  have htame := Hex.tame_of_isDigit h hne
  exact ⟨htame.fit hl, utf8ByteSize_of_ascii htame.ascii⟩

/-- The names of the directories of some hexadecimal digits: the first two, and the next two. -/
theorem Hex.fit_pairs {cs : List Char} (h : ∀ c ∈ cs, Hex.isDigit c = true) (hl : cs.length = 64) :
    ∀ name ∈ [String.ofList (cs.take 2), String.ofList ((cs.drop 2).take 2)], Fit name ∧ name.utf8ByteSize = 2 := by
  have hfirst : (cs.take 2).length = 2 := by rw [List.length_take]; omega
  have hsecond : ((cs.drop 2).take 2).length = 2 := by rw [List.length_take, List.length_drop]; omega
  have hfit : ∀ part : List Char, (∀ c ∈ part, c ∈ cs) → part.length = 2 →
      Fit (String.ofList part) ∧ (String.ofList part).utf8ByteSize = 2 := by
    intro part hsub htwo
    rw [← htwo]
    exact Hex.fit_ofList (fun c hc => h c (hsub c hc)) (List.ne_nil_of_length_pos (by omega)) (by rw [htwo]; decide)
  intro name hn
  simp only [List.mem_cons, List.not_mem_nil, or_false] at hn
  rcases hn with rfl | rfl
  · exact hfit _ (fun c hc => List.mem_of_mem_take hc) hfirst
  · exact hfit _ (fun c hc => List.mem_of_mem_drop (List.mem_of_mem_take hc)) hsecond

namespace BlobFiles

/-- The text of a hash: 64 hexadecimal digits. -/
def IsHash (hex : String) : Prop := hex.toList.length = 64 ∧ hex.toList.all Hex.isDigit = true

instance (hex : String) : Decidable (IsHash hex) := inferInstanceAs (Decidable (_ ∧ _))

theorem isHash_hexOf (content : Bytes) : IsHash (Blake3.hexOf content) := by
  rw [IsHash, Blake3.hexOf, Hex.encode, String.toList_ofList, Hex.length_encodeChars, Blake3.length_hash,
    List.all_eq_true]
  exact ⟨rfl, fun c hc => Hex.isDigit_of_mem_encodeChars hc⟩

variable {hex : String} {d : Path} {name : String}

/-- The names of a blob's directories, and of its file. -/
theorem place_eq_ok_iff : place hex = .ok (d, name) ↔
    IsHash hex ∧ d = [String.ofList (hex.toList.take 2), String.ofList ((hex.toList.drop 2).take 2)] ∧
      name = hex ++ ".bin" := by
  unfold place IsHash
  dsimp only
  split
  · next h => simp only [Except.ok.injEq, Prod.mk.injEq, h, and_self, true_and, eq_comm]
  · next h => simp only [reduceCtorEq, h, false_and]

theorem place_of_isHash (h : IsHash hex) : ∃ d name, place hex = .ok (d, name) :=
  ⟨_, _, place_eq_ok_iff.mpr ⟨h, rfl, rfl⟩⟩

/-- The names on the way to a blob are fit for files, and take so many bytes with their slashes. -/
theorem fit_place (h : place hex = .ok (d, name)) :
    ((∀ n ∈ d, Fit n) ∧ d.length = 2 ∧ width d = 6) ∧
      ∀ n ∈ [name, name ++ ".tmp"], Fit n ∧ n.utf8ByteSize ≤ 72 := by
  obtain ⟨⟨hlen, hdigits⟩, rfl, rfl⟩ := place_eq_ok_iff.mp h
  rw [List.all_eq_true] at hdigits
  have hpairs := Hex.fit_pairs hdigits hlen
  have hall : Tame hex.toList := Hex.tame_of_isDigit hdigits (List.ne_nil_of_length_pos (by omega))
  have hending : ∀ ending : String, (∀ c ∈ ending.toList, 0 < c.toNat ∧ c.toNat < 128) →
      ending.toList.length ≤ 8 → Fit (hex ++ ending) ∧ (hex ++ ending).utf8ByteSize ≤ 72 := by
    intro ending hascii hshort
    have hname : hex ++ ending = String.ofList (hex.toList ++ ending.toList) := by
      rw [String.ofList_append, String.ofList_toList, String.ofList_toList]
    have htame := hall.append hascii
    have hlength : (hex.toList ++ ending.toList).length ≤ 72 := by
      rw [List.length_append]
      omega
    rw [hname]
    exact ⟨htame.fit (hlength.trans (by decide)), by rwa [utf8ByteSize_of_ascii htame.ascii]⟩
  refine ⟨⟨fun n hn => (hpairs n hn).1, rfl, ?_⟩, fun n hn => ?_⟩
  · rw [width_cons, width_cons, (hpairs _ List.mem_cons_self).2,
      (hpairs _ (List.mem_cons_of_mem _ List.mem_cons_self)).2]
    rfl
  · simp only [List.mem_cons, List.not_mem_nil, or_false] at hn
    rcases hn with rfl | rfl
    · exact hending ".bin" (by simp) (by decide)
    · rw [String.append_assoc]
      exact hending (".bin" ++ ".tmp") (by simp) (by decide)

theorem plain_place (h : place hex = .ok (d, name)) {root : Path} (hr : ∀ n ∈ root, Plain n) :
    ∀ written ∈ [name, name ++ ".tmp"], ∀ n ∈ root ++ d ++ [written], Plain n := by
  obtain ⟨⟨hfit, -⟩, hnames⟩ := fit_place h
  intro written hw n hn
  rw [List.mem_append, List.mem_append, List.mem_singleton] at hn
  rcases hn with (hn | hn) | rfl
  · exact hr n hn
  · exact (hfit n hn).plain
  · exact (hnames n hw).1.plain

/-- A blob is found where no other one is. -/
theorem place_injective {hex' : String} {d' : Path} (h : place hex = .ok (d, name)) (h' : place hex' = .ok (d', name)) :
    hex = hex' := by
  obtain ⟨-, -, hname⟩ := place_eq_ok_iff.mp h
  obtain ⟨-, -, hname'⟩ := place_eq_ok_iff.mp h'
  rw [hname] at hname'
  exact (String.append_left_inj _).mp hname'

/-- No blob has the name that another has while it is written. -/
theorem name_ne_temporary {hex' : String} {d' : Path} {name' : String} (h : place hex = .ok (d, name))
    (h' : place hex' = .ok (d', name')) : name ≠ name' ++ ".tmp" := by
  obtain ⟨-, -, rfl⟩ := place_eq_ok_iff.mp h
  obtain ⟨-, -, rfl⟩ := place_eq_ok_iff.mp h'
  intro heq
  have hlast := congrArg (fun s : String => s.toList.getLast?) heq
  simp only [String.toList_append, List.getLast?_append] at hlast
  exact absurd hlast (by simp)

end BlobFiles

namespace MementoFiles

/-! ## Names of mementos -/

theorem splitLastDash_append {front back : List Char} (h : '-' ∉ back) :
    splitLastDash (front ++ '-' :: back) = some (front, back) := by
  have hback : splitLastDash back = none := by
    induction back with
    | nil => rfl
    | cons c cs ih =>
      rw [List.mem_cons, not_or] at h
      rw [splitLastDash, ih h.2]
      exact if_neg (Ne.symm h.1)
  induction front with
  | nil =>
    rw [List.nil_append, splitLastDash, hback]
    rfl
  | cons c cs ih => rw [List.cons_append, splitLastDash, ih]

theorem natural?_padded (width n : Nat) : natural? (padded width n) = some n := by
  have hdigits : ∀ c ∈ padded width n, c.isDigit = true := fun _ => isDigit_of_mem_padded
  have hvalue := value_padded width n
  obtain ⟨c, cs, hc⟩ := List.exists_cons_of_ne_nil (padded_ne_nil width n)
  rw [hc] at hdigits hvalue ⊢
  have hplus : c ≠ '+' := by
    rintro rfl
    cases hdigits '+' List.mem_cons_self
  simp only [natural?, List.cons.injEq, hplus, false_and, false_imp_iff, implies_true]
  rw [if_pos ⟨List.cons_ne_nil _ _, List.all_eq_true.mpr hdigits⟩, hvalue]

theorem integer?_paddedInt (width : Nat) (n : Int) : integer? (paddedInt width n) = some n := by
  cases n with
  | negSucc n =>
    rw [paddedInt, integer?, if_pos ⟨padded_ne_nil _ _, List.all_eq_true.mpr fun _ => isDigit_of_mem_padded⟩,
      value_padded]
    rfl
  | ofNat n =>
    rw [paddedInt]
    unfold integer?
    split
    · next rest he =>
      cases isDigit_of_mem_padded (show '-' ∈ padded width n by rw [he]; exact List.mem_cons_self)
    · rw [natural?_padded]
      rfl

theorem fileNameChars_eq (t : Instant) :
    fileNameChars t = (paddedInt 20 t.second ++ '-' :: padded 9 t.nano) ++ extension := by
  rw [fileNameChars, List.append_assoc, List.cons_append]

theorem parse?_fileName {t : Instant} (ht : t.Valid) : parse? (fileName t) = some t := by
  have hdash : '-' ∉ padded 9 t.nano := fun h => by cases isDigit_of_mem_padded h
  have hsuffix : extension.isSuffixOf (fileNameChars t) = true := by
    rw [List.isSuffixOf_iff_suffix, fileNameChars_eq]
    exact List.suffix_append _ _
  have htake : (fileNameChars t).take ((fileNameChars t).length - extension.length) =
      paddedInt 20 t.second ++ '-' :: padded 9 t.nano := by
    rw [fileNameChars_eq, List.length_append, Nat.add_sub_cancel, List.take_left]
  rw [parse?, fileName, String.toList_ofList, parseChars?, hsuffix, htake, splitLastDash_append hdash]
  simp [integer?_paddedInt, natural?_padded, ht]

theorem fileName_injective {t u : Instant} (ht : t.Valid) (hu : u.Valid) (h : fileName t = fileName u) : t = u := by
  have hparse := parse?_fileName ht
  rw [h, parse?_fileName hu] at hparse
  exact (Option.some.inj hparse).symm

/-- No memento has the name that another has while it is written. -/
theorem fileName_ne_temporary (t u : Instant) : fileName t ≠ fileName u ++ ".tmp" := by
  intro h
  have hchars : (fileNameChars t).getLast? = (fileNameChars u ++ ".tmp".toList).getLast? := by
    rw [← String.toList_ofList (l := fileNameChars t), ← String.toList_ofList (l := fileNameChars u),
      ← String.toList_append]
    exact congrArg (fun s : String => s.toList.getLast?) h
  have hlast : extension.getLast? = some 'o' := by decide
  have htemporary : ".tmp".toList.getLast? = some 'p' := by decide
  rw [List.getLast?_append, htemporary, fileNameChars_eq, List.getLast?_append, hlast] at hchars
  exact absurd hchars (by simp)

/-! ## Paths of mementos -/

theorem isDigit_tame {c : Char} (h : c.isDigit = true) : (0 < c.toNat ∧ c.toNat < 128) ∧ c ≠ '.' := by
  have hrange : 48 ≤ c.toNat ∧ c.toNat ≤ 57 := by simpa [Char.isDigit, UInt32.le_iff_toNat_le] using h
  refine ⟨by omega, ?_⟩
  rintro rfl
  cases h

theorem tame_paddedInt (width : Nat) (n : Int) : Tame (paddedInt width n) := by
  have hdigits : ∀ width n, Tame (padded width n) := by
    intro width n
    obtain ⟨c, rest, hc⟩ := List.exists_cons_of_ne_nil (padded_ne_nil width n)
    refine ⟨fun d hd => (isDigit_tame (isDigit_of_mem_padded hd)).1, c, rest, hc, ?_⟩
    exact (isDigit_tame (isDigit_of_mem_padded (show c ∈ padded width n by rw [hc]; exact List.mem_cons_self))).2
  cases n with
  | ofNat n => exact hdigits width n
  | negSucc n =>
    refine ⟨fun c hc => ?_, '-', padded (width - 1) (n + 1), rfl, by decide⟩
    rcases List.mem_cons.mp hc with rfl | hc
    · decide
    · exact (hdigits _ _).ascii c hc

theorem tame_fileNameChars (t : Instant) : Tame (fileNameChars t) := by
  have hextension : ∀ c ∈ extension, 0 < c.toNat ∧ c.toNat < 128 := by
    unfold extension
    simp
  rw [fileNameChars_eq]
  refine ((tame_paddedInt 20 t.second).append fun c hc => ?_).append hextension
  rcases List.mem_cons.mp hc with rfl | hc
  · decide
  · exact (isDigit_tame (isDigit_of_mem_padded hc)).1

/-- Twenty characters for the seconds, up to ten for the nanoseconds. -/
theorem length_fileNameChars {t : Instant} (ht : t.Valid) : (fileNameChars t).length ≤ 39 := by
  obtain ⟨hfirst, hlast, hnano⟩ := ht
  have hlow : -10 ^ 19 < Instant.firstSecond := by decide
  have hhigh : Instant.lastSecond < 10 ^ 19 := by decide
  have hseconds : (paddedInt 20 t.second).length ≤ 20 := by
    cases hs : t.second with
    | ofNat n =>
      rw [hs, Int.ofNat_eq_natCast] at hlast
      exact length_padded_le (by decide) (by decide) (by omega)
    | negSucc n =>
      rw [hs] at hfirst
      have hlen : (padded (20 - 1) (n + 1)).length ≤ 19 := length_padded_le (by decide) (by decide) (by omega)
      rw [paddedInt, List.length_cons]
      omega
  have hnanos : (padded 9 t.nano).length ≤ 10 := length_padded_le (by decide) (by decide) (by omega)
  have hextension : extension.length = 8 := by decide
  rw [fileNameChars_eq, List.length_append, List.length_append, List.length_cons, hextension]
  omega

theorem fit_fileName {t : Instant} (ht : t.Valid) : Fit (fileName t) ∧ (fileName t).utf8ByteSize ≤ 43 := by
  have hlen := length_fileNameChars ht
  refine ⟨(tame_fileNameChars t).fit (hlen.trans (by decide)), ?_⟩
  rw [fileName, utf8ByteSize_of_ascii (tame_fileNameChars t).ascii]
  omega

theorem fit_temporary {t : Instant} (ht : t.Valid) :
    Fit (fileName t ++ ".tmp") ∧ (fileName t ++ ".tmp").utf8ByteSize ≤ 43 := by
  have htemporary : ∀ c ∈ ".tmp".toList, 0 < c.toNat ∧ c.toNat < 128 := by simp
  have htame := (tame_fileNameChars t).append htemporary
  have hlen : (fileNameChars t ++ ".tmp".toList).length ≤ 43 := by
    have hchars := length_fileNameChars ht
    have hfour : ".tmp".toList.length = 4 := by decide
    rw [List.length_append, hfour]
    omega
  have hname : fileName t ++ ".tmp" = String.ofList (fileNameChars t ++ ".tmp".toList) := by
    rw [String.ofList_append, String.ofList_toList]
    rfl
  rw [hname]
  refine ⟨htame.fit (hlen.trans (by decide)), ?_⟩
  rwa [utf8ByteSize_of_ascii htame.ascii]

/-- The hash of an identifier as text: the last name of its directory. -/
theorem hash_eq_of_directoryOf {id id' : Iri} (h : directoryOf id = directoryOf id') :
    Blake3.hash (Encoding.utf8 id.text) = Blake3.hash (Encoding.utf8 id'.text) := by
  unfold directoryOf at h
  simp only [List.cons.injEq, and_true] at h
  exact Hex.encodeChars_injective (String.ofList_injective h.2.2)

theorem length_directory (root : Path) (id : Iri) : (directory root id).length = root.length + 3 := by
  rw [directory, List.length_append]
  rfl

/-! A blob is never where a memento is, nor on the way there, unless the two roots are. -/

theorem not_mem_directoryOf (id : Iri) {name : String} (h : '.' ∈ name.toList) : name ∉ directoryOf id := by
  have hdigits : ∀ cs : List Char, (∀ c ∈ cs, c ∈ Hex.encodeChars (Blake3.hash (Encoding.utf8 id.text))) →
      name ≠ String.ofList cs := by
    rintro cs hcs rfl
    rw [String.toList_ofList] at h
    exact (Hex.tame_isDigit (Hex.isDigit_of_mem_encodeChars (hcs _ h))).2 rfl
  simp only [directoryOf, List.mem_cons, List.not_mem_nil, or_false, not_or]
  exact ⟨hdigits _ fun c hc => List.mem_of_mem_take hc,
    hdigits _ fun c hc => List.mem_of_mem_drop (List.mem_of_mem_take hc), hdigits _ fun c hc => hc⟩

theorem above_of_blob_above {root blobs d : Path} {name : String} {content : Bytes} {id : Iri}
    (h : BlobFiles.place (Blake3.hexOf content) = .ok (d, name)) {written : String}
    (hw : written ∈ [name, name ++ ".tmp"]) (hp : blobs ++ d ++ [written] <+: directory root id) :
    blobs ++ d ++ [written] <+: root := by
  refine FileTree.above_of_not_mem hp (not_mem_directoryOf id ?_)
  have hbin : '.' ∈ ".bin".toList := by decide
  obtain ⟨-, -, rfl⟩ := BlobFiles.place_eq_ok_iff.mp h
  simp only [List.mem_cons, List.not_mem_nil, or_false] at hw
  rcases hw with rfl | rfl
  · rw [String.toList_append]
    exact List.mem_append_right _ hbin
  · rw [String.toList_append, String.toList_append]
    exact List.mem_append_left _ (List.mem_append_right _ hbin)

theorem above_of_directory_above {root blobs d : Path} {name : String} {content : Bytes} {id : Iri}
    (h : BlobFiles.place (Blake3.hexOf content) = .ok (d, name)) (hp : directory root id <+: blobs ++ d) :
    directory root id <+: blobs := by
  have hlong : ∀ n ∈ d, n.length ≤ 2 := by
    intro n hn
    rw [(BlobFiles.place_eq_ok_iff.mp h).2.1] at hn
    simp only [List.mem_cons, List.not_mem_nil, or_false] at hn
    rcases hn with rfl | rfl
    · rw [String.length_ofList, List.length_take]
      omega
    · rw [String.length_ofList, List.length_take]
      omega
  have hsplit : ∃ front : Path, ∃ hex : String, directory root id = front ++ [hex] ∧ hex.length = 64 := by
    refine ⟨root ++ _, _, (List.append_assoc root [_, _] [_]).symm, ?_⟩
    rw [String.length_ofList, Hex.length_encodeChars, Blake3.length_hash]
  obtain ⟨front, hex, hd, hlen⟩ := hsplit
  rw [hd] at hp ⊢
  exact FileTree.above_of_not_mem hp fun hmem => by
    have hshort := hlong hex hmem
    omega

/-- Every name of a directory is hexadecimal, and all of them take 71 bytes with their slashes. -/
theorem directoryOf_fit (id : Iri) : (∀ name ∈ directoryOf id, Fit name) ∧ width (directoryOf id) = 71 := by
  have hlen := Hex.length_encodeChars (Blake3.hash (Encoding.utf8 id.text))
  rw [Blake3.length_hash] at hlen
  have hdigits : ∀ c ∈ Hex.encodeChars (Blake3.hash (Encoding.utf8 id.text)), Hex.isDigit c = true :=
    fun c hc => Hex.isDigit_of_mem_encodeChars hc
  have hpairs := Hex.fit_pairs hdigits hlen
  obtain ⟨hfit, hsize⟩ := Hex.fit_ofList hdigits (List.ne_nil_of_length_pos (by omega)) (by rw [hlen]; decide)
  unfold directoryOf
  refine ⟨fun name hn => ?_, ?_⟩
  · rcases List.mem_append.mp (show name ∈ [_, _] ++ [_] from hn) with hn | hn
    · exact (hpairs name hn).1
    · rw [List.mem_singleton.mp hn]
      exact hfit
  · rw [width_cons, width_cons, width_cons, (hpairs _ List.mem_cons_self).2,
      (hpairs _ (List.mem_cons_of_mem _ List.mem_cons_self)).2, hsize, hlen]
    rfl

/-- A root for mementos: its names are fit for files, and there is room for a path below it. -/
structure Suits (root : Path) : Prop where
  fit : ∀ name ∈ root, Fit name
  room : width root + 115 ≤ longestPath

instance (root : Path) : Decidable (Suits root) :=
  decidable_of_iff ((∀ name ∈ root, Fit name) ∧ width root + 115 ≤ longestPath)
    ⟨fun h => ⟨h.1, h.2⟩, fun h => ⟨h.fit, h.room⟩⟩

theorem Suits.passable {root : Path} (hs : Suits root) (id : Iri) {name : String}
    (hn : Fit name ∧ name.utf8ByteSize ≤ 43) : Passable (directory root id ++ [name]) := by
  obtain ⟨hfit, hwidth⟩ := directoryOf_fit id
  refine ⟨fun n hmem => ?_, ?_⟩
  · rw [directory, List.append_assoc, List.mem_append, List.mem_append, List.mem_singleton] at hmem
    rcases hmem with hmem | hmem | rfl
    · exact hs.fit n hmem
    · exact hfit n hmem
    · exact hn.1
  · have hroom := hs.room
    have hlast : width [name] = 1 + name.utf8ByteSize := width_cons name []
    rw [directory, width_append, width_append, hwidth, hlast]
    omega

end MementoFiles

end LinkedData
