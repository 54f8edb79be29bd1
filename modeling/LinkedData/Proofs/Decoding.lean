/-
  LinkedData.Proofs.Decoding — what was encoded is decoded.

  A decoder gives back what was written and the bytes after it (`Reads`), whatever these are. It
  does so for everything that takes less than 2^64 bytes, which is what a length can say: a part
  is not longer than the whole, and a list has no more entries than bytes. The rule of each form
  follows from the rules of its parts, in the order in which they stand, up to resources
  (`reads_resource`), whose times must be instants of the calendar.
-/

import LinkedData.Encoding.Record
import LinkedData.Proofs.Dates

namespace LinkedData.Encoding

open Std

/-- What `f` writes of `a` is read by `d`, with any bytes after it. -/
def Reads {α : Type} (f : α → Bytes) (d : Bytes → Option (α × Bytes)) (a : α) : Prop :=
  (f a).length < 2 ^ 64 → ∀ rest, d (f a ++ rest) = some (a, rest)

/-! ## Numbers and text -/

@[simp] theorem length_number (width n : Nat) : (number width n).length = width := by
  induction width generalizing n with
  | zero => rfl
  | succ width ih => simp [number, ih]

theorem decodeNumber_number {width n : Nat} (h : n < 256 ^ width) (rest : Bytes) :
    decodeNumber width (number width n ++ rest) = some (n, rest) := by
  induction width generalizing n with
  | zero =>
    obtain rfl : n = 0 := by simpa using h
    rfl
  | succ width ih =>
    have hhigh : n / 256 < 256 ^ width := by
      rw [pow_succ] at h
      exact Nat.div_lt_of_lt_mul (by rwa [Nat.mul_comm] at h)
    rw [number, List.cons_append, decodeNumber]
    refine bind_of_eq_some (ih hhigh) ?_
    simp only [UInt8.toNat_ofNat', Option.some.injEq, Prod.mk.injEq, and_true]
    omega

theorem decodeNumber_size {n : Nat} (h : n < 2 ^ 64) (rest : Bytes) :
    decodeNumber 8 (size n ++ rest) = some (n, rest) := decodeNumber_number h rest

theorem decodeNumber_tag {n : Nat} (h : n < 2 ^ 32) (rest : Bytes) :
    decodeNumber 4 (tag n ++ rest) = some (n, rest) := decodeNumber_number h rest

@[simp] theorem length_size (n : Nat) : (size n).length = 8 := length_number 8 n

@[simp] theorem length_tag (n : Nat) : (tag n).length = 4 := length_number 4 n

theorem ofUtf8?_utf8 (s : String) : ofUtf8? (utf8 s) = some s := by
  have hvalid := s.isValidUTF8
  unfold ofUtf8? utf8
  simp only [String.fromUTF8?, String.toUTF8_eq_toByteArray, Array.toArray_toList, hvalid, dite_true]
  rfl

theorem reads_text (s : String) : Reads text decodeText s := by
  intro h rest
  rw [text, List.length_append] at h
  rw [text, List.append_assoc]
  refine bind_of_eq_some (decodeNumber_size (by omega) _) ?_
  have htake : takeBytes (utf8 s).length (utf8 s ++ rest) = some (utf8 s, rest) := by
    simp [takeBytes]
  exact bind_of_eq_some htake (bind_of_eq_some (ofUtf8?_utf8 s) rfl)

/-! ## Alternatives, options and lists -/

section

variable {α : Type} {f : α → Bytes} {d : Bytes → Option (α × Bytes)}

theorem length_of_tagged {n : Nat} {bs : Bytes} (h : (tag n ++ bs).length < 2 ^ 64) : bs.length < 2 ^ 64 := by
  rw [List.length_append] at h
  omega

/-- The fields of an alternative. -/
theorem Reads.map {β : Type} {a : α} (h : Reads f d a) (g : α → β) (hl : (f a).length < 2 ^ 64) (rest : Bytes) :
    (d (f a ++ rest)).map (fun r => (g r.1, r.2)) = some (g a, rest) := by
  rw [h hl]
  rfl

theorem reads_option {o : Option α} (ho : ∀ a ∈ o, Reads f d a) : Reads (option f) (decodeOption d) o := by
  intro h rest
  cases o with
  | none => rfl
  | some a =>
    rw [option, List.length_cons] at h
    rw [option, List.cons_append, decodeOption]
    exact bind_of_eq_some (ho a rfl (by omega) rest) rfl

theorem length_le_flatMap {as : List α} (hpos : ∀ a ∈ as, f a ≠ []) : as.length ≤ (as.flatMap f).length := by
  induction as with
  | nil => exact Nat.le_refl 0
  | cons a as ih =>
    have hfirst := List.length_pos_iff.mpr (hpos a List.mem_cons_self)
    have hrest := ih fun b hb => hpos b (List.mem_cons_of_mem a hb)
    rw [List.flatMap_cons, List.length_append, List.length_cons]
    omega

theorem decodeMany_flatMap {as : List α} (h : ∀ a ∈ as, Reads f d a) (hl : (as.flatMap f).length < 2 ^ 64)
    (rest : Bytes) :
    decodeMany d as.length (as.flatMap f ++ rest) = some (as, rest) := by
  induction as with
  | nil => rfl
  | cons a as ih =>
    rw [List.flatMap_cons, List.length_append] at hl
    rw [List.flatMap_cons, List.append_assoc, List.length_cons, decodeMany]
    refine bind_of_eq_some (h a List.mem_cons_self (by omega) _) ?_
    exact bind_of_eq_some (ih (fun b hb => h b (List.mem_cons_of_mem a hb)) (by omega)) rfl

theorem reads_list {as : List α} (h : ∀ a ∈ as, Reads f d a) (hpos : ∀ a ∈ as, f a ≠ []) :
    Reads (list f) (decodeList d) as := by
  intro hl rest
  have hcount := length_le_flatMap hpos
  rw [list, List.length_append] at hl
  rw [list, List.append_assoc]
  exact bind_of_eq_some (decodeNumber_size (by omega) _) (decodeMany_flatMap h (by omega) rest)

end

/-! ## Terms and graphs -/

theorem reads_iri (i : Iri) : Reads iri decodeIri i := by
  intro h rest
  exact bind_of_eq_some (reads_text i.text h rest) rfl

theorem reads_blank (b : BlankNode) : Reads blank decodeBlank b := by
  intro _ rest
  rw [blank, List.append_assoc]
  refine bind_of_eq_some (decodeNumber_number b.scope.toNat_lt _) ?_
  refine bind_of_eq_some (decodeNumber_number b.index.toNat_lt _) ?_
  simp

theorem reads_literal (l : Literal) : Reads literal decodeLiteral l := by
  intro h rest
  rw [literal, List.length_append, List.length_append] at h
  rw [literal, List.append_assoc, List.append_assoc]
  refine bind_of_eq_some (reads_text _ (by omega) _) ?_
  refine bind_of_eq_some (reads_iri _ (by omega) _) ?_
  exact bind_of_eq_some (reads_option (fun s _ => reads_text s) (by omega) rest) rfl

theorem reads_subject (s : Subject) : Reads subject decodeSubject s := by
  intro h rest
  cases s with
  | iri i =>
    rw [subject] at h
    rw [subject, List.append_assoc]
    refine bind_of_eq_some (decodeNumber_tag (by decide) _) ?_
    exact (reads_iri i).map Subject.iri (length_of_tagged h) rest
  | blank b =>
    rw [subject] at h
    rw [subject, List.append_assoc]
    refine bind_of_eq_some (decodeNumber_tag (by decide) _) ?_
    exact (reads_blank b).map Subject.blank (length_of_tagged h) rest

theorem reads_term (t : Term) : Reads term decodeTerm t := by
  intro h rest
  cases t with
  | iri i =>
    rw [term] at h
    rw [term, List.append_assoc]
    refine bind_of_eq_some (decodeNumber_tag (by decide) _) ?_
    exact (reads_iri i).map Term.iri (length_of_tagged h) rest
  | blank b =>
    rw [term] at h
    rw [term, List.append_assoc]
    refine bind_of_eq_some (decodeNumber_tag (by decide) _) ?_
    exact (reads_blank b).map Term.blank (length_of_tagged h) rest
  | literal l =>
    rw [term] at h
    rw [term, List.append_assoc]
    refine bind_of_eq_some (decodeNumber_tag (by decide) _) ?_
    exact (reads_literal l).map Term.literal (length_of_tagged h) rest

theorem reads_triple (t : Triple) : Reads triple decodeTriple t := by
  intro h rest
  rw [triple, List.length_append, List.length_append] at h
  rw [triple, List.append_assoc, List.append_assoc]
  refine bind_of_eq_some (reads_subject _ (by omega) _) ?_
  refine bind_of_eq_some (reads_iri _ (by omega) _) ?_
  exact bind_of_eq_some (reads_term _ (by omega) rest) rfl

theorem triple_ne_nil (t : Triple) : triple t ≠ [] := by
  have hlen : 4 ≤ (triple t).length := by
    rw [triple, List.length_append, List.length_append]
    cases t.subject <;> simp only [subject, List.length_append, length_tag] <;> omega
  exact List.ne_nil_of_length_pos (by omega)

/-- A graph is its triples. -/
theorem ofList_toList (g : Graph) : Graph.ofList g.toList = g := by
  refine ExtTreeSet.ext_mem fun t => ?_
  rw [Graph.ofList, ExtTreeSet.mem_ofList, List.contains_iff_mem, ExtTreeSet.mem_toList]

theorem reads_graph (g : Graph) : Reads graph decodeGraph g := by
  intro h rest
  refine bind_of_eq_some (reads_list (fun t _ => reads_triple t) (fun t _ => triple_ne_nil t) h rest) ?_
  dsimp only
  rw [ofList_toList]

theorem reads_graphName (n : GraphName) : Reads graphName decodeGraphName n := by
  intro h rest
  cases n with
  | none => exact bind_of_eq_some (decodeNumber_tag (by decide) _) rfl
  | some i =>
    rw [graphName] at h
    rw [graphName, List.append_assoc]
    refine bind_of_eq_some (decodeNumber_tag (by decide) _) ?_
    exact (reads_iri i).map some (length_of_tagged h) rest

theorem reads_namedGraph (e : GraphName × Graph) : Reads namedGraph decodeNamedGraph e := by
  intro h rest
  rw [namedGraph, List.length_append] at h
  rw [namedGraph, List.append_assoc]
  refine bind_of_eq_some (reads_graphName _ (by omega) _) ?_
  exact bind_of_eq_some (reads_graph _ (by omega) rest) rfl

theorem namedGraph_ne_nil (e : GraphName × Graph) : namedGraph e ≠ [] := by
  have hlen : 4 ≤ (namedGraph e).length := by
    rw [namedGraph, List.length_append]
    cases e.1 <;> simp only [graphName, List.length_append, length_tag] <;> omega
  exact List.ne_nil_of_length_pos (by omega)

/-- A map is its entries. -/
theorem ofList_toList_map (m : ExtTreeMap GraphName Graph compare) : ExtTreeMap.ofList m.toList compare = m := by
  refine ExtTreeMap.ext_getElem? fun k => ?_
  cases hk : m[k]? with
  | some g =>
    exact ExtTreeMap.getElem?_ofList_of_mem ReflCmp.compare_self ExtTreeMap.distinct_keys_toList
      (ExtTreeMap.mem_toList_iff_getElem?_eq_some.mpr hk)
  | none =>
    refine ExtTreeMap.getElem?_ofList_of_contains_eq_false ?_
    rw [← Bool.not_eq_true, List.contains_iff_mem]
    intro hmem
    obtain ⟨⟨k', g⟩, he, rfl⟩ := List.mem_map.mp hmem
    rw [ExtTreeMap.mem_toList_iff_getElem?_eq_some.mp he] at hk
    cases hk

theorem reads_dataset (d : Dataset) : Reads dataset decodeDataset d := by
  intro h rest
  refine bind_of_eq_some (reads_list (fun e _ => reads_namedGraph e) (fun e _ => namedGraph_ne_nil e) h rest) ?_
  dsimp only
  rw [ofList_toList_map]

/-! ## Resources -/

theorem reads_model (m : InteractionModel) : Reads model decodeModel m := by
  intro _ rest
  have hnumber : modelNumber m < 2 ^ 32 := by cases m <;> decide
  refine bind_of_eq_some (decodeNumber_tag hnumber rest) ?_
  cases m <;> rfl

theorem reads_instant {t : Instant} (ht : t.Valid) : Reads instant decodeInstant t := by
  intro h rest
  refine bind_of_eq_some (reads_text _ h rest) ?_
  exact bind_of_eq_some (Instant.readRelaxed_write_stored ht) rfl

theorem reads_binary (b : Binary) : Reads binary decodeBinary b := by
  intro h rest
  rw [binary, List.length_append, List.length_append, List.length_append] at h
  rw [binary, List.append_assoc, List.append_assoc, List.append_assoc]
  refine bind_of_eq_some (reads_iri _ (by omega) _) ?_
  refine bind_of_eq_some (reads_option (fun s _ => reads_text s) (by omega) _) ?_
  refine bind_of_eq_some (decodeNumber_number b.size.toNat_lt _) ?_
  refine bind_of_eq_some (reads_text _ (by omega) rest) ?_
  simp

/-- A resource whose time is in the calendar is read back. -/
theorem reads_resource {r : Resource} (ht : r.modified.Valid) : Reads resource decodeResource r := by
  intro h rest
  rw [resource, List.length_append, List.length_append, List.length_append, List.length_append] at h
  rw [resource, List.append_assoc, List.append_assoc, List.append_assoc, List.append_assoc]
  refine bind_of_eq_some (reads_iri _ (by omega) _) ?_
  refine bind_of_eq_some (reads_model _ (by omega) _) ?_
  refine bind_of_eq_some (reads_dataset _ (by omega) _) ?_
  refine bind_of_eq_some (reads_instant ht (by omega) _) ?_
  exact bind_of_eq_some (reads_option (fun b _ => reads_binary b) (by omega) rest) rfl

end LinkedData.Encoding
