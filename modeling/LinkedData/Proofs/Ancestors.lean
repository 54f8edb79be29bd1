/-
  LinkedData.Proofs.Ancestors — identifiers are the root and what is below it, segment by segment.

  Putting a segment below a valid identifier makes a valid one, and the parent takes it away again
  (`valid_below`, `parent?_below`); every valid identifier but the root has come about so
  (`exists_below`). No slash divides the root from what is below it, since the root's own text ends in
  one: the first segment follows the root at once, every other one a slash. Each step up takes one
  segment, so the root is met after as many steps as the path has segments (`identifiers_form_tree`).
-/

import LinkedData.Proofs.Hierarchy
import Mathlib.Data.List.Basic

namespace LinkedData.Identifier

/-- What may stand between two slashes. -/
structure Segment (s : String) : Prop where
  ne_empty : s ≠ ""
  slash : '/' ∉ s.toList
  hash : '#' ∉ s.toList

/-- The identifier that `s` names below `p`. -/
def below (root p : Iri) (s : String) : Iri := ⟨p.text ++ (if p = root then "" else "/") ++ s⟩

/-- The number of segments of the path; the root has no path. -/
def depth (root id : Iri) : Nat :=
  if id = root then 0 else (segments (id.text.toList.drop root.text.toList.length)).length

/-- What is met `n` steps up, if the root is not passed. -/
def ancestor? (root : Iri) : Nat → Iri → Except IdentifierFault (Option Iri)
  | 0, id => .ok (some id)
  | n + 1, id =>
    match parent? root id with
    | .error f => .error f
    | .ok none => .ok none
    | .ok (some p) => ancestor? root n p

/-! ## Segments -/

theorem segments_of_not_mem {s : List Char} (h : '/' ∉ s) : segments s = [s] := by
  induction s with
  | nil => rfl
  | cons c cs ih =>
    rw [List.mem_cons, not_or] at h
    rw [segments, if_neg (Ne.symm h.1), ih h.2]

theorem segments_ne_nil (cs : List Char) : segments cs ≠ [] := by
  cases cs with
  | nil => nofun
  | cons c cs =>
    unfold segments
    split
    · nofun
    · split <;> nofun

theorem segments_append (front : List Char) (back : List Char) :
    segments (front ++ '/' :: back) = segments front ++ segments back := by
  induction front with
  | nil => simp [segments]
  | cons c cs ih =>
    rw [List.cons_append, segments, segments, ih]
    split
    · rfl
    · cases h : segments cs with
      | nil => exact absurd h (segments_ne_nil cs)
      | cons s more => rfl

theorem validPath_append {front back : List Char} :
    validPath (front ++ '/' :: back) = true ↔ validPath front = true ∧ validPath back = true := by
  simp only [validPath, segments_append, List.all_append, List.contains_append, List.contains_cons, Bool.and_eq_true,
    Bool.not_eq_true', Bool.or_eq_false_iff]
  constructor
  · rintro ⟨⟨hf, -, hb⟩, hsf, hsb⟩
    exact ⟨⟨hf, hsf⟩, hb, hsb⟩
  · rintro ⟨⟨hf, hsf⟩, hb, hsb⟩
    exact ⟨⟨hf, by decide, hb⟩, hsf, hsb⟩

theorem validPath_of_not_mem {s : List Char} (h : '/' ∉ s) : validPath s = true ↔ s ≠ [] ∧ '#' ∉ s := by
  simp [validPath, segments_of_not_mem h, and_comm]

theorem ne_nil_of_validPath {path : List Char} (h : validPath path = true) : path ≠ [] := by
  rintro rfl
  cases h

theorem Segment.validPath {s : String} (h : Segment s) : validPath s.toList = true :=
  (validPath_of_not_mem h.slash).mpr ⟨fun he => h.ne_empty (String.toList_eq_nil_iff.mp he), h.hash⟩

/-! ## Identifiers and their paths -/

/-- The identifier of a path. -/
def place (root : Iri) (path : List Char) : Iri := ⟨String.ofList (root.text.toList ++ path)⟩

theorem toList_place (root : Iri) (path : List Char) : (place root path).text.toList = root.text.toList ++ path :=
  String.toList_ofList

theorem place_ne_root {root : Iri} {path : List Char} (h : path ≠ []) : place root path ≠ root := by
  intro he
  have hlist := congrArg (·.text.toList) he
  simp only [toList_place] at hlist
  exact h (List.append_right_eq_self.mp hlist)

theorem path?_place {root : Iri} {path : List Char} (h : validPath path = true) :
    path? root (place root path) = .ok path := by
  have hprefix : root.text.toList.isPrefixOf (root.text.toList ++ path) = true :=
    List.isPrefixOf_iff_prefix.mpr (List.prefix_append _ _)
  simp [path?, toList_place, hprefix, h]

theorem valid_root (root : Iri) : Valid root root := if_pos rfl

theorem valid_place {root : Iri} {path : List Char} (h : validPath path = true) : Valid root (place root path) := by
  rw [Valid, validate, if_neg (place_ne_root (ne_nil_of_validPath h)), path?_place h]
  rfl

/-- Every identifier but the root has a path. -/
theorem exists_path {root id : Iri} (hv : Valid root id) (hne : id ≠ root) :
    ∃ path, validPath path = true ∧ id = place root path := by
  rw [Valid, validate, if_neg hne] at hv
  cases hp : path? root id with
  | error f =>
    rw [hp] at hv
    cases hv
  | ok path =>
    obtain ⟨htext, hvalid⟩ := toList_of_path? hp
    refine ⟨path, hvalid, ?_⟩
    rw [place, ← htext, String.ofList_toList]

theorem depth_root (root : Iri) : depth root root = 0 := if_pos rfl

theorem depth_place {root : Iri} {path : List Char} (h : validPath path = true) :
    depth root (place root path) = (segments path).length := by
  rw [depth, if_neg (place_ne_root (ne_nil_of_validPath h)), toList_place, List.drop_left]

theorem parent?_place {root : Iri} {path : List Char} (h : validPath path = true) :
    parent? root (place root path) =
      .ok (some (match beforeLastSlash path with | some front => place root front | none => root)) :=
  parent?_of_path? (place_ne_root (ne_nil_of_validPath h)) (path?_place h)

/-! ## One segment down, and up again -/

theorem below_root (root : Iri) (s : String) : below root root s = place root s.toList := by
  simp [below, place]

theorem below_place {root : Iri} {path : List Char} (h : path ≠ []) (s : String) :
    below root (place root path) s = place root (path ++ '/' :: s.toList) := by
  rw [below, if_neg (place_ne_root h)]
  simp only [place, Iri.mk.injEq, ← String.toList_inj, String.toList_append, String.toList_ofList, List.append_assoc]
  rfl

/-- An identifier is the root, or has a path. -/
theorem valid_cases {root p : Iri} (h : Valid root p) :
    p = root ∨ ∃ path, validPath path = true ∧ p = place root path := by
  by_cases hp : p = root
  · exact .inl hp
  · exact .inr (exists_path h hp)

theorem valid_below {root p : Iri} {s : String} (h : Valid root p) (hs : Segment s) : Valid root (below root p s) := by
  rcases valid_cases h with rfl | ⟨path, hpath, rfl⟩
  · rw [below_root]
    exact valid_place hs.validPath
  · rw [below_place (ne_nil_of_validPath hpath)]
    exact valid_place (validPath_append.mpr ⟨hpath, hs.validPath⟩)

theorem parent?_below {root p : Iri} {s : String} (h : Valid root p) (hs : Segment s) :
    parent? root (below root p s) = .ok (some p) := by
  rcases valid_cases h with rfl | ⟨path, hpath, rfl⟩
  · rw [below_root, parent?_place hs.validPath, beforeLastSlash_eq_none_iff.mpr hs.slash]
  · rw [below_place (ne_nil_of_validPath hpath), parent?_place (validPath_append.mpr ⟨hpath, hs.validPath⟩),
      beforeLastSlash_append hs.slash]

theorem depth_below {root p : Iri} {s : String} (h : Valid root p) (hs : Segment s) :
    depth root (below root p s) = depth root p + 1 := by
  rcases valid_cases h with rfl | ⟨path, hpath, rfl⟩
  · rw [below_root, depth_place hs.validPath, depth_root, segments_of_not_mem hs.slash, List.length_singleton]
  · rw [below_place (ne_nil_of_validPath hpath), depth_place (validPath_append.mpr ⟨hpath, hs.validPath⟩),
      depth_place hpath, segments_append, segments_of_not_mem hs.slash, List.length_append, List.length_singleton]

theorem segment_ofList {s : List Char} (h : validPath s = true) (hs : '/' ∉ s) : Segment (String.ofList s) := by
  obtain ⟨hne, hhash⟩ := (validPath_of_not_mem hs).mp h
  refine ⟨fun he => hne ?_, by rwa [String.toList_ofList], by rwa [String.toList_ofList]⟩
  rw [← String.toList_ofList (l := s), he]
  rfl

/-- Every identifier but the root is a segment below another. -/
theorem exists_below {root id : Iri} (hv : Valid root id) (hne : id ≠ root) :
    ∃ p s, Valid root p ∧ Segment s ∧ id = below root p s := by
  obtain ⟨path, hpath, rfl⟩ := exists_path hv hne
  cases hb : beforeLastSlash path with
  | none =>
    have hslash := beforeLastSlash_eq_none_iff.mp hb
    refine ⟨root, String.ofList path, valid_root root, segment_ofList hpath hslash, ?_⟩
    rw [below_root, String.toList_ofList]
  | some front =>
    obtain ⟨last, rfl, hlast⟩ := eq_append_of_beforeLastSlash hb
    obtain ⟨hfront, hvalid⟩ := validPath_append.mp hpath
    refine ⟨place root front, String.ofList last, valid_place hfront, segment_ofList hvalid hlast, ?_⟩
    rw [below_place (ne_nil_of_validPath hfront), String.toList_ofList]

theorem length_lt_below (root p : Iri) {s : String} (h : Segment s) : p.text.length < (below root p s).text.length := by
  have hpos : s.length ≠ 0 := fun hlen => h.ne_empty (String.length_eq_zero_iff.mp hlen)
  simp only [below, String.length_append]
  omega

/-! ## All the way up -/

theorem depth_eq_zero_iff {root id : Iri} (hv : Valid root id) : depth root id = 0 ↔ id = root := by
  constructor
  · intro h
    by_contra hne
    obtain ⟨p, s, hp, hs, rfl⟩ := exists_below hv hne
    rw [depth_below hp hs] at h
    cases h
  · rintro rfl
    exact depth_root id

theorem exists_ancestor {root id : Iri} (hv : Valid root id) {n : Nat} (hn : n ≤ depth root id) :
    ∃ a, ancestor? root n id = .ok (some a) ∧ Valid root a ∧ depth root a + n = depth root id := by
  induction n generalizing id with
  | zero => exact ⟨id, rfl, hv, rfl⟩
  | succ n ih =>
    have hne : id ≠ root := by
      rintro rfl
      rw [depth_root] at hn
      cases hn
    obtain ⟨p, s, hp, hs, rfl⟩ := exists_below hv hne
    rw [depth_below hp hs] at hn ⊢
    obtain ⟨a, ha, hva, hdepth⟩ := ih hp (Nat.le_of_succ_le_succ hn)
    refine ⟨a, ?_, hva, by omega⟩
    rw [ancestor?, parent?_below hp hs]
    exact ha

/-- Whatever the root: an identifier below it is a segment below its parent, which is the root or valid
    itself, and shorter. Whatever is below a valid identifier by a segment is valid and has it as its
    parent. Going up from a valid identifier, only valid ones are met, and the root after as many steps as
    the path has segments, no sooner. -/
theorem identifiers_form_tree (root : Iri) :
    (∀ id, id ≠ root → Valid root id → ∃ p s, parent? root id = .ok (some p) ∧ (p = root ∨ Valid root p) ∧
      p.text.length < id.text.length ∧ Segment s ∧ id.text = p.text ++ (if p = root then "" else "/") ++ s) ∧
    (∀ p s, p = root ∨ Valid root p → Segment s →
      Valid root (below root p s) ∧ parent? root (below root p s) = .ok (some p)) ∧
    ∀ id, Valid root id → ancestor? root (depth root id) id = .ok (some root) ∧
      ∀ n ≤ depth root id, ∃ a, ancestor? root n id = .ok (some a) ∧ Valid root a ∧
        (a = root ↔ n = depth root id) := by
  refine ⟨fun id hne hv => ?_, fun p s hp hs => ?_, fun id hv => ?_⟩
  · obtain ⟨p, s, hp, hs, rfl⟩ := exists_below hv hne
    exact ⟨p, s, parent?_below hp hs, .inr hp, length_lt_below root p hs, hs, rfl⟩
  · have hv : Valid root p := by
      rcases hp with rfl | hp
      · exact valid_root p
      · exact hp
    exact ⟨valid_below hv hs, parent?_below hv hs⟩
  · have hmet : ∀ n ≤ depth root id, ∃ a, ancestor? root n id = .ok (some a) ∧ Valid root a ∧
        (a = root ↔ n = depth root id) := by
      intro n hn
      obtain ⟨a, ha, hva, hdepth⟩ := exists_ancestor hv hn
      refine ⟨a, ha, hva, ?_⟩
      rw [← depth_eq_zero_iff hva]
      omega
    obtain ⟨a, ha, -, hroot⟩ := hmet _ (Nat.le_refl _)
    rw [hroot.mpr rfl] at ha
    exact ⟨ha, hmet⟩

/-- Two segments below a root with slashes and a fragment of its own. -/
theorem nested_in_tree :
    let root : Iri := ⟨"http://example.org/#ldp/"⟩
    let c : Iri := ⟨"http://example.org/#ldp/c"⟩
    let id : Iri := ⟨"http://example.org/#ldp/c/日本"⟩
    id ≠ root ∧ Valid root c ∧ Segment "日本" ∧ below root c "日本" = id ∧ Valid root id ∧
      parent? root id = .ok (some c) ∧ depth root id = 2 ∧ ancestor? root 2 id = .ok (some root) := by
  intro root c id
  have hsegment : Segment "日本" := ⟨by decide, by decide, by decide⟩
  have hc : Valid root c := by decide
  have hbelow : below root c "日本" = id := by decide
  have hdepth : depth root id = 2 := by decide
  obtain ⟨-, hdown, hup⟩ := identifiers_form_tree root
  obtain ⟨hid, hparent⟩ := hdown c "日本" (.inr hc) hsegment
  rw [hbelow] at hid hparent
  have htop := (hup id hid).1
  rw [hdepth] at htop
  exact ⟨by decide, hc, hsegment, hbelow, hid, hparent, hdepth, htop⟩

end LinkedData.Identifier
