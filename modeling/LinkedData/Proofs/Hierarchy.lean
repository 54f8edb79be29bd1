/-
  LinkedData.Proofs.Hierarchy — identifiers and their parents.

  A valid identifier other than the root has a parent, one segment up, which is shorter than
  itself. Whether the last slash is looked for in the whole text or in the path makes no
  difference, whatever slashes the root has (`parent?_of_path?`).
-/

import LinkedData.Identifier

namespace LinkedData.Identifier

theorem beforeLastSlash_ne_none {cs : List Char} (h : '/' ∈ cs) : beforeLastSlash cs ≠ none := by
  induction cs with
  | nil => cases h
  | cons c cs ih =>
    unfold beforeLastSlash
    cases hb : beforeLastSlash cs with
    | some _ => simp
    | none =>
      rcases List.mem_cons.mp h with rfl | h
      · simp
      · exact absurd hb (ih h)

/-- The text splits at its last slash. -/
theorem eq_append_of_beforeLastSlash {cs front : List Char} (h : beforeLastSlash cs = some front) :
    ∃ last, cs = front ++ '/' :: last ∧ '/' ∉ last := by
  induction cs generalizing front with
  | nil => cases h
  | cons c cs ih =>
    unfold beforeLastSlash at h
    cases hb : beforeLastSlash cs with
    | some front' =>
      rw [hb] at h
      cases h
      obtain ⟨last, rfl, hl⟩ := ih hb
      exact ⟨last, rfl, hl⟩
    | none =>
      rw [hb] at h
      by_cases hc : c = '/'
      · simp only [hc, if_true, Option.some.injEq] at h
        subst h
        refine ⟨cs, by rw [hc]; rfl, fun hm => ?_⟩
        exact absurd hb (beforeLastSlash_ne_none hm)
      · simp [hc] at h

/-- The text of an identifier with a path is the root's text, then the path. -/
theorem toList_of_path? {root id : Iri} {path : List Char} (h : path? root id = .ok path) :
    id.text.toList = root.text.toList ++ path ∧ validPath path = true := by
  unfold path? at h
  by_cases hp : root.text.toList.isPrefixOf id.text.toList = true
  · simp only [hp, not_true_eq_false, if_false] at h
    obtain ⟨rest, hr⟩ := List.isPrefixOf_iff_prefix.mp hp
    rw [← hr, List.drop_left] at h
    split at h
    · next hv =>
      cases h
      exact ⟨hr.symm, hv⟩
    · cases h
  · rw [if_pos hp] at h
    cases h

theorem beforeLastSlash_eq_none_iff {cs : List Char} : beforeLastSlash cs = none ↔ '/' ∉ cs := by
  refine ⟨fun hb hm => beforeLastSlash_ne_none hm hb, fun h => ?_⟩
  cases hb : beforeLastSlash cs with
  | none => rfl
  | some front =>
    obtain ⟨last, rfl, -⟩ := eq_append_of_beforeLastSlash hb
    exact absurd (List.mem_append_right front List.mem_cons_self) h

theorem beforeLastSlash_append {front last : List Char} (h : '/' ∉ last) :
    beforeLastSlash (front ++ '/' :: last) = some front := by
  induction front with
  | nil => simp [beforeLastSlash, beforeLastSlash_eq_none_iff.mpr h]
  | cons c cs ih => rw [List.cons_append, beforeLastSlash, ih]

theorem byteLength_append (cs ds : List Char) : byteLength (cs ++ ds) = byteLength cs + byteLength ds := by
  induction cs with
  | nil => simp [byteLength]
  | cons c cs ih => rw [List.cons_append, byteLength, byteLength, ih, Nat.add_assoc]

/-- The last slash of the whole text stands behind the root just if there is one in the path. -/
theorem parent?_of_path? {root id : Iri} {path : List Char} (hne : id ≠ root) (hp : path? root id = .ok path) :
    parent? root id = .ok (some (match beforeLastSlash path with
      | some front => ⟨String.ofList (root.text.toList ++ front)⟩
      | none => root)) := by
  obtain ⟨htext, -⟩ := toList_of_path? hp
  simp only [parent?, validate, if_neg hne, hp, Except.map, htext]
  cases hb : beforeLastSlash path with
  | some front =>
    obtain ⟨last, rfl, hlast⟩ := eq_append_of_beforeLastSlash hb
    have hbehind : byteLength root.text.toList < byteLength (root.text.toList ++ front) + 1 := by
      rw [byteLength_append]
      omega
    rw [← List.append_assoc, beforeLastSlash_append hlast]
    simp only [if_pos hbehind]
  | none =>
    have hnone := beforeLastSlash_eq_none_iff.mp hb
    cases hroot : beforeLastSlash root.text.toList with
    | none =>
      have hslash := beforeLastSlash_eq_none_iff.mp hroot
      rw [beforeLastSlash_eq_none_iff.mpr (by simp [hslash, hnone])]
    | some front =>
      obtain ⟨last, hlast, hno⟩ := eq_append_of_beforeLastSlash hroot
      have hbefore : ¬ byteLength root.text.toList < byteLength front + 1 := by
        have hone : byteLength ['/'] = 1 := rfl
        rw [hlast, ← List.singleton_append, byteLength_append, byteLength_append]
        omega
      rw [hlast, List.append_assoc, List.cons_append, beforeLastSlash_append (by simp [hno, hnone]), ← hlast]
      simp only [if_neg hbefore]

theorem parent?_eq_some {root id p : Iri} (h : parent? root id = .ok (some p)) :
    id ≠ root ∧ ∃ path, path? root id = .ok path ∧
      (p = root ∨ ∃ front, beforeLastSlash path = some front ∧
        p = ⟨String.ofList (root.text.toList ++ front)⟩) := by
  by_cases hne : id = root
  · simp [parent?, validate, hne, Except.map] at h
  · refine ⟨hne, ?_⟩
    cases hp : path? root id with
    | error f =>
      simp only [parent?, validate, if_neg hne, hp] at h
      cases h
    | ok path =>
      rw [parent?_of_path? hne hp] at h
      refine ⟨path, rfl, ?_⟩
      cases hb : beforeLastSlash path with
      | none =>
        simp only [hb, Except.ok.injEq, Option.some.injEq] at h
        exact .inl h.symm
      | some front =>
        simp only [hb, Except.ok.injEq, Option.some.injEq] at h
        exact .inr ⟨front, rfl, h.symm⟩

theorem parent?_ne {root id p : Iri} (h : parent? root id = .ok (some p)) : p ≠ id := by
  obtain ⟨hne, path, hp, rfl | ⟨front, hf, rfl⟩⟩ := parent?_eq_some h
  · exact Ne.symm hne
  · intro he
    obtain ⟨last, rfl, -⟩ := eq_append_of_beforeLastSlash hf
    have hl := congrArg (fun i : Iri => i.text.toList.length) he
    rw [(toList_of_path? hp).1] at hl
    simp at hl

/-- A valid identifier below the root has a parent. -/
theorem exists_parent {root id : Iri} (hv : validate root id = .ok ()) (hne : id ≠ root) :
    ∃ p, parent? root id = .ok (some p) := by
  unfold validate at hv
  rw [if_neg hne] at hv
  cases hp : path? root id with
  | error f => rw [hp] at hv; cases hv
  | ok path => exact ⟨_, parent?_of_path? hne hp⟩

end LinkedData.Identifier
