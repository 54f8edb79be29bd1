/-
  LinkedData.Proofs.FileTrees — what the operations on a file tree do at plain paths.

  A tree is closed when every entry is in a directory. In a closed tree a path of plain names
  leads to the place it spells, if there is anything there (`follow_found`), and to nothing else
  (`eq_of_follow`). From that, each operation is one insertion or removal at its path:
  `run_createDirectories`, `run_publish`, `run_removeFile`, `after_removeDirectory`.
-/

import LinkedData.FileTree
import Mathlib.Data.List.Infix
import Mathlib.Data.List.Nodup

namespace LinkedData.FileTree

open Std

/-! ## Closed trees -/

/-- Every entry is in a directory, and the top has none. -/
structure Closed (t : FileTree) : Prop where
  top : t.entries[([] : Path)]? = none
  parent : ∀ (p : Path) (name : String), t.entries[p ++ [name]]? ≠ none → p ≠ [] → t.entries[p]? = some .directory

/-- A directory is there. -/
def Holds (t : FileTree) (d : Path) : Prop := d = [] ∨ t.entries[d]? = some .directory

/-- No file is on the way to `p`, or at it. -/
def Clear (t : FileTree) (p : Path) : Prop :=
  ∀ q : Path, q <+: p → ∀ content, t.entries[q]? ≠ some (.file content)

/-- A name that is followed as it is, if it is not too long. -/
def Plain (name : String) : Prop := isHere name = false ∧ name ≠ ".."

/-- A name that a file can have. -/
structure Fit (name : String) : Prop where
  plain : Plain name
  short : name.utf8ByteSize ≤ longestName
  noZero : '\x00' ∉ name.toList

instance (name : String) : Decidable (Plain name) := inferInstanceAs (Decidable (_ ∧ _))

instance (name : String) : Decidable (Fit name) :=
  decidable_of_iff (Plain name ∧ name.utf8ByteSize ≤ longestName ∧ '\x00' ∉ name.toList)
    ⟨fun h => ⟨h.1, h.2.1, h.2.2⟩, fun h => ⟨h.plain, h.short, h.noZero⟩⟩

/-- A path that can be gone. -/
structure Passable (p : Path) : Prop where
  fit : ∀ name ∈ p, Fit name
  short : width p ≤ longestPath

variable {t : FileTree}

theorem closed_empty : Closed empty := ⟨by simp [empty], fun p name h => by simp [empty] at h⟩

theorem Closed.above (h : Closed t) {p rest : Path} (hp : p ≠ []) (hr : rest ≠ [])
    (hx : t.entries[p ++ rest]? ≠ none) : t.entries[p]? = some .directory := by
  induction rest using List.reverseRecOn with
  | nil => exact absurd rfl hr
  | append_singleton rest name ih =>
    have hdir : t.entries[p ++ rest]? = some .directory := by
      refine h.parent (p ++ rest) name (by rwa [List.append_assoc]) ?_
      simp [hp]
    by_cases hrest : rest = []
    · rwa [hrest, List.append_nil] at hdir
    · exact ih hrest (by rw [hdir]; exact Option.some_ne_none _)

theorem Clear.upTo {p q : Path} (h : Clear t p) (hq : q <+: p) : Clear t q :=
  fun r hr => h r (hr.trans hq)

/-- A place on a clear way is a directory, or empty. -/
theorem Clear.entry {p q : Path} (h : Clear t p) (hq : q <+: p) :
    t.entries[q]? = none ∨ t.entries[q]? = some .directory := by
  cases he : t.entries[q]? with
  | none => exact .inl rfl
  | some e =>
    cases e with
    | directory => exact .inr rfl
    | file content => exact absurd he (h q hq content)

theorem getElem?_insert (t : FileTree) (p q : Path) (e : Entry) :
    (t.entries.insert p e)[q]? = if p = q then some e else t.entries[q]? := by
  simp [ExtTreeMap.getElem?_insert, LawfulEqCmp.compare_eq_iff_eq]

theorem getElem?_erase (t : FileTree) (p q : Path) :
    (t.entries.erase p)[q]? = if p = q then none else t.entries[q]? := by
  simp [ExtTreeMap.getElem?_erase, LawfulEqCmp.compare_eq_iff_eq]

/-- The way to a directory is clear. -/
theorem Holds.clear (hc : Closed t) {d : Path} (h : Holds t d) : Clear t d := by
  intro q ⟨rest, hq⟩ content hf
  have hne : q ≠ [] := by
    rintro rfl
    rw [hc.top] at hf
    cases hf
  rcases h with rfl | h
  · exact hne (List.append_eq_nil_iff.mp hq).1
  · by_cases hr : rest = []
    · rw [hr, List.append_nil] at hq
      rw [hq, h] at hf
      cases hf
    · rw [hc.above hne hr (by rw [hq, h]; exact Option.some_ne_none _)] at hf
      cases hf

/-! ## Following -/

/-- Where a path of plain names leads is spelled by its names, and is there. -/
theorem eq_of_follow {base p q : Path} (hp : ∀ name ∈ p, Plain name) (h : t.follow base p = .ok q) :
    q = base ++ p ∧ (p ≠ [] → t.entries[q]? ≠ none) := by
  induction p generalizing base with
  | nil =>
    have hq : base = q := Except.ok.inj h
    exact ⟨by rw [← hq, List.append_nil], fun hne => absurd rfl hne⟩
  | cons name rest ih =>
    have hn := hp name List.mem_cons_self
    rw [follow, if_neg (by simp [hn.1]), if_neg hn.2] at h
    split at h
    · cases h
    · cases he : t.entries[base ++ [name]]? with
      | none =>
        rw [he] at h
        cases h
      | some e =>
        rw [he] at h
        cases e with
        | directory =>
          obtain ⟨hq, hthere⟩ := ih (fun n hn => hp n (List.mem_cons_of_mem name hn)) h
          refine ⟨by rw [hq, List.append_assoc]; rfl, fun _ => ?_⟩
          by_cases hr : rest = []
          · rw [hq, hr, List.append_nil, he]
            exact Option.some_ne_none _
          · exact hthere hr
        | file content =>
          dsimp only at h
          split at h
          · next hr =>
            cases h
            exact ⟨by rw [hr], fun _ => by rw [he]; exact Option.some_ne_none _⟩
          · cases h

theorem eq_of_locate {p q : Path} (hp : ∀ name ∈ p, Plain name) (h : t.locate p = .ok q) :
    q = p ∧ (p ≠ [] → t.entries[q]? ≠ none) := by
  unfold locate at h
  split at h
  · exact eq_of_follow hp h
  · cases h

theorem follow_found (hc : Closed t) {base p : Path} (hp : ∀ name ∈ p, Fit name)
    (h : p ≠ [] → t.entries[base ++ p]? ≠ none) : t.follow base p = .ok (base ++ p) := by
  induction p generalizing base with
  | nil => rw [List.append_nil, follow]
  | cons name rest ih =>
    have hfit := hp name List.mem_cons_self
    have hthere : t.entries[base ++ [name] ++ rest]? ≠ none := by
      rw [List.append_assoc]
      exact h (List.cons_ne_nil _ _)
    rw [follow, if_neg (by simp [hfit.plain.1]), if_neg hfit.plain.2, if_neg (Nat.not_lt.mpr hfit.short)]
    have hnext : t.follow (base ++ [name]) rest = .ok (base ++ name :: rest) := by
      rw [ih (fun n hn => hp n (List.mem_cons_of_mem name hn)) fun _ => hthere, List.append_assoc]
      rfl
    by_cases hr : rest = []
    · subst hr
      rw [List.append_nil] at hthere
      cases he : t.entries[base ++ [name]]? with
      | none => exact absurd he hthere
      | some e =>
        cases e with
        | directory => exact hnext
        | file content => exact if_pos rfl
    · rw [hc.above (by simp) hr hthere]
      exact hnext

theorem follow_missing {base p : Path} (hp : ∀ name ∈ p, Fit name) (hne : p ≠ [])
    (hclear : ∀ q, q <+: p → q ≠ p → ∀ content, t.entries[base ++ q]? ≠ some (.file content))
    (h : t.entries[base ++ p]? = none) : t.follow base p = .error .notFound := by
  induction p generalizing base with
  | nil => exact absurd rfl hne
  | cons name rest ih =>
    have hfit := hp name List.mem_cons_self
    rw [follow, if_neg (by simp [hfit.plain.1]), if_neg hfit.plain.2, if_neg (Nat.not_lt.mpr hfit.short)]
    cases he : t.entries[base ++ [name]]? with
    | none => rfl
    | some e =>
      have hr : rest ≠ [] := by
        intro hr
        rw [hr, he] at h
        cases h
      cases e with
      | file content =>
        refine absurd he (hclear [name] ⟨rest, rfl⟩ ?_ content)
        simpa using hr.symm
      | directory =>
        refine ih (fun n hn => hp n (List.mem_cons_of_mem name hn)) hr (fun q hq hqr content => ?_) ?_
        · have hstep := hclear (name :: q) (List.cons_prefix_cons.mpr ⟨rfl, hq⟩) (by simpa using hqr) content
          rwa [List.append_assoc]
        · rwa [List.append_assoc]

/-! ## Paths that can be gone -/

theorem width_cons (name : String) (p : Path) : width (name :: p) = 1 + name.utf8ByteSize + width p := by
  have hfold : ∀ (p : Path) (n : Nat), p.foldl (fun n name => n + 1 + name.utf8ByteSize) n = n + width p := by
    intro p
    induction p with
    | nil => exact fun n => rfl
    | cons name rest ih =>
      intro n
      rw [width, List.foldl_cons, List.foldl_cons, ih, ih]
      omega
  rw [width, List.foldl_cons, hfold, Nat.zero_add]

theorem width_append (p q : Path) : width (p ++ q) = width p + width q := by
  induction p with
  | nil => exact (Nat.zero_add _).symm
  | cons name p ih =>
    rw [List.cons_append, width_cons, width_cons, ih]
    omega

theorem Passable.upTo {p q : Path} (h : Passable p) (hq : q <+: p) : Passable q := by
  obtain ⟨rest, rfl⟩ := hq
  refine ⟨fun name hn => h.fit name (List.mem_append_left _ hn), ?_⟩
  have hshort := h.short
  rw [width_append] at hshort
  omega

theorem Passable.isSound {p : Path} (h : Passable p) : isSound p = true := by
  rw [FileTree.isSound, Bool.and_eq_true, decide_eq_true_eq, List.all_eq_true]
  refine ⟨h.short, fun name hn => ?_⟩
  simpa using (h.fit name hn).noZero

theorem locate_found (hc : Closed t) {p : Path} (hp : Passable p) (h : p ≠ [] → t.entries[p]? ≠ none) :
    t.locate p = .ok p := by
  rw [locate, if_pos hp.isSound]
  exact follow_found hc hp.fit h

theorem locate_missing {d : Path} {name : String} (hp : Passable (d ++ [name])) (hclear : Clear t d)
    (h : t.entries[d ++ [name]]? = none) : t.locate (d ++ [name]) = .error .notFound := by
  rw [locate, if_pos hp.isSound]
  refine follow_missing hp.fit (by simp) (fun q hq hne content => ?_) h
  rcases List.prefix_concat_iff.mp hq with rfl | hq
  · exact absurd rfl hne
  · exact hclear q hq content

theorem at_eq {p : Path} {e : Entry} (h : t.entries[p]? = some e) : t.at_ p = e := by
  rw [at_, ExtTreeMap.getD_eq_getD_getElem?, h]
  rfl

theorem Holds.at_ (hc : Closed t) {d : Path} (h : Holds t d) : t.at_ d = .directory := by
  rcases h with rfl | h
  · rw [FileTree.at_, ExtTreeMap.getD_eq_getD_getElem?, hc.top]
    rfl
  · exact at_eq h

theorem Holds.locate (hc : Closed t) {d : Path} (hd : Passable d) (h : Holds t d) : t.locate d = .ok d := by
  refine locate_found hc hd fun hne => ?_
  rcases h with rfl | h
  · exact absurd rfl hne
  · rw [h]
    exact Option.some_ne_none _

theorem readFile_of_file (hc : Closed t) {p : Path} {content : Bytes} (hp : Passable p)
    (h : t.entries[p]? = some (.file content)) : t.readFile p = .ok content := by
  have hlocate := locate_found hc hp fun _ => by rw [h]; exact Option.some_ne_none _
  rw [readFile, entry, hlocate, Except.map, at_eq h]

theorem readFile_of_missing {d : Path} {name : String} (hp : Passable (d ++ [name])) (hclear : Clear t d)
    (h : t.entries[d ++ [name]]? = none) : t.readFile (d ++ [name]) = .error .notFound := by
  rw [readFile, entry, locate_missing hp hclear h, Except.map]

/-- The names in a directory. -/
def names (t : FileTree) (d : Path) : List String :=
  t.entries.keys.filterMap fun k => if k.dropLast = d then k.getLast? else none

theorem mem_names {d : Path} {name : String} : name ∈ t.names d ↔ t.entries[d ++ [name]]? ≠ none := by
  rw [names, List.mem_filterMap]
  constructor
  · rintro ⟨k, hk, hname⟩
    split at hname
    · next hd =>
      rw [← hd, List.dropLast_append_getLast? name hname]
      rw [ExtTreeMap.mem_keys, ExtTreeMap.mem_iff_isSome_getElem?] at hk
      exact Option.isSome_iff_ne_none.mp hk
    · cases hname
  · intro h
    refine ⟨d ++ [name], ?_, by simp⟩
    rw [ExtTreeMap.mem_keys, ExtTreeMap.mem_iff_isSome_getElem?]
    exact Option.isSome_iff_ne_none.mpr h

theorem nodup_names (t : FileTree) (d : Path) : (t.names d).Nodup := by
  refine List.Nodup.filterMap (fun k k' name hk hk' => ?_) ExtTreeMap.nodup_keys
  split at hk
  · next hd =>
    split at hk'
    · next hd' =>
      rw [← List.dropLast_append_getLast? name hk, ← List.dropLast_append_getLast? name hk', hd, hd']
    · cases hk'
  · cases hk

theorem list_of_directory (hc : Closed t) {d : Path} (hd : Passable d) (h : Holds t d) :
    t.list d = .ok (t.names d) := by
  rw [list, h.locate hc hd]
  dsimp only
  rw [h.at_ hc]
  rfl

theorem list_of_missing {d : Path} {name : String} (hp : Passable (d ++ [name])) (hclear : Clear t d)
    (h : t.entries[d ++ [name]]? = none) : t.list (d ++ [name]) = .error .notFound := by
  rw [list, locate_missing hp hclear h]

/-! ## Running -/

section

variable {α β : Type}

theorem run_bind_ok {m : FileM α} {f : α → FileM β} {t t' : FileTree} {a : α} (h : t.run m = (.ok a, t')) :
    t.run (m >>= f) = t'.run (f a) := by
  unfold run at h ⊢
  simp only [ExceptT.run_bind, StateT.run_bind]
  rw [h]
  rfl

theorem run_bind_error {m : FileM α} {f : α → FileM β} {t t' : FileTree} {e : FileFault}
    (h : t.run m = (.error e, t')) : t.run (m >>= f) = (.error e, t') := by
  unfold run at h ⊢
  simp only [ExceptT.run_bind, StateT.run_bind]
  rw [h]
  rfl

theorem run_get (t : FileTree) : t.run (get : FileM FileTree) = (.ok t, t) := rfl

theorem run_lift (t : FileTree) (x : Except FileFault α) : t.run (liftM x : FileM α) = (x, t) := rfl

theorem run_tryCatch_ok {m : FileM α} {handler : FileFault → FileM α} {t t' : FileTree} {a : α}
    (h : t.run m = (.ok a, t')) : t.run (tryCatch m handler) = (.ok a, t') := by
  unfold run at h ⊢
  show ((ExceptT.tryCatch m handler).run).run t = _
  unfold ExceptT.tryCatch
  simp only [ExceptT.run_mk, StateT.run_bind]
  rw [show StateT.run m t = _ from h]
  rfl

end

theorem slot_eq (hc : Closed t) {d : Path} {name : String} (hp : Passable (d ++ [name])) (hd : Holds t d) :
    t.slot (d ++ [name]) = .ok (d ++ [name]) := by
  have hfit := hp.fit name (by simp)
  have hlocate := hd.locate hc (hp.upTo (List.prefix_append d [name]))
  unfold slot
  rw [List.dropLast_concat, List.getLast?_concat, hp.isSound, hlocate]
  simp only [not_true_eq_false, if_false, bind, Except.bind, hd.at_ hc, hfit.plain.1, hfit.plain.2,
    Nat.not_lt.mpr hfit.short, Bool.false_eq_true, or_self]
  rfl

theorem run_fileSlot (hc : Closed t) {d : Path} {name : String} (hp : Passable (d ++ [name])) (hd : Holds t d)
    (hn : t.entries[d ++ [name]]? ≠ some .directory) : t.run (fileSlot (d ++ [name])) = (.ok (d ++ [name]), t) := by
  unfold fileSlot
  rw [run_bind_ok (run_get t), slot_eq hc hp hd, run_bind_ok (run_lift t _), if_neg (by simp [hn])]
  rfl

theorem run_writeFile (hc : Closed t) {d : Path} {name : String} (hp : Passable (d ++ [name])) (hd : Holds t d)
    (hn : t.entries[d ++ [name]]? ≠ some .directory) (content : Bytes) :
    t.run (writeFile (d ++ [name]) content) = (.ok (), ⟨t.entries.insert (d ++ [name]) (.file content)⟩) := by
  unfold writeFile
  rw [run_bind_ok (run_fileSlot hc hp hd hn)]
  rfl

theorem run_removeFile (hc : Closed t) {d : Path} {name : String} {content : Bytes} (hp : Passable (d ++ [name]))
    (hd : Holds t d) (h : t.entries[d ++ [name]]? = some (.file content)) :
    t.run (removeFile (d ++ [name])) = (.ok (), ⟨t.entries.erase (d ++ [name])⟩) := by
  unfold removeFile
  rw [run_bind_ok (run_get t), readFile_of_file hc hp h, run_bind_ok (run_lift t _),
    run_bind_ok (run_fileSlot hc hp hd (by rw [h]; nofun))]
  rfl

theorem run_removeFile_missing {d : Path} {name : String} (hp : Passable (d ++ [name])) (hclear : Clear t d)
    (h : t.entries[d ++ [name]]? = none) : t.run (removeFile (d ++ [name])) = (.error .notFound, t) := by
  unfold removeFile
  rw [run_bind_ok (run_get t), readFile_of_missing hp hclear h, run_bind_error (run_lift t _)]

theorem run_rename (hc : Closed t) {d : Path} {name other : String} {content : Bytes} (hp : Passable (d ++ [name]))
    (hq : Passable (d ++ [other])) (hd : Holds t d) (h : t.entries[d ++ [name]]? = some (.file content))
    (hn : t.entries[d ++ [other]]? ≠ some .directory) :
    t.run (rename (d ++ [name]) (d ++ [other])) =
      (.ok (), ⟨(t.entries.erase (d ++ [name])).insert (d ++ [other]) (.file content)⟩) := by
  unfold rename
  rw [run_bind_ok (run_get t), readFile_of_file hc hp h, run_bind_ok (run_lift t _),
    run_bind_ok (run_fileSlot hc hp hd (by rw [h]; nofun)), run_bind_ok (run_fileSlot hc hq hd hn)]
  rfl

/-! ## Closed trees after a change -/

theorem Closed.childless (hc : Closed t) {p : Path} {content : Bytes} (h : t.entries[p]? = some (.file content))
    (name : String) : t.entries[p ++ [name]]? = none := by
  by_contra hx
  have hne : p ≠ [] := by
    rintro rfl
    rw [hc.top] at h
    cases h
  rw [hc.parent p name hx hne] at h
  cases h

theorem Closed.insert (hc : Closed t) {d : Path} {name : String} {e : Entry} (hd : Holds t d)
    (h : e = .directory ∨ t.entries[d ++ [name]]? ≠ some .directory) :
    Closed ⟨t.entries.insert (d ++ [name]) e⟩ := by
  refine ⟨?_, fun p other hx hp => ?_⟩
  · rw [getElem?_insert, if_neg (by simp), hc.top]
  · rw [getElem?_insert] at hx ⊢
    by_cases hsame : d ++ [name] = p ++ [other]
    · obtain ⟨rfl, -⟩ := List.append_inj' hsame rfl
      rw [if_neg (by simp)]
      exact hd.resolve_left hp
    · rw [if_neg hsame] at hx
      have hdir := hc.parent p other hx hp
      split
      · next he =>
        rcases h with rfl | h
        · rfl
        · exact absurd (he ▸ hdir) h
      · exact hdir

theorem Closed.erase (hc : Closed t) {p : Path} (h : ∀ name, t.entries[p ++ [name]]? = none) :
    Closed ⟨t.entries.erase p⟩ := by
  refine ⟨?_, fun q name hx hq => ?_⟩
  · rw [getElem?_erase, hc.top, ite_self]
  · rw [getElem?_erase] at hx ⊢
    split at hx
    · exact absurd rfl hx
    · rw [if_neg]
      · exact hc.parent q name hx hq
      · rintro rfl
        exact hx (h name)

/-! ## Making directories -/

theorem stages_eq {p : Path} (hp : ∀ name ∈ p, Plain name) :
    stages p = (List.range (p.length + 1)).map (p.take ·) := by
  cases h : p.getLast? with
  | none => rw [stages, h]
  | some name =>
    have hplain := (hp name (List.mem_of_getLast? h)).1
    rw [stages, h]
    split
    · next he => cases he; cases hplain
    · next he => cases he; cases hplain
    · rfl

theorem stages_concat {d : Path} {name : String} (hp : ∀ n ∈ d ++ [name], Plain n) :
    stages (d ++ [name]) = stages d ++ [d ++ [name]] := by
  rw [stages_eq hp, stages_eq fun n hn => hp n (List.mem_append_left _ hn), List.length_append, List.length_singleton,
    List.range_succ, List.map_append, List.map_singleton]
  congr 1
  · refine List.map_congr_left fun k hk => ?_
    exact List.take_append_of_le_length (Nat.lt_succ_iff.mp (List.mem_range.mp hk))
  · rw [List.take_of_length_le (by simp)]

theorem run_ensureDirectory (hc : Closed t) {d : Path} {name : String} (hp : Passable (d ++ [name])) (hd : Holds t d)
    (h : t.entries[d ++ [name]]? = none ∨ t.entries[d ++ [name]]? = some .directory) :
    ∃ t', t.run (ensureDirectory (d ++ [name])) = (.ok (), t') ∧ Closed t' ∧
      ∀ q, t'.entries[q]? = if q = d ++ [name] then some .directory else t.entries[q]? := by
  unfold ensureDirectory
  rw [run_bind_ok (run_get t)]
  rcases h with h | h
  · have hmissing : t.isDirectory (d ++ [name]) = false := by
      rw [isDirectory, entry, locate_missing hp (hd.clear hc) h]
      rfl
    rw [hmissing, if_neg (by simp), createDirectory, run_bind_ok (run_get t), slot_eq hc hp hd,
      run_bind_ok (run_lift t _), if_neg (by simp [h])]
    refine ⟨_, rfl, hc.insert hd (.inl rfl), fun q => ?_⟩
    rw [getElem?_insert]
    simp only [eq_comm]
  · have hthere : t.isDirectory (d ++ [name]) = true := by
      rw [isDirectory, entry, locate_found hc hp fun _ => by rw [h]; nofun, Except.map, at_eq h]
      rfl
    rw [hthere, if_pos rfl]
    refine ⟨t, rfl, hc, fun q => ?_⟩
    split
    · next hq => rw [hq, h]
    · rfl

theorem run_ensureDirectory_top (hc : Closed t) : t.run (ensureDirectory []) = (.ok (), t) := by
  have hp : Passable [] := ⟨nofun, Nat.zero_le _⟩
  have hholds : Holds t [] := .inl rfl
  have htop : t.isDirectory [] = true := by
    rw [isDirectory, entry, hholds.locate hc hp, Except.map, hholds.at_ hc]
    rfl
  rw [ensureDirectory, run_bind_ok (run_get t), htop]
  rfl

theorem run_stages (hc : Closed t) {p : Path} (hp : Passable p) (hclear : Clear t p) :
    ∃ t', t.run (forM (stages p) ensureDirectory) = (.ok (), t') ∧ Closed t' ∧
      ∀ q, t'.entries[q]? = if q ≠ [] ∧ q <+: p then some .directory else t.entries[q]? := by
  induction p using List.reverseRecOn with
  | nil =>
    refine ⟨t, ?_, hc, fun q => ?_⟩
    · show t.run (do ensureDirectory []; pure ()) = _
      rw [run_bind_ok (run_ensureDirectory_top hc)]
      rfl
    · rw [if_neg (fun h => h.1 (List.prefix_nil.mp h.2))]
  | append_singleton d name ih =>
    have habove : d <+: d ++ [name] := List.prefix_append d [name]
    obtain ⟨t', hrun, hc', hentries⟩ := ih (hp.upTo habove) (hclear.upTo habove)
    have hd : Holds t' d := by
      by_cases hd : d = []
      · exact .inl hd
      · exact .inr (by rw [hentries, if_pos ⟨hd, List.prefix_refl d⟩])
    have hlast : t'.entries[d ++ [name]]? = t.entries[d ++ [name]]? := by
      rw [hentries, if_neg]
      rintro ⟨-, h⟩
      have hlen := h.length_le
      rw [List.length_append, List.length_singleton] at hlen
      omega
    obtain ⟨t'', hrun', hc'', hentries'⟩ := run_ensureDirectory hc' hp hd (hlast ▸ hclear.entry (List.prefix_refl _))
    refine ⟨t'', ?_, hc'', fun q => ?_⟩
    · rw [stages_concat fun n hn => (hp.fit n hn).plain, List.forM_append, run_bind_ok hrun]
      show t'.run (do ensureDirectory (d ++ [name]); pure ()) = _
      rw [run_bind_ok hrun']
      rfl
    · rw [hentries', hentries]
      by_cases hq : q = d ++ [name]
      · rw [if_pos hq, if_pos ⟨by rw [hq]; simp, by rw [hq]⟩]
      · rw [if_neg hq]
        simp only [List.prefix_concat_iff, hq, false_or]

theorem run_createDirectories (hc : Closed t) {p : Path} (hp : Passable p) (hclear : Clear t p) :
    ∃ t', t.run (createDirectories p) = (.ok (), t') ∧ Closed t' ∧
      ∀ q, t'.entries[q]? = if q ≠ [] ∧ q <+: p then some .directory else t.entries[q]? := by
  unfold createDirectories
  rw [hp.isSound]
  exact run_stages hc hp hclear

theorem not_prefix_concat (d : Path) (name : String) : ¬ d ++ [name] <+: d := by
  intro h
  have hlen := h.length_le
  rw [List.length_append, List.length_singleton] at hlen
  omega

/-- What ends in a name that `r` has not got and begins `q ++ r` begins `q`. -/
theorem above_of_not_mem {p q r : Path} {name : String} (h : p ++ [name] <+: q ++ r) (hn : name ∉ r) :
    p ++ [name] <+: q := by
  rcases List.prefix_or_prefix_of_prefix h (List.prefix_append q r) with hq | ⟨s, hs⟩
  · exact hq
  · rw [← hs, List.prefix_append_right_inj] at h
    rcases List.eq_nil_or_concat s with rfl | ⟨front, last, rfl⟩
    · rw [← hs, List.append_nil]
    · rw [List.concat_eq_append, ← List.append_assoc] at hs
      obtain ⟨-, hlast⟩ := List.append_inj' hs rfl
      rw [List.concat_eq_append] at h
      exact absurd (h.subset (by rw [hlast]; simp)) hn

/-- A file is published: it is there, nothing is beside it under its temporary name, the directories
    above it were made, and all else is as it was. -/
theorem run_publish (hc : Closed t) {d : Path} {name : String} (hp : Passable (d ++ [name]))
    (ht : Passable (d ++ [name ++ ".tmp"])) (hclear : Clear t d) (hn : t.entries[d ++ [name]]? ≠ some .directory)
    (htn : t.entries[d ++ [name ++ ".tmp"]]? ≠ some .directory) (content : Bytes) :
    ∃ t', t.run (publish d name content) = (.ok (), t') ∧ Closed t' ∧
      ∀ q, t'.entries[q]? =
        if q = d ++ [name] then some (.file content)
        else if q = d ++ [name ++ ".tmp"] then none
        else if q ≠ [] ∧ q <+: d then some .directory else t.entries[q]? := by
  obtain ⟨t₁, hmade, hc₁, h₁⟩ := run_createDirectories hc (hp.upTo (List.prefix_append d [name])) hclear
  have hd₁ : Holds t₁ d := by
    by_cases hd : d = []
    · exact .inl hd
    · exact .inr (by rw [h₁, if_pos ⟨hd, List.prefix_refl d⟩])
  have hsame : ∀ n, t₁.entries[d ++ [n]]? = t.entries[d ++ [n]]? := fun n => by
    rw [h₁, if_neg fun h => not_prefix_concat d n h.2]
  have hplaces : d ++ [name ++ ".tmp"] ≠ d ++ [name] := by
    intro h
    simp at h
  have hbelow : ∀ n, d ++ [n] ≠ d := fun n h => not_prefix_concat d n (by rw [h])
  have hc₂ : Closed ⟨t₁.entries.insert (d ++ [name ++ ".tmp"]) (.file content)⟩ :=
    hc₁.insert hd₁ (.inr (by rwa [hsame]))
  have hwritten := run_writeFile hc₁ ht hd₁ (by rwa [hsame]) content
  generalize ht₂ : (⟨t₁.entries.insert (d ++ [name ++ ".tmp"]) (.file content)⟩ : FileTree) = t₂ at hc₂ hwritten
  have h₂ : ∀ q, t₂.entries[q]? = if d ++ [name ++ ".tmp"] = q then some (.file content) else t₁.entries[q]? := by
    intro q
    rw [← ht₂, getElem?_insert]
  have hd₂ : Holds t₂ d := hd₁.imp_right fun h => by
    rw [h₂, if_neg (hbelow _), h]
  have htarget : t₂.entries[d ++ [name]]? ≠ some .directory := by rwa [h₂, if_neg hplaces, hsame]
  have htemporary : t₂.entries[d ++ [name ++ ".tmp"]]? = some (.file content) := by rw [h₂, if_pos rfl]
  have hmoved := run_rename hc₂ ht hp hd₂ htemporary htarget
  have hc₃ := hc₂.erase (hc₂.childless htemporary)
  have hd₃ : Holds ⟨t₂.entries.erase (d ++ [name ++ ".tmp"])⟩ d := hd₂.imp_right fun h => by
    rw [getElem?_erase, if_neg (hbelow _), h]
  refine ⟨⟨(t₂.entries.erase (d ++ [name ++ ".tmp"])).insert (d ++ [name]) (.file content)⟩, ?_,
    hc₃.insert hd₃ (.inr ?_), fun q => ?_⟩
  · unfold publish
    rw [run_bind_ok hmade, run_bind_ok hwritten]
    exact run_tryCatch_ok hmoved
  · rw [getElem?_erase, if_neg hplaces]
    exact htarget
  · rw [getElem?_insert ⟨t₂.entries.erase (d ++ [name ++ ".tmp"])⟩, getElem?_erase, h₂, h₁]
    simp only [eq_comm (a := q)]
    split
    · rfl
    · split <;> rfl

/-- The publication of a file that is not on the way leaves the way clear. -/
theorem Clear.of_published {d p : Path} {name : String} {content : Bytes} {t' : FileTree} (h : Clear t p)
    (hentries : ∀ q, t'.entries[q]? =
      if q = d ++ [name] then some (.file content)
      else if q = d ++ [name ++ ".tmp"] then none
      else if q ≠ [] ∧ q <+: d then some .directory else t.entries[q]?)
    (hn : ¬ d ++ [name] <+: p) : Clear t' p := by
  intro q hq c hf
  rw [hentries] at hf
  split at hf
  · next heq => exact hn (heq ▸ hq)
  · split at hf
    · cases hf
    · split at hf
      · cases hf
      · exact h q hq c hf

theorem after_removeDirectory (hc : Closed t) {d : Path} (hd : Passable d) (h : Holds t d) :
    t.after (removeDirectory d) = if t.names d = [] then ⟨t.entries.erase d⟩ else t := by
  unfold after removeDirectory
  rw [run_bind_ok (run_get t), list_of_directory hc hd h, run_bind_ok (run_lift t _)]
  by_cases hempty : t.names d = []
  · rw [if_neg (by simp [hempty]), h.locate hc hd, run_bind_ok (run_lift t _), if_pos hempty]
    rfl
  · rw [if_pos hempty, if_neg hempty]
    rfl

end LinkedData.FileTree
