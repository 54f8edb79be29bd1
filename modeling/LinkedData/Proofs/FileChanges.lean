/-
  LinkedData.Proofs.FileChanges — what a change of a file tree leaves alone.

  An operation may fail, and then keeps what it did so far. Whether it fails or not, one that is
  given plain paths to some names in a directory changes nothing elsewhere: it may only make
  directories on the way where there was nothing (`Grown`, `Keeps`). This holds of each primitive
  change, and goes through sequences, repetitions and handlers (`Keeps.bind`, `keeps_forM`,
  `Keeps.tryCatch`), so it holds of the publication of a file (`keeps_publish`).
-/

import LinkedData.Proofs.FileTrees

namespace LinkedData.FileTree

open Std

variable {t : FileTree}

/-- `t'` is `t` with changes at some names in the directory `d`, and with directories made on the
    way there. -/
structure Grown (d : Path) (names : List String) (t t' : FileTree) : Prop where
  closed : Closed t'
  frame : ∀ q, (∀ name ∈ names, q ≠ d ++ [name]) →
    t'.entries[q]? = t.entries[q]? ∨ q <+: d ∧ t.entries[q]? = none ∧ t'.entries[q]? = some .directory

variable {d : Path} {names : List String}

theorem Grown.refl (hc : Closed t) : Grown d names t t := ⟨hc, fun _ _ => .inl rfl⟩

theorem Grown.trans {t' t'' : FileTree} (h : Grown d names t t') (h' : Grown d names t' t'') : Grown d names t t'' := by
  refine ⟨h'.closed, fun q hq => ?_⟩
  rcases h'.frame q hq with heq | ⟨hp, hnone, hdir⟩
  · rw [heq]
    exact h.frame q hq
  · rcases h.frame q hq with heq | ⟨-, -, hdir'⟩
    · exact .inr ⟨hp, heq ▸ hnone, hdir⟩
    · rw [hdir'] at hnone
      cases hnone

theorem Grown.insert {name : String} (hn : name ∈ names) {content : Bytes} (hc : Closed t) (hd : Holds t d)
    (h : t.entries[d ++ [name]]? ≠ some .directory) :
    Grown d names t ⟨t.entries.insert (d ++ [name]) (.file content)⟩ := by
  refine ⟨hc.insert hd (.inr h), fun q hq => .inl ?_⟩
  rw [getElem?_insert, if_neg (hq name hn).symm]

theorem Grown.erase {name : String} (hn : name ∈ names) {content : Bytes} (hc : Closed t)
    (h : t.entries[d ++ [name]]? = some (.file content)) : Grown d names t ⟨t.entries.erase (d ++ [name])⟩ := by
  refine ⟨hc.erase (hc.childless h), fun q hq => .inl ?_⟩
  rw [getElem?_erase, if_neg (hq name hn).symm]

/-- A directory on the way, where there was nothing. -/
theorem Grown.insert_above {above : Path} {name : String} (hc : Closed t) (hd : Holds t above)
    (hnone : t.entries[above ++ [name]]? = none) (hp : above ++ [name] <+: d) :
    Grown d names t ⟨t.entries.insert (above ++ [name]) .directory⟩ := by
  refine ⟨hc.insert hd (.inl rfl), fun q _ => ?_⟩
  rw [getElem?_insert]
  by_cases hsame : above ++ [name] = q
  · rw [if_pos hsame, ← hsame]
    exact .inr ⟨hp, hnone, rfl⟩
  · exact .inl (if_neg hsame)

/-- A change that keeps to some names in a directory, and to the way there. -/
def Keeps {α : Type} (d : Path) (names : List String) (m : FileM α) : Prop :=
  ∀ t, Closed t → Grown d names t (t.after m)

section

variable {α β : Type}

theorem keeps_pure (a : α) : Keeps d names (pure a) := fun _ hc => .refl hc

theorem keeps_throw (e : FileFault) : Keeps d names (throw e : FileM α) := fun _ hc => .refl hc

theorem Keeps.bind {m : FileM α} {f : α → FileM β} (hm : Keeps d names m) (hf : ∀ a, Keeps d names (f a)) :
    Keeps d names (m >>= f) := by
  intro t hc
  have hgrown := hm t hc
  unfold after at hgrown ⊢
  cases hrun : t.run m with
  | mk answer t' =>
    rw [hrun] at hgrown
    cases answer with
    | error e => rwa [run_bind_error hrun]
    | ok a =>
      rw [run_bind_ok hrun]
      exact hgrown.trans (hf a t' hgrown.closed)

theorem Keeps.tryCatch {m : FileM α} {handler : FileFault → FileM α} (hm : Keeps d names m)
    (hh : ∀ e, Keeps d names (handler e)) : Keeps d names (tryCatch m handler) := by
  intro t hc
  have hgrown := hm t hc
  unfold after run at hgrown ⊢
  show Grown d names t ((ExceptT.tryCatch m handler).run.run t).2
  unfold ExceptT.tryCatch
  simp only [ExceptT.run_mk, StateT.run_bind]
  cases hrun : StateT.run m t with
  | mk answer t' =>
    rw [show (StateT.run (ExceptT.run m) t) = _ from hrun] at hgrown
    cases answer with
    | ok a => exact hgrown
    | error e => exact hgrown.trans (hh e t' hgrown.closed)

theorem keeps_forM {γ : Type} {xs : List γ} {f : γ → FileM Unit} (hf : ∀ x ∈ xs, Keeps d names (f x)) :
    Keeps d names (forM xs f) := by
  induction xs with
  | nil => exact keeps_pure ()
  | cons x xs ih =>
    rw [List.forM_cons]
    exact (hf x List.mem_cons_self).bind fun _ => ih fun y hy => hf y (List.mem_cons_of_mem x hy)

end

/-! A path of plain names is changed at the place it spells, if it is changed at all. -/

theorem short_of_follow {base p q : Path} (hp : ∀ n ∈ p, Plain n) (h : t.follow base p = .ok q) :
    ∀ n ∈ p, n.utf8ByteSize ≤ longestName := by
  induction p generalizing base with
  | nil => exact List.forall_mem_nil _
  | cons name rest ih =>
    have hn := hp name List.mem_cons_self
    rw [follow, if_neg (by simp [hn.1]), if_neg hn.2] at h
    split at h
    · cases h
    · next hshort =>
      refine List.forall_mem_cons.mpr ⟨Nat.le_of_not_lt hshort, ?_⟩
      cases he : t.entries[base ++ [name]]? with
      | none =>
        rw [he] at h
        cases h
      | some e =>
        rw [he] at h
        cases e with
        | directory => exact ih (fun n hn => hp n (List.mem_cons_of_mem name hn)) h
        | file content =>
          dsimp only at h
          split at h
          · next hr => exact hr ▸ List.forall_mem_nil _
          · cases h

theorem passable_of_isSound {p : Path} (hp : ∀ n ∈ p, Plain n) (hs : isSound p = true)
    (hl : ∀ n ∈ p, n.utf8ByteSize ≤ longestName) : Passable p := by
  rw [isSound, Bool.and_eq_true, decide_eq_true_eq, List.all_eq_true] at hs
  exact ⟨fun n hn => ⟨hp n hn, hl n hn, by simpa using hs.2 n hn⟩, hs.1⟩

theorem slot_cases {d q : Path} {name : String} (hp : ∀ n ∈ d ++ [name], Plain n)
    (h : t.slot (d ++ [name]) = .ok q) :
    q = d ++ [name] ∧ Holds t d ∧ Passable (d ++ [name]) := by
  have hname := hp name (by simp)
  have hplain : ∀ n ∈ d, Plain n := fun n hn => hp n (List.mem_append_left _ hn)
  unfold slot at h
  rw [List.dropLast_concat, List.getLast?_concat] at h
  cases hsound : isSound (d ++ [name]) with
  | false =>
    rw [hsound] at h
    cases h
  | true =>
    rw [hsound] at h
    cases hlocate : t.locate d with
    | error e =>
      rw [hlocate] at h
      cases h
    | ok above =>
      have hshort : ∀ n ∈ d, n.utf8ByteSize ≤ longestName := by
        rw [locate] at hlocate
        split at hlocate
        · exact short_of_follow hplain hlocate
        · cases hlocate
      obtain ⟨rfl, hthere⟩ := eq_of_locate hplain hlocate
      simp only [hlocate, not_true_eq_false, if_false, bind, Except.bind] at h
      cases hat : t.at_ above with
      | file content =>
        rw [hat] at h
        cases h
      | directory =>
        simp only [hat, hname.1, hname.2, Bool.false_eq_true, or_self, if_false] at h
        split at h
        · cases h
        · next hlast =>
          refine ⟨(Except.ok.inj h).symm, ?_, passable_of_isSound hp hsound fun n hn => ?_⟩
          · by_cases hne : above = []
            · exact .inl hne
            · refine .inr ?_
              cases he : t.entries[above]? with
              | none => exact absurd he (hthere hne)
              | some e => rw [← hat, at_eq he]
          · rcases List.mem_append.mp hn with hn | hn
            · exact hshort n hn
            · rw [List.mem_singleton.mp hn]
              exact Nat.le_of_not_lt hlast

theorem run_fileSlot_cases {d : Path} {name : String} (hp : ∀ n ∈ d ++ [name], Plain n) :
    (∃ e, t.run (fileSlot (d ++ [name])) = (.error e, t)) ∨
      t.run (fileSlot (d ++ [name])) = (.ok (d ++ [name]), t) ∧ Holds t d ∧
        t.entries[d ++ [name]]? ≠ some .directory ∧ Passable (d ++ [name]) := by
  unfold fileSlot
  rw [run_bind_ok (run_get t)]
  cases hslot : t.slot (d ++ [name]) with
  | error e => exact .inl ⟨e, run_bind_error (run_lift t _)⟩
  | ok q =>
    obtain ⟨rfl, hd, hpass⟩ := slot_cases hp hslot
    rw [run_bind_ok (run_lift t _)]
    split
    · exact .inl ⟨_, rfl⟩
    · next h =>
      rw [not_or] at h
      exact .inr ⟨rfl, hd, h.1, hpass⟩

theorem file_of_readFile {p : Path} {content : Bytes} (hp : ∀ n ∈ p, Plain n)
    (h : t.readFile p = .ok content) : t.entries[p]? = some (.file content) := by
  unfold readFile entry at h
  cases hlocate : t.locate p with
  | error e =>
    rw [hlocate] at h
    cases h
  | ok q =>
    obtain ⟨rfl, -⟩ := eq_of_locate hp hlocate
    rw [hlocate] at h
    cases he : t.entries[q]? with
    | none =>
      rw [Except.map, at_, ExtTreeMap.getD_eq_getD_getElem?, he] at h
      cases h
    | some e =>
      rw [Except.map, at_eq he] at h
      cases e with
      | directory => cases h
      | file c =>
        cases h
        rfl

section

variable {name : String}

theorem keeps_writeFile (hp : ∀ n ∈ d ++ [name], Plain n) (hn : name ∈ names) (content : Bytes) :
    Keeps d names (writeFile (d ++ [name]) content) := by
  intro t hc
  unfold after writeFile
  rcases run_fileSlot_cases (t := t) hp with ⟨e, hslot⟩ | ⟨hslot, hd, hfree, -⟩
  · rw [run_bind_error hslot]
    exact .refl hc
  · rw [run_bind_ok hslot]
    exact .insert hn hc hd hfree

theorem keeps_removeFile (hp : ∀ n ∈ d ++ [name], Plain n) (hn : name ∈ names) :
    Keeps d names (removeFile (d ++ [name])) := by
  intro t hc
  unfold after removeFile
  rw [run_bind_ok (run_get t)]
  cases hread : t.readFile (d ++ [name]) with
  | error e =>
    rw [run_bind_error (run_lift t _)]
    exact .refl hc
  | ok content =>
    rw [run_bind_ok (run_lift t _)]
    rcases run_fileSlot_cases (t := t) hp with ⟨e, hslot⟩ | ⟨hslot, -, -⟩
    · rw [run_bind_error hslot]
      exact .refl hc
    · rw [run_bind_ok hslot]
      exact .erase hn hc (file_of_readFile hp hread)

theorem keeps_rename {other : String} (hp : ∀ n ∈ d ++ [name], Plain n) (hq : ∀ n ∈ d ++ [other], Plain n)
    (hn : name ∈ names) (hother : other ∈ names) : Keeps d names (rename (d ++ [name]) (d ++ [other])) := by
  intro t hc
  unfold after rename
  rw [run_bind_ok (run_get t)]
  cases hread : t.readFile (d ++ [name]) with
  | error e =>
    rw [run_bind_error (run_lift t _)]
    exact .refl hc
  | ok content =>
    rw [run_bind_ok (run_lift t _)]
    rcases run_fileSlot_cases (t := t) hp with ⟨e, hslot⟩ | ⟨hslot, hd, -⟩
    · rw [run_bind_error hslot]
      exact .refl hc
    · rw [run_bind_ok hslot]
      rcases run_fileSlot_cases (t := t) hq with ⟨e, hslot'⟩ | ⟨hslot', -, hfree, -⟩
      · rw [run_bind_error hslot']
        exact .refl hc
      · rw [run_bind_ok hslot']
        have herased : Grown d names t ⟨t.entries.erase (d ++ [name])⟩ := .erase hn hc (file_of_readFile hp hread)
        refine herased.trans (.insert hother herased.closed (hd.imp_right fun h => ?_) ?_)
        · rw [getElem?_erase, if_neg fun he => not_prefix_concat d name (by rw [he]), h]
        · rw [getElem?_erase]
          split
          · nofun
          · exact hfree

end

theorem keeps_ensureDirectory {above : Path} {name : String} (hp : ∀ n ∈ above ++ [name], Plain n)
    (hd : above ++ [name] <+: d) : Keeps d names (ensureDirectory (above ++ [name])) := by
  intro t hc
  unfold after ensureDirectory
  rw [run_bind_ok (run_get t)]
  split
  · exact .refl hc
  · rw [createDirectory, run_bind_ok (run_get t)]
    cases hslot : t.slot (above ++ [name]) with
    | error e =>
      rw [run_bind_error (run_lift t _)]
      exact .refl hc
    | ok q =>
      obtain ⟨rfl, habove, -⟩ := slot_cases hp hslot
      rw [run_bind_ok (run_lift t _)]
      split
      · exact .refl hc
      · next h =>
        rw [not_or, Option.not_isSome_iff_eq_none] at h
        exact .insert_above hc habove h.2 hd

theorem keeps_createDirectories (hp : ∀ n ∈ d, Plain n) : Keeps d names (createDirectories d) := by
  have hstages : Keeps d names (forM (stages d) ensureDirectory) := by
    refine keeps_forM fun q hq => ?_
    rw [stages_eq hp] at hq
    obtain ⟨k, -, rfl⟩ := List.mem_map.mp hq
    have habove : d.take k <+: d := List.take_prefix k d
    generalize d.take k = q at habove
    induction q using List.reverseRecOn with
    | nil =>
      intro t hc
      rw [after, run_ensureDirectory_top hc]
      exact .refl hc
    | append_singleton above name => exact keeps_ensureDirectory (fun n hn => hp n (habove.subset hn)) habove
  unfold createDirectories
  split
  · exact keeps_throw _
  · exact hstages

theorem keeps_plant {name : String} (hp : ∀ n ∈ d ++ [name], Plain n) (hn : name ∈ names) (content : Bytes) :
    Keeps d names (plant (d ++ [name]) content) := by
  unfold plant
  rw [List.dropLast_concat]
  exact (keeps_createDirectories fun n hn => hp n (List.mem_append_left _ hn)).bind fun _ =>
    keeps_writeFile hp hn content

/-- A publication changes a file, and the one that it is while it is written. -/
theorem keeps_publish {name : String} (hp : ∀ n ∈ d ++ [name], Plain n)
    (ht : ∀ n ∈ d ++ [name ++ ".tmp"], Plain n) (content : Bytes) :
    Keeps d [name, name ++ ".tmp"] (publish d name content) := by
  have hname : name ∈ [name, name ++ ".tmp"] := List.mem_cons_self
  have htemporary : name ++ ".tmp" ∈ [name, name ++ ".tmp"] := List.mem_cons_of_mem _ (List.mem_singleton_self _)
  refine (keeps_createDirectories fun n hn => hp n (List.mem_append_left _ hn)).bind fun _ => ?_
  refine (keeps_writeFile ht htemporary content).bind fun _ => ?_
  refine (keeps_rename ht hp htemporary hname).tryCatch fun fault => ?_
  refine ((keeps_removeFile ht htemporary).tryCatch fun _ => keeps_pure ()).bind fun _ => keeps_throw fault

end LinkedData.FileTree
