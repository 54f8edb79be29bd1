/-
  LinkedData.Proofs.Histories — a directory of mementos is a map from identifiers and times to states.

  `Keeps root known files h` says that the files below `root` hold the histories `h` of the
  identifiers in `known`: one file for each time, and no other file. As long as the hashes of these
  identifiers differ, writing a memento sets one entry of the map (`put_keeps`), deleting one clears
  it (`delete_keeps`), and each says truly whether it did; a listing is the times of an identifier in
  order (`list_eq`), and the state as of a time is read from the latest one until then (`get_eq`).
  Changes elsewhere in the tree are not seen (`Keeps.of_grown`), so an archive keeps its histories
  while blobs are stored in it, in the same place or in another.
-/

import LinkedData.Archive.Files
import LinkedData.Proofs.Decoding
import LinkedData.Proofs.FileChanges
import LinkedData.Proofs.FileNames
import LinkedData.Proofs.Instants
import Mathlib.Data.Set.Function

namespace LinkedData

open Std

/-! ## Histories as files -/

/-- States by identifier and time. -/
abbrev Histories := Iri → Instant → Option Resource

/-- The histories with another entry for an identifier and a time. -/
def Histories.set (h : Histories) (id : Iri) (t : Instant) (o : Option Resource) : Histories :=
  fun x s => if x = id ∧ s = t then o else h x s

theorem Histories.eq_set {h h' : Histories} {id : Iri} {t : Instant} {o : Option Resource} (hkey : h' id t = o)
    (helse : ∀ x s, ¬ (x = id ∧ s = t) → h' x s = h x s) : h' = h.set id t o := by
  funext x s
  unfold Histories.set
  split
  · next heq => rw [heq.1, heq.2, hkey]
  · next hne => exact helse x s hne

/-- A state that is read back from its bytes. -/
def Resource.Readable (r : Resource) : Prop := r.modified.Valid ∧ (Encoding.resource r).length < 2 ^ 64

instance (r : Resource) : Decidable r.Readable := inferInstanceAs (Decidable (_ ∧ _))

namespace MementoFiles

open FileTree

/-- The files below `root` hold the histories `h` of the identifiers that are `known`. -/
structure Keeps (root : Path) (known : Set Iri) (files : FileTree) (h : Histories) : Prop where
  closed : files.Closed
  clear : ∀ id, files.Clear (directory root id)
  filed : ∀ id ∈ known, ∀ t, t.Valid →
    files.entries[path root id t]? = (h id t).map fun r => .file (Encoding.resource r)
  named : ∀ id ∈ known, ∀ name, files.entries[directory root id ++ [name]]? ≠ none →
    ∃ t, t.Valid ∧ name = fileName t
  dated : ∀ id t r, h id t = some r → t.Valid ∧ r.Readable

/-- No two of the identifiers have the same hash. -/
def Apart (known : Set Iri) : Prop := known.InjOn fun id => Blake3.hash (Encoding.utf8 id.text)

theorem apart_of_nodup {known : Set Iri} {ids : List Iri} (hids : ∀ id ∈ known, id ∈ ids)
    (hn : (ids.map fun id => Blake3.hash (Encoding.utf8 id.text)).Nodup) : Apart known := by
  intro id hid id' hid' heq
  exact List.inj_on_of_nodup_map hn (hids id hid) (hids id' hid') heq

/-- Nothing is in any directory of mementos, and no file is on the way there. -/
theorem keeps_empty {root : Path} {files : FileTree} (hc : files.Closed)
    (hclear : ∀ id, files.Clear (directory root id))
    (hnone : ∀ id name, files.entries[directory root id ++ [name]]? = none) (known : Set Iri) :
    Keeps root known files fun _ _ => none where
  closed := hc
  clear := hclear
  filed id _ t _ := hnone id _
  named id _ name hn := absurd (hnone id name) hn
  dated _ _ _ hr := by cases hr

variable {root : Path} {known : Set Iri} {files : FileTree} {h : Histories}

theorem Apart.path_inj (ha : Apart known) {id id' : Iri} {name name' : String} (hid : id ∈ known)
    (hid' : id' ∈ known) (heq : directory root id ++ [name] = directory root id' ++ [name']) :
    id = id' ∧ name = name' := by
  obtain ⟨hd, hn⟩ := List.append_inj' heq rfl
  exact ⟨ha hid hid' (hash_eq_of_directoryOf (List.append_cancel_left hd)), by simpa using hn⟩

/-- A directory is no file of any identifier, nor above one that is as deep. -/
theorem not_prefix_directory (root : Path) (id id' : Iri) (name : String) :
    ¬ directory root id ++ [name] <+: directory root id' := by
  intro hp
  have hlen := hp.length_le
  rw [List.length_append, length_directory, length_directory, List.length_singleton] at hlen
  omega

theorem Keeps.temporary (hk : Keeps root known files h) {id : Iri} (hid : id ∈ known) (t : Instant) :
    files.entries[directory root id ++ [fileName t ++ ".tmp"]]? = none := by
  by_contra hn
  obtain ⟨u, -, hu⟩ := hk.named id hid _ hn
  exact fileName_ne_temporary u t hu.symm

theorem directory_ne_nil (root : Path) (id : Iri) : directory root id ≠ [] := by
  intro hnil
  have hlen := length_directory root id
  rw [hnil] at hlen
  cases hlen

theorem Keeps.directory_holds (hk : Keeps root known files h) {id : Iri} {name : String}
    (hn : files.entries[directory root id ++ [name]]? ≠ none) : files.Holds (directory root id) :=
  .inr (hk.closed.parent _ name hn (directory_ne_nil root id))

/-! ### Writing -/

theorem put_keeps (hs : Suits root) (ha : Apart known) (hk : Keeps root known files h) {id : Iri} (hid : id ∈ known)
    {t : Instant} (ht : t.Valid) {r : Resource} (hr : r.Readable) :
    ∃ files', put root files id t r = (.ok (), files') ∧ Keeps root known files' (h.set id t (some r)) := by
  have hentry : files.entries[path root id t]? ≠ some .directory := by
    rw [hk.filed id hid t ht]
    cases h id t <;> nofun
  obtain ⟨files', hrun, hc, hentries⟩ := run_publish hk.closed (hs.passable id (fit_fileName ht))
    (hs.passable id (fit_temporary ht)) (hk.clear id) hentry (by rw [hk.temporary hid]; nofun) (Encoding.resource r)
  refine ⟨files', ?_, hc, fun id' => ?_, fun id' hid' u hu => ?_, fun id' hid' name hn => ?_, ?_⟩
  · unfold put
    rw [hrun]
    rfl
  · exact (hk.clear id').of_published hentries (not_prefix_directory root id id' _)
  · rw [hentries]
    unfold Histories.set path
    by_cases hsame : id' = id ∧ u = t
    · obtain ⟨rfl, rfl⟩ := hsame
      rw [if_pos rfl, if_pos ⟨rfl, rfl⟩]
      rfl
    · rw [if_neg hsame, if_neg, if_neg, if_neg fun hp => not_prefix_directory root id' id _ hp.2]
      · exact hk.filed id' hid' u hu
      · exact fun heq => fileName_ne_temporary u t (ha.path_inj hid' hid heq).2
      · exact fun heq => hsame ⟨(ha.path_inj hid' hid heq).1, fileName_injective hu ht (ha.path_inj hid' hid heq).2⟩
  · rw [hentries] at hn
    split at hn
    · next heq => exact ⟨t, ht, (ha.path_inj hid' hid heq).2⟩
    · split at hn
      · exact absurd rfl hn
      · rw [if_neg fun hp => not_prefix_directory root id' id _ hp.2] at hn
        exact hk.named id' hid' name hn
  · intro id' u r' hr'
    unfold Histories.set at hr'
    split at hr'
    · next hsame =>
      cases hr'
      exact ⟨hsame.2 ▸ ht, hr⟩
    · exact hk.dated id' u r' hr'

/-! ### Deleting -/

/-- A memento's file is gone. -/
theorem Keeps.without_file (hk : Keeps root known files h) (ha : Apart known) {id : Iri} (hid : id ∈ known)
    {t : Instant} (ht : t.Valid) {content : Bytes} (hfile : files.entries[path root id t]? = some (.file content)) :
    Keeps root known ⟨files.entries.erase (path root id t)⟩ (h.set id t none) := by
  refine ⟨hk.closed.erase (hk.closed.childless hfile), fun id' q hq content' hf => ?_, fun id' hid' u hu => ?_,
    fun id' hid' name hn => ?_, fun id' u r hr => ?_⟩
  · rw [getElem?_erase] at hf
    split at hf
    · cases hf
    · exact hk.clear id' q hq content' hf
  · rw [getElem?_erase]
    unfold Histories.set
    by_cases hsame : id' = id ∧ u = t
    · rw [if_pos (by rw [hsame.1, hsame.2]), if_pos hsame]
      rfl
    · rw [if_neg hsame, if_neg]
      · exact hk.filed id' hid' u hu
      · intro heq
        obtain ⟨hids, hnames⟩ := ha.path_inj hid' hid heq.symm
        exact hsame ⟨hids, fileName_injective hu ht hnames⟩
  · rw [getElem?_erase] at hn
    split at hn
    · exact absurd rfl hn
    · exact hk.named id' hid' name hn
  · unfold Histories.set at hr
    split at hr
    · cases hr
    · exact hk.dated id' u r hr

/-- A directory with nothing in it is gone. -/
theorem Keeps.without_directory (hk : Keeps root known files h) {id : Iri}
    (hempty : files.names (directory root id) = []) :
    Keeps root known ⟨files.entries.erase (directory root id)⟩ h := by
  have hbelow : ∀ name, files.entries[directory root id ++ [name]]? = none := by
    intro name
    by_contra hn
    have hname := mem_names.mpr hn
    rw [hempty] at hname
    cases hname
  have hfile : ∀ id' name, directory root id ≠ directory root id' ++ [name] := by
    intro id' name heq
    have hlen := congrArg List.length heq
    rw [List.length_append, length_directory, length_directory, List.length_singleton] at hlen
    omega
  refine ⟨hk.closed.erase hbelow, fun id' q hq content hf => ?_, fun id' hid' u hu => ?_,
    fun id' hid' name hn => ?_, hk.dated⟩
  · rw [getElem?_erase] at hf
    split at hf
    · cases hf
    · exact hk.clear id' q hq content hf
  · rw [path, getElem?_erase, if_neg (hfile id' _), ← path]
    exact hk.filed id' hid' u hu
  · rw [getElem?_erase, if_neg (hfile id' _)] at hn
    exact hk.named id' hid' name hn

theorem delete_keeps (hs : Suits root) (ha : Apart known) (hk : Keeps root known files h) {id : Iri}
    (hid : id ∈ known) {t : Instant} (ht : t.Valid) :
    ∃ files', delete root files id t = (.ok (h id t).isSome, files') ∧ Keeps root known files' (h.set id t none) := by
  have hpassable := hs.passable id (fit_fileName ht)
  have hfiled := hk.filed id hid t ht
  unfold delete
  cases hr : h id t with
  | none =>
    rw [hr] at hfiled
    rw [path, run_removeFile_missing hpassable (hk.clear id) hfiled]
    exact ⟨files, rfl, by rwa [← Histories.eq_set hr fun _ _ _ => rfl]⟩
  | some r =>
    rw [hr] at hfiled
    have hkept := hk.without_file ha hid ht hfiled
    have hd : files.Holds (directory root id) := hk.directory_holds (by rw [← path, hfiled]; nofun)
    rw [path] at hkept ⊢
    rw [run_removeFile hk.closed hpassable hd hfiled]
    dsimp only
    have hd' : FileTree.Holds ⟨files.entries.erase (directory root id ++ [fileName t])⟩ (directory root id) :=
      hd.imp_right fun hdir => by
        rw [getElem?_erase, if_neg fun heq => not_prefix_directory root id id _ (by rw [heq]), hdir]
    rw [after_removeDirectory hkept.closed (hpassable.upTo (List.prefix_append _ _)) hd']
    refine ⟨_, rfl, ?_⟩
    split
    · next hempty => exact hkept.without_directory hempty
    · exact hkept

/-! ### Reading -/

theorem map_filterMap_parse? {names : List String} (hn : ∀ name ∈ names, ∃ t, t.Valid ∧ name = fileName t) :
    (names.filterMap parse?).map fileName = names := by
  induction names with
  | nil => rfl
  | cons name rest ih =>
    obtain ⟨t, ht, rfl⟩ := hn name List.mem_cons_self
    rw [List.filterMap_cons_some (parse?_fileName ht), List.map_cons, ih fun n hm => hn n (List.mem_cons_of_mem _ hm)]

theorem Keeps.entry_of_some (hk : Keeps root known files h) {id : Iri} (hid : id ∈ known) {t : Instant}
    (ht : h id t ≠ none) : t.Valid ∧ files.entries[directory root id ++ [fileName t]]? ≠ none := by
  obtain ⟨r, hr⟩ := Option.ne_none_iff_exists'.mp ht
  have hvalid := (hk.dated id t r hr).1
  refine ⟨hvalid, ?_⟩
  rw [← path, hk.filed id hid t hvalid, hr]
  nofun

/-- The times that the names in a directory say. -/
theorem Keeps.mem_times (hk : Keeps root known files h) {id : Iri} (hid : id ∈ known) (t : Instant) :
    t ∈ (files.names (directory root id)).filterMap parse? ↔ h id t ≠ none := by
  rw [List.mem_filterMap]
  constructor
  · rintro ⟨name, hn, hparse⟩
    rw [mem_names] at hn
    obtain ⟨u, hu, rfl⟩ := hk.named id hid name hn
    rw [parse?_fileName hu] at hparse
    cases hparse
    rw [← path, hk.filed id hid t hu] at hn
    intro hnone
    rw [hnone] at hn
    exact hn rfl
  · intro ht
    obtain ⟨hvalid, hthere⟩ := hk.entry_of_some hid ht
    exact ⟨fileName t, mem_names.mpr hthere, parse?_fileName hvalid⟩

theorem Keeps.nodup_times (hk : Keeps root known files h) {id : Iri} (hid : id ∈ known) :
    ((files.names (directory root id)).filterMap parse?).Nodup := by
  refine List.Nodup.of_map fileName ?_
  rw [map_filterMap_parse? fun name hn => hk.named id hid name (mem_names.mp hn)]
  exact nodup_names files _

theorem list_ok (hs : Suits root) (hk : Keeps root known files h) {id : Iri} (hid : id ∈ known) :
    ∃ ts, list root files id = .ok ts ∧ ts.Pairwise (· < ·) ∧ ∀ t, t ∈ ts ↔ h id t ≠ none := by
  have hpassable : Passable (directory root id) :=
    (hs.passable id (fit_fileName (t := ⟨0, 0⟩) (by decide))).upTo (List.prefix_append _ _)
  unfold list
  rcases (hk.clear id).entry (List.prefix_refl _) with hnone | hdir
  · have hempty : ∀ t, h id t = none := by
      intro t
      by_contra ht
      rcases hk.directory_holds (hk.entry_of_some hid ht).2 with htop | hdir
      · exact directory_ne_nil root id htop
      · rw [hnone] at hdir
        cases hdir
    obtain ⟨d, name, hd⟩ := (List.eq_nil_or_concat (directory root id)).resolve_left (directory_ne_nil root id)
    rw [List.concat_eq_append] at hd
    rw [hd] at hpassable hnone ⊢
    rw [list_of_missing hpassable ((hd ▸ hk.clear id).upTo (List.prefix_append d [name])) hnone]
    exact ⟨[], rfl, .nil, fun t => by simp [hempty t]⟩
  · rw [list_of_directory hk.closed hpassable (.inr hdir)]
    refine ⟨_, rfl, Instant.ascending_mergeSort (hk.nodup_times hid), fun t => ?_⟩
    rw [List.mem_mergeSort]
    exact hk.mem_times hid t

theorem list_eq (hs : Suits root) (hk : Keeps root known files h) {id : Iri} (hid : id ∈ known) {ts : List Instant}
    (hts : ts.Pairwise (· < ·)) (hmem : ∀ t, t ∈ ts ↔ h id t ≠ none) : list root files id = .ok ts := by
  obtain ⟨us, hlist, hus, hmem'⟩ := list_ok hs hk hid
  rw [hlist, Instant.ascending_unique hus hts fun t => (hmem' t).trans (hmem t).symm]

theorem load_eq (hs : Suits root) (hk : Keeps root known files h) {id : Iri} (hid : id ∈ known) {t : Instant}
    {r : Resource} (hr : h id t = some r) :
    load root files id t = if r.id = id then .ok (some r) else .error (.hashMismatch id.text r.id.text) := by
  obtain ⟨ht, hvalid, hsize⟩ := hk.dated id t r hr
  have hfiled := hk.filed id hid t ht
  rw [hr] at hfiled
  have hread := Encoding.reads_resource hvalid hsize []
  rw [List.append_nil] at hread
  unfold load
  rw [path, readFile_of_file hk.closed (hs.passable id (fit_fileName ht)) hfiled]
  dsimp only
  rw [hread]

/-- What was recorded as of a time is read from the latest memento until then. -/
theorem get_eq (hs : Suits root) (hk : Keeps root known files h) {id : Iri} (hid : id ∈ known) {ts : List Instant}
    (hts : ts.Pairwise (· < ·)) (hmem : ∀ t, t ∈ ts ↔ h id t ≠ none) (t : Instant) :
    get root files id t = ((ts.filter (· ≤ t)).getLast?).elim (.ok none) (load root files id) := by
  unfold get
  rw [list_eq hs hk hid hts hmem]
  simp only [bind, Except.bind, Memento.select_eq hts]
  cases (ts.filter (· ≤ t)).getLast? <;> rfl

/-! ### Elsewhere -/

/-- What happens to files that are no mementos, nor on the way to one, is not seen. -/
theorem Keeps.of_grown {d : Path} {names : List String} (hk : Keeps root known files h)
    (hway : ∀ id, ∀ name ∈ names, ¬ d ++ [name] <+: directory root id) (hd : ∀ id, ¬ directory root id <+: d)
    {files' : FileTree} (hg : Grown d names files files') : Keeps root known files' h := by
  have hsame : ∀ id name, files'.entries[directory root id ++ [name]]? =
      files.entries[directory root id ++ [name]]? := by
    intro id name
    refine (hg.frame _ fun n hn heq => ?_).resolve_right fun h => ?_
    · obtain ⟨hdir, -⟩ := List.append_inj' heq rfl
      exact hd id (by rw [hdir])
    · exact hd id ((List.prefix_append _ _).trans h.1)
  refine ⟨hg.closed, fun id q hq content hf => ?_, fun id hid t ht => ?_, fun id hid name hn => ?_, hk.dated⟩
  · rcases hg.frame q fun n hn heq => hway id n hn (heq ▸ hq) with heq | ⟨-, -, hdir⟩
    · exact hk.clear id q hq content (heq ▸ hf)
    · rw [hdir] at hf
      cases hf
  · rw [path, hsame, ← path, hk.filed id hid t ht]
  · rw [hsame] at hn
    exact hk.named id hid name hn

/-- No directory of mementos is on the way to the blobs, and no blob is on the way to the mementos. -/
structure Beside (root blobs : Path) : Prop where
  directory : ∀ id, ¬ directory root id <+: blobs
  file : ∀ {content : Bytes} {d : Path} {name : String}, BlobFiles.place (Blake3.hexOf content) = .ok (d, name) →
    ∀ written ∈ [name, name ++ ".tmp"], ¬ blobs ++ d ++ [written] <+: root

/-- Directories of about the same depth are beside each other, also when they are one. -/
theorem Beside.of_length {root blobs : Path} (h : blobs.length < root.length + 3)
    (h' : root.length < blobs.length + 3) :
    Beside root blobs where
  directory id hp := by
    have hlen := hp.length_le
    rw [length_directory] at hlen
    omega
  file hplace written _ hp := by
    have hlen := hp.length_le
    have htwo := (BlobFiles.fit_place hplace).1.2.1
    simp only [List.length_append, List.length_cons, List.length_nil] at hlen
    omega

/-- A blob that is stored, or fails to be, leaves the mementos as they are. -/
theorem Keeps.of_store {blobs : Path} (hk : Keeps root known files h) (hp : ∀ name ∈ blobs, FileTree.Plain name)
    (hb : Beside root blobs) (content : Bytes) (mime : Option String) :
    Keeps root known (BlobFiles.store blobs files content mime).2 h := by
  unfold BlobFiles.store
  cases hplace : BlobFiles.place (Blake3.hexOf content) with
  | error f => exact hk
  | ok found =>
    obtain ⟨d, name⟩ := found
    dsimp only
    split
    · exact hk
    · have hplain := BlobFiles.plain_place hplace hp
      refine hk.of_grown (fun id written hw habove => ?_) (fun id habove => ?_)
        (FileTree.keeps_publish (hplain _ List.mem_cons_self) (hplain _ (List.mem_cons_of_mem _ List.mem_cons_self))
          _ files hk.closed)
      · exact hb.file hplace written hw (above_of_blob_above hplace hw habove)
      · exact hb.directory id (above_of_directory_above hplace habove)

end MementoFiles

/-! ## Archives -/

namespace FileArchive

open MementoFiles

/-- Where mementos and blobs can be written: the directories' names are fit for files, neither kind
    is in the way of the other, and no two of the identifiers have the same hash. -/
structure Laid (known : Set Iri) (a : FileArchive) : Prop where
  apart : Apart known
  suits : Suits a.mementos
  plain : ∀ name ∈ a.blobs, FileTree.Plain name
  beside : Beside a.mementos a.blobs

/-- No memento was written yet, and no file is on the way to one. -/
structure Blank (a : FileArchive) : Prop where
  closed : a.files.Closed
  clear : ∀ id, a.files.Clear (directory a.mementos id)
  unwritten : ∀ id name, a.files.entries[directory a.mementos id ++ [name]]? = none

theorem Blank.of_empty (mementos blobs : Path) : Blank ⟨.empty, mementos, blobs⟩ where
  closed := FileTree.closed_empty
  clear _ q _ content := by simp [FileTree.empty]
  unwritten _ _ := by simp [FileTree.empty]

/-- The archive holds the histories `h` of the identifiers that are `known`. -/
structure Holds (known : Set Iri) (a : FileArchive) (h : Histories) : Prop extends Laid known a where
  keeps : MementoFiles.Keeps a.mementos known a.files h

variable {known : Set Iri} {a : FileArchive} {h : Histories}

theorem Blank.holds (hb : Blank a) (hl : Laid known a) : Holds known a fun _ _ => none :=
  ⟨hl, keeps_empty hb.closed hb.clear hb.unwritten known⟩

theorem Holds.put (hh : Holds known a h) {id : Iri} (hid : id ∈ known) {t : Instant} (ht : t.Valid) {r : Resource}
    (hr : r.Readable) :
    ∃ a', MementoStore.put a id t r = (.ok (), a') ∧ Holds known a' (h.set id t (some r)) := by
  obtain ⟨files, hput, hkeeps⟩ := put_keeps hh.suits hh.apart hh.keeps hid ht hr
  exact ⟨{ a with files }, congrArg a.keep hput, ⟨hh.apart, hh.suits, hh.plain, hh.beside⟩, hkeeps⟩

theorem Holds.delete (hh : Holds known a h) {id : Iri} (hid : id ∈ known) {t : Instant} (ht : t.Valid) :
    ∃ a', MementoStore.delete a id t = (.ok (h id t).isSome, a') ∧ Holds known a' (h.set id t none) := by
  obtain ⟨files, hdelete, hkeeps⟩ := delete_keeps hh.suits hh.apart hh.keeps hid ht
  exact ⟨{ a with files }, congrArg a.keep hdelete, ⟨hh.apart, hh.suits, hh.plain, hh.beside⟩, hkeeps⟩

theorem Holds.store (hh : Holds known a h) (content : Bytes) (mime : Option String) :
    Holds known (BlobStore.store a content mime).2 h := by
  have hkeeps := hh.keeps.of_store hh.plain hh.beside content mime
  have hstore : (BlobStore.store a content mime).2 =
      { a with files := (BlobFiles.store a.blobs a.files content mime).2 } := rfl
  rw [hstore]
  generalize (BlobFiles.store a.blobs a.files content mime).2 = files at hkeeps
  exact ⟨⟨hh.apart, hh.suits, hh.plain, hh.beside⟩, hkeeps⟩

theorem Holds.list (hh : Holds known a h) {id : Iri} (hid : id ∈ known) {ts : List Instant}
    (hts : ts.Pairwise (· < ·)) (hmem : ∀ t, t ∈ ts ↔ h id t ≠ none) : MementoStore.list a id = .ok ts :=
  list_eq hh.suits hh.keeps hid hts hmem

/-- When states are kept under their own identifiers and times, the one as of a time is the latest of
    them until then. -/
theorem Holds.get (hh : Holds known a h) {id : Iri} (hid : id ∈ known) {rs : List Resource}
    (hrs : (rs.map (·.modified)).Pairwise (· < ·)) (hmem : ∀ t, t ∈ rs.map (·.modified) ↔ h id t ≠ none)
    (hown : ∀ r ∈ rs, r.id = id ∧ h id r.modified = some r) (t : Instant) :
    MementoStore.get a id t = .ok ((rs.filter (·.modified ≤ t)).getLast?) := by
  have hfilter : (rs.map (·.modified)).filter (· ≤ t) = (rs.filter (·.modified ≤ t)).map (·.modified) :=
    List.filter_map
  rw [show MementoStore.get a id t = MementoFiles.get a.mementos a.files id t from rfl,
    get_eq hh.suits hh.keeps hid hrs hmem, hfilter, List.getLast?_map]
  cases hlast : (rs.filter (·.modified ≤ t)).getLast? with
  | none => rfl
  | some r =>
    obtain ⟨rfl, hkept⟩ := hown r (List.mem_filter.mp (List.mem_of_getLast? hlast)).1
    exact (load_eq hh.suits hh.keeps hid hkept).trans (if_pos rfl)

end FileArchive

end LinkedData
