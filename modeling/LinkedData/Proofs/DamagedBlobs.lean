/-
  LinkedData.Proofs.DamagedBlobs — uploading over what is there already.

  An upload that finds something at the place of its hash takes it for its content and succeeds. It
  looks at no byte of it; a read does. So a successful upload is readable just if nothing was at its
  place, or the very content (`upload_readable_iff`): over a blob that was damaged it succeeds too,
  and what follows is refused to be read (`store_damaged`).

  Nothing is assumed of what else is in the tree. A step of a publication that succeeded says itself
  where it wrote and that it can be found there, so what was published is there (`of_publish`).
-/

import LinkedData.Proofs.Blobs
import LinkedData.Proofs.FileChanges

namespace LinkedData

namespace FileTree

/-! ## Changes that succeeded -/

section

variable {α β : Type} {t t' : FileTree}

theorem of_bind {m : FileM α} {f : α → FileM β} {b : β} (h : t.run (m >>= f) = (.ok b, t')) :
    ∃ a t₁, t.run m = (.ok a, t₁) ∧ t₁.run (f a) = (.ok b, t') := by
  cases hm : t.run m with
  | mk answer t₁ =>
    cases answer with
    | error e =>
      rw [run_bind_error hm] at h
      cases h
    | ok a =>
      rw [run_bind_ok hm] at h
      exact ⟨a, t₁, rfl, h⟩

theorem of_tryCatch {m : FileM α} {handler : FileFault → FileM α} {a : α}
    (h : t.run (tryCatch m handler) = (.ok a, t')) :
    t.run m = (.ok a, t') ∨ ∃ e t₁, t.run m = (.error e, t₁) ∧ t₁.run (handler e) = (.ok a, t') := by
  cases hm : t.run m with
  | mk answer t₁ =>
    cases answer with
    | ok b =>
      rw [run_tryCatch_ok hm] at h
      exact .inl h
    | error e =>
      refine .inr ⟨e, t₁, rfl, ?_⟩
      rw [← h]
      unfold run at hm ⊢
      show _ = ((ExceptT.tryCatch m handler).run).run t
      unfold ExceptT.tryCatch
      simp only [ExceptT.run_mk, StateT.run_bind]
      rw [show StateT.run m t = _ from hm]
      rfl

end

variable {t t' : FileTree} {d : Path} {name other : String} {content : Bytes}

theorem of_writeFile (hp : ∀ n ∈ d ++ [name], Plain n)
    (h : t.run (writeFile (d ++ [name]) content) = (.ok (), t')) :
    t'.entries[d ++ [name]]? = some (.file content) := by
  unfold writeFile at h
  rcases run_fileSlot_cases (t := t) hp with ⟨e, hslot⟩ | ⟨hslot, -⟩
  · rw [run_bind_error hslot] at h
    cases h
  · rw [run_bind_ok hslot] at h
    cases h
    rw [getElem?_insert, if_pos rfl]

/-- What was moved is what was there, at a path that can be gone. -/
theorem of_rename (hp : ∀ n ∈ d ++ [name], Plain n) (hq : ∀ n ∈ d ++ [other], Plain n)
    (h : t.run (rename (d ++ [name]) (d ++ [other])) = (.ok (), t')) :
    Passable (d ++ [other]) ∧ ∃ content, t.entries[d ++ [name]]? = some (.file content) ∧
      t'.entries[d ++ [other]]? = some (.file content) := by
  unfold rename at h
  rw [run_bind_ok (run_get t)] at h
  cases hread : t.readFile (d ++ [name]) with
  | error e =>
    rw [hread, run_bind_error (run_lift t _)] at h
    cases h
  | ok content =>
    rw [hread, run_bind_ok (run_lift t _)] at h
    rcases run_fileSlot_cases (t := t) hp with ⟨e, hslot⟩ | ⟨hslot, -⟩
    · rw [run_bind_error hslot] at h
      cases h
    · rw [run_bind_ok hslot] at h
      rcases run_fileSlot_cases (t := t) hq with ⟨e, hslot'⟩ | ⟨hslot', -, -, hpass⟩
      · rw [run_bind_error hslot'] at h
        cases h
      · rw [run_bind_ok hslot'] at h
        cases h
        refine ⟨hpass, content, file_of_readFile hp hread, ?_⟩
        rw [getElem?_insert ⟨t.entries.erase (d ++ [name])⟩, if_pos rfl]

/-- What was published is there. -/
theorem of_publish (hp : ∀ n ∈ d ++ [name], Plain n) (ht : ∀ n ∈ d ++ [name ++ ".tmp"], Plain n)
    (h : t.run (publish d name content) = (.ok (), t')) :
    Passable (d ++ [name]) ∧ t'.entries[d ++ [name]]? = some (.file content) := by
  unfold publish at h
  obtain ⟨_, t₁, -, h₁⟩ := of_bind h
  obtain ⟨_, t₂, hwritten, h₂⟩ := of_bind h₁
  rcases of_tryCatch h₂ with hmoved | ⟨fault, t₃, -, hhandled⟩
  · obtain ⟨hpass, moved, hbefore, hafter⟩ := of_rename ht hp hmoved
    rw [of_writeFile ht hwritten] at hbefore
    cases hbefore
    exact ⟨hpass, hafter⟩
  · obtain ⟨_, t₄, -, hthrown⟩ := of_bind hhandled
    cases hthrown

end FileTree

/-! ## Uploads that succeeded -/

namespace BlobFiles

open FileTree

variable {root : Path} {files files' : FileTree} {content : Bytes} {mime : Option String} {m : Binary}

/-- Where there was nothing, the content was written; elsewhere nothing was. -/
theorem store_cases (hc : files.Closed) (hr : ∀ n ∈ root, Plain n)
    (h : store root files content mime = (.ok m, files')) :
    m = Blob.describe content mime ∧ ∃ d name, place (Blake3.hexOf content) = .ok (d, name) ∧
      (files.exists? (root ++ d ++ [name]) = true ∧ files' = files ∨
        files.exists? (root ++ d ++ [name]) = false ∧ files'.readFile (root ++ d ++ [name]) = .ok content) := by
  obtain ⟨d, name, hplace⟩ := place_of_isHash (isHash_hexOf content)
  cases hx : files.exists? (root ++ d ++ [name]) with
  | true =>
    rw [store_of_exists hplace hx] at h
    cases h
    exact ⟨rfl, d, name, hplace, .inl ⟨hx, rfl⟩⟩
  | false =>
    have hplain := plain_place hplace hr
    have hname := hplain name List.mem_cons_self
    have htemporary := hplain _ (List.mem_cons_of_mem _ List.mem_cons_self)
    have hgrown := keeps_publish hname htemporary content files hc
    rw [store_of_missing hplace hx] at h
    unfold FileTree.after at hgrown
    cases hrun : files.run (publish (root ++ d) name content) with
    | mk written t =>
      rw [hrun] at h hgrown
      cases written with
      | error e => cases h
      | ok u =>
        cases h
        obtain ⟨hpass, hfile⟩ := of_publish hname htemporary hrun
        exact ⟨rfl, d, name, hplace, .inr ⟨hx, readFile_of_file hgrown.closed hpass hfile⟩⟩

theorem readFile_of_get {hex : String} {d : Path} {name : String} (hplace : place hex = .ok (d, name))
    (h : get root files (Blob.locationOf hex) = .ok (some content)) :
    files.readFile (root ++ d ++ [name]) = .ok content := by
  cases hread : files.readFile (root ++ d ++ [name]) with
  | ok c =>
    rw [get_of_file hplace hread] at h
    split at h
    · cases h
    · cases h
      rfl
  | error f =>
    cases hx : files.exists? (root ++ d ++ [name]) with
    | false =>
      rw [get_of_missing hplace hx] at h
      cases h
    | true =>
      unfold get at h
      rw [Blob.hexOf_locationOf] at h
      simp only [bind, Except.bind, path_of_place root hplace, hx, hread, Except.mapError] at h
      cases h

/-- A content is readable after its upload just if nothing was at its place before, or it was itself. -/
theorem upload_readable_iff (hc : files.Closed) (hr : ∀ n ∈ root, Plain n)
    (h : store root files content mime = (.ok m, files')) :
    ∃ p, path root (Blake3.hexOf content) = .ok p ∧
      (get root files' m.location = .ok (some content) ↔ files.exists? p = false ∨ files.readFile p = .ok content) := by
  obtain ⟨rfl, d, name, hplace, hcases⟩ := store_cases hc hr h
  refine ⟨_, path_of_place root hplace, ?_⟩
  have hread : ∀ {t : FileTree}, t.readFile (root ++ d ++ [name]) = .ok content →
      get root t (Blob.locationOf (Blake3.hexOf content)) = .ok (some content) := by
    intro t ht
    rw [get_of_file hplace ht, if_neg (not_not.mpr rfl)]
  rcases hcases with ⟨hx, rfl⟩ | ⟨hx, hwritten⟩
  · rw [hx]
    constructor
    · exact fun hget => .inr (readFile_of_get hplace hget)
    · rintro (hmissing | hsame)
      · cases hmissing
      · exact hread hsame
  · exact iff_of_true (hread hwritten) (.inl hx)

/-- Over a blob of other content the upload succeeds all the same, and what follows is refused to be read. -/
theorem store_damaged {d : Path} {name : String} (hplace : place (Blake3.hexOf content) = .ok (d, name))
    {damaged : Bytes} (hread : files.readFile (root ++ d ++ [name]) = .ok damaged)
    (hne : Blake3.hash damaged ≠ Blake3.hash content) :
    store root files content mime = (.ok (Blob.describe content mime), files) ∧
      get root files (Blob.describe content mime).location =
        .error (.hashMismatch (Blake3.hexOf content) (Blake3.hexOf damaged)) := by
  refine ⟨store_of_exists hplace (exists?_of_readFile hread), ?_⟩
  refine (get_of_file hplace hread).trans (if_pos fun heq => hne (Blake3.hexOf_inj.mp heq))

/-! A blob with other bytes than it was uploaded with. -/

def original : Bytes := [111, 114, 105, 103, 105, 110, 97, 108]

def tampered : Bytes := [116, 97, 109, 112, 101, 114, 101, 100]

def originalName : String := "77d1f35e34a6c8c8e65a32cf0336e1fccc3fb4d1c611ebe09970dd2074abe5dc.bin"

def tamperedName : String := "ad5aa819e308010edbe8184da4cd808875e9908e28be001c2ce45a36001517e0.bin"

def damagedTree : FileTree := FileTree.empty.after (plant (["blobs"] ++ ["77", "d1"] ++ [originalName]) tampered)

theorem closed_damagedTree : damagedTree.Closed :=
  (keeps_plant (by decide) (List.mem_singleton_self _) tampered _ closed_empty).closed

theorem place_original : place (Blake3.hexOf original) = .ok (["77", "d1"], originalName) := by
  have hhex : Blake3.hexOf original = "77d1f35e34a6c8c8e65a32cf0336e1fccc3fb4d1c611ebe09970dd2074abe5dc" := by
    decide +kernel
  rw [hhex]
  decide +kernel

theorem place_tampered : place (Blake3.hexOf tampered) = .ok (["ad", "5a"], tamperedName) := by
  have hhex : Blake3.hexOf tampered = "ad5aa819e308010edbe8184da4cd808875e9908e28be001c2ce45a36001517e0" := by
    decide +kernel
  rw [hhex]
  decide +kernel

/-- The content is uploaded again, and is still not there to be read. -/
theorem damaged_upload_unreadable : damagedTree.Closed ∧
    store ["blobs"] damagedTree original none = (.ok (Blob.describe original none), damagedTree) ∧
      get ["blobs"] damagedTree (Blob.describe original none).location =
        .error (.hashMismatch (Blake3.hexOf original) (Blake3.hexOf tampered)) := by
  have hread : damagedTree.readFile (["blobs"] ++ ["77", "d1"] ++ [originalName]) = .ok tampered := by decide +kernel
  refine ⟨closed_damagedTree, store_damaged place_original hread fun heq => ?_⟩
  have hplaces := place_original
  rw [← Blake3.hexOf_inj.mpr heq, place_tampered] at hplaces
  exact absurd hplaces (by decide)

/-- Another content is readable after its upload, whatever became of the first. -/
theorem upload_readable_beside_damaged : ∃ files', (damagedTree.Closed ∧ (∀ n ∈ ["blobs"], Plain n) ∧
    store ["blobs"] damagedTree tampered none = (.ok (Blob.describe tampered none), files')) ∧
      get ["blobs"] files' (Blob.describe tampered none).location = .ok (some tampered) := by
  have hplain : ∀ n ∈ ["blobs"], Plain n := by decide
  have hmissing : damagedTree.exists? (["blobs"] ++ ["ad", "5a"] ++ [tamperedName]) = false := by decide +kernel
  have hpublished : (damagedTree.run (publish (["blobs"] ++ ["ad", "5a"]) tamperedName tampered)).1 = .ok () := by
    decide +kernel
  have hstore : store ["blobs"] damagedTree tampered none = (.ok (Blob.describe tampered none),
      (damagedTree.run (publish (["blobs"] ++ ["ad", "5a"]) tamperedName tampered)).2) := by
    rw [store_of_missing place_tampered hmissing, hpublished]
    rfl
  obtain ⟨p, hp, hiff⟩ := upload_readable_iff closed_damagedTree hplain hstore
  rw [path_of_place _ place_tampered] at hp
  cases hp
  exact ⟨_, ⟨closed_damagedTree, hplain, hstore⟩, hiff.mpr (.inl hmissing)⟩

end BlobFiles

end LinkedData
