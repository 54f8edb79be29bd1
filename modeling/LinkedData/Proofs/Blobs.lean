/-
  LinkedData.Proofs.Blobs — content is found by its hash, and digests tell contents apart.

  Blobs are uploaded one after another to a directory that was empty at first and that nobody else
  writes. Then at the place of every hash, and only there, is the first of the uploaded contents
  that has it (`Stocked`): an upload publishes its content where there was nothing, or finds an
  earlier one and leaves it (`store_stocked`). So a read answers with the first content of a hash, at
  any time (`get_stocked`); while no two contents have one hash, that is the content itself.

  A digest is one of a content just if it is the name of the algorithm in any case, the first equals
  sign, and the hash of the content as text in any case (`Digest.verify_eq_ok_iff`).

  Both together are `addresses_faithful`.
-/

import LinkedData.Proofs.FileNames
import LinkedData.Proofs.Requests

namespace LinkedData

open FileTree

namespace Blake3

theorem hexOf_inj {c c' : Bytes} : hexOf c = hexOf c' ↔ hash c = hash c' :=
  ⟨fun h => Hex.encodeChars_injective (String.ofList_injective h), congrArg Hex.encode⟩

end Blake3

namespace Blob

theorem hexOf_locationOf (hex : String) : hexOf (locationOf hex) = .ok hex := by
  unfold hexOf locationOf
  dsimp only
  rw [String.toList_append, if_pos (List.isPrefixOf_iff_prefix.mpr (List.prefix_append _ _)), List.drop_left,
    String.ofList_toList]

theorem locationOf_inj {hex hex' : String} : locationOf hex = locationOf hex' ↔ hex = hex' := by
  simp [locationOf]

end Blob

/-! ## Digests -/

namespace Digest

/-- `digest` is one of `content`: the name of the algorithm in any case, the first equals sign, and the
    hash of the content as text in any case. -/
def Of (content : Bytes) (digest : String) : Prop :=
  ∃ name text : String, digest = name ++ "=" ++ text ∧ '=' ∉ name.toList ∧
    name.toList.map Char.toLower = Blob.algorithm.toList ∧
    text.toList.map Char.toLower = (Blake3.hexOf content).toList

theorem toList_signed (name text : String) : (name ++ "=" ++ text).toList = name.toList ++ '=' :: text.toList := by
  rw [String.toList_append, String.toList_append, List.append_assoc]
  rfl

/-- A digest is taken apart at its first equals sign. -/
theorem verify_signed_eq_ok_iff {content : Bytes} {name text : String} (h : '=' ∉ name.toList) :
    verify content (name ++ "=" ++ text) = .ok () ↔
      name.toList.map Char.toLower = Blob.algorithm.toList ∧ Hex.decode text = .ok (Blake3.hash content) := by
  have hname : ∀ c ∈ name.toList, decide (c ≠ '=') = true := by
    intro c hc
    rw [decide_eq_true_eq]
    rintro rfl
    exact h hc
  unfold verify
  dsimp only
  rw [toList_signed, if_neg (by simp), List.takeWhile_append_of_pos hname, List.dropWhile_append_of_pos hname,
    List.takeWhile_cons_of_neg (by simp), List.dropWhile_cons_of_neg (by simp), List.append_nil, List.drop_one,
    List.tail_cons, String.ofList_toList, String.ofList_toList]
  by_cases halgorithm : name.toList.map Char.toLower = Blob.algorithm.toList
  · rw [if_neg (not_not.mpr halgorithm)]
    cases hdecode : Hex.decode text with
    | error f => exact iff_of_false nofun fun h => nomatch h.2
    | ok expected =>
      dsimp only
      by_cases heq : expected = Blake3.hash content
      · rw [if_pos heq, heq]
        exact iff_of_true rfl ⟨halgorithm, rfl⟩
      · rw [if_neg heq]
        exact iff_of_false nofun fun h => heq (Except.ok.inj h.2)
  · rw [if_pos halgorithm]
    exact iff_of_false nofun fun h => halgorithm h.1

/-- A digest is accepted for a content just if it is one of it. -/
theorem verify_eq_ok_iff {content : Bytes} {digest : String} :
    verify content digest = .ok () ↔ Of content digest := by
  have hchars : (Blake3.hexOf content).toList = Hex.encodeChars (Blake3.hash content) := String.toList_ofList
  constructor
  · intro h
    have hsign : '=' ∈ digest.toList := by
      by_contra hno
      rw [verify, if_pos (by simpa using hno)] at h
      cases h
    obtain ⟨front, back, hsplit, hfront⟩ := List.eq_append_cons_of_mem hsign
    have hdigest : digest = String.ofList front ++ "=" ++ String.ofList back := by
      rw [← String.toList_inj, toList_signed, String.toList_ofList, String.toList_ofList, hsplit]
    have hname : '=' ∉ (String.ofList front).toList := by rwa [String.toList_ofList]
    rw [hdigest, verify_signed_eq_ok_iff hname, Hex.decode_eq_ok_iff, ← hchars] at h
    exact ⟨_, _, hdigest, hname, h⟩
  · rintro ⟨name, text, rfl, hsign, htext⟩
    rwa [verify_signed_eq_ok_iff hsign, Hex.decode_eq_ok_iff, ← hchars]

/-- The check of a digest, its faults as a client is told of them. -/
def check (content : Bytes) (digest : String) : Except Error Unit :=
  (verify content digest).mapError fun f => .malformedInput f.message

theorem check_eq_ok_iff {content : Bytes} {digest : String} : check content digest = .ok () ↔ Of content digest := by
  rw [← verify_eq_ok_iff, check]
  cases verify content digest <;> simp [Except.mapError]

theorem check_of_not_of {content : Bytes} {digest : String} (h : ¬ Of content digest) :
    ∃ why, check content digest = .error (.malformedInput why) := by
  rw [← verify_eq_ok_iff] at h
  unfold check
  cases hv : verify content digest with
  | ok u => exact absurd hv h
  | error f => exact ⟨f.message, rfl⟩

/-- The digest that a blob is described with is of the contents that have its hash. -/
theorem of_describe_iff {content other : Bytes} {mime : Option String} :
    Of other (Blob.describe content mime).digest ↔ Blake3.hash content = Blake3.hash other := by
  have hdecode : Hex.decode (Blake3.hexOf content) = .ok (Blake3.hash content) := by
    rw [Hex.decode_eq_ok_iff, Blake3.hexOf, Hex.encode, String.toList_ofList]
    exact Hex.lower_of_decodeFrom (Hex.decodeFrom_encodeChars 0 _)
  rw [← verify_eq_ok_iff]
  unfold Blob.describe
  dsimp only
  rw [verify_signed_eq_ok_iff (by decide), hdecode, Except.ok.injEq]
  exact and_iff_right (by decide)

end Digest

/-- An upload whose digest is not one of its content is refused, and nothing of it is stored. -/
theorem Service.createBinary_of_not_of {σ α ε : Type} [RecordStore σ] [MementoStore α] [BlobStore α]
    [EventSink ε] (s : Service σ α ε) (id : Iri) {content : Bytes} (mime : Option String) {digest : String}
    (d : Dataset) (session : Session) (now : Instant) (h : ¬ Digest.Of content digest) :
    ∃ why, s.createBinary id content mime (some digest) d session now = (.error (.malformedInput why), s) := by
  obtain ⟨why, hwhy⟩ := Digest.check_of_not_of h
  refine ⟨why, ?_⟩
  have hvet : s.vet content (some digest) d = .error (.malformedInput why) := by
    show Digest.check content digest >>= (fun _ => s.checkConstraints .nonRdfSource d) = _
    rw [hwhy]
    rfl
  rw [createBinary_eq, hvet]

namespace BlobFiles

/-! ## Places -/

/-- A location that could be a blob's: the scheme, and the text of a hash. -/
def Locates (location : Iri) : Prop := ∃ hex, IsHash hex ∧ location = Blob.locationOf hex

/-- A root for blobs: its names are fit for files, and there is room for a path below it. -/
structure Suits (root : Path) : Prop where
  fit : ∀ name ∈ root, Fit name
  room : width root + 79 ≤ longestPath

instance (root : Path) : Decidable (Suits root) :=
  decidable_of_iff ((∀ name ∈ root, Fit name) ∧ width root + 79 ≤ longestPath)
    ⟨fun h => ⟨h.1, h.2⟩, fun h => ⟨h.fit, h.room⟩⟩

variable {root : Path} {files : FileTree} {hex : String} {d : Path} {name : String}

theorem Suits.passable (hs : Suits root) (h : place hex = .ok (d, name)) :
    ∀ written ∈ [name, name ++ ".tmp"], Passable (root ++ d ++ [written]) := by
  obtain ⟨⟨hfit, -, hwidth⟩, hnames⟩ := fit_place h
  intro written hw
  refine ⟨fun n hn => ?_, ?_⟩
  · rw [List.mem_append, List.mem_append, List.mem_singleton] at hn
    rcases hn with (hn | hn) | rfl
    · exact hs.fit n hn
    · exact hfit n hn
    · exact (hnames n hw).1
  · have hroom := hs.room
    have hlast : width [written] = 1 + written.utf8ByteSize := width_cons written []
    have hshort := (hnames written hw).2
    rw [width_append, width_append, hwidth, hlast]
    omega

/-- Blobs are all at one depth, so none is on the way to another. -/
theorem not_prefix_place {hex' : String} {d' : Path} {name' : String} (h : place hex = .ok (d, name))
    (h' : place hex' = .ok (d', name')) (written : String) : ¬ root ++ d ++ [written] <+: root ++ d' := by
  intro hp
  have hlen := hp.length_le
  simp only [List.length_append, List.length_singleton, (fit_place h).1.2.1, (fit_place h').1.2.1] at hlen
  omega

theorem hex_eq_of_path {hex' : String} {d' : Path} {name' : String} (h : place hex = .ok (d, name))
    (h' : place hex' = .ok (d', name')) (heq : root ++ d ++ [name] = root ++ d' ++ [name']) : hex = hex' := by
  obtain ⟨-, hn⟩ := List.append_inj' heq rfl
  cases hn
  exact place_injective h h'

theorem temporary_ne_path {hex' : String} {d' : Path} {name' : String} (h : place hex = .ok (d, name))
    (h' : place hex' = .ok (d', name')) : root ++ d ++ [name] ≠ root ++ d' ++ [name' ++ ".tmp"] := by
  intro heq
  obtain ⟨-, hn⟩ := List.append_inj' heq rfl
  exact name_ne_temporary h h' (List.singleton_inj.mp hn)

/-! ## Reading -/

theorem path_of_place (root : Path) (h : place hex = .ok (d, name)) : path root hex = .ok (root ++ d ++ [name]) := by
  rw [path, h]
  rfl

theorem has_eq (h : place hex = .ok (d, name)) :
    has root files (Blob.locationOf hex) = .ok (files.exists? (root ++ d ++ [name])) := by
  unfold has
  rw [Blob.hexOf_locationOf]
  simp only [bind, Except.bind, path_of_place root h]
  rfl

theorem get_of_missing (h : place hex = .ok (d, name)) (hm : files.exists? (root ++ d ++ [name]) = false) :
    get root files (Blob.locationOf hex) = .ok none := by
  unfold get
  rw [Blob.hexOf_locationOf]
  simp only [bind, Except.bind, path_of_place root h, hm]
  rfl

theorem exists?_of_readFile {p : Path} {content : Bytes} (h : files.readFile p = .ok content) :
    files.exists? p = true := by
  unfold readFile at h
  unfold exists?
  cases he : files.entry p with
  | ok e => rfl
  | error f =>
    rw [he] at h
    cases h

/-- What is read is hashed again. -/
theorem get_of_file (h : place hex = .ok (d, name)) {content : Bytes}
    (hr : files.readFile (root ++ d ++ [name]) = .ok content) :
    get root files (Blob.locationOf hex) =
      if Blake3.hexOf content ≠ hex then .error (.hashMismatch hex (Blake3.hexOf content)) else .ok (some content) := by
  unfold get
  rw [Blob.hexOf_locationOf]
  simp only [bind, Except.bind, path_of_place root h, exists?_of_readFile hr, hr, Except.mapError, not_true_eq_false,
    if_false]
  split <;> rfl

/-! ## Writing -/

variable {content : Bytes} {mime : Option String}

theorem store_of_exists (h : place (Blake3.hexOf content) = .ok (d, name))
    (hx : files.exists? (root ++ d ++ [name]) = true) :
    store root files content mime = (.ok (Blob.describe content mime), files) := by
  unfold store
  rw [h]
  exact if_pos hx

theorem store_of_missing (h : place (Blake3.hexOf content) = .ok (d, name))
    (hm : files.exists? (root ++ d ++ [name]) = false) :
    store root files content mime =
      ((((files.run (publish (root ++ d) name content)).1).mapError (ioFault "write binary")).map
        fun _ => Blob.describe content mime, (files.run (publish (root ++ d) name content)).2) := by
  unfold store
  rw [h]
  exact if_neg (by rw [hm]; nofun)

/-! ## Stocks -/

/-- The first of some contents that has a hash. -/
def first? (contents : List Bytes) (hex : String) : Option Bytes := contents.find? fun c => Blake3.hexOf c = hex

theorem hexOf_of_first? {contents : List Bytes} {c : Bytes} (h : first? contents hex = some c) : Blake3.hexOf c = hex :=
  of_decide_eq_true (List.find?_some (p := fun c => decide (Blake3.hexOf c = hex)) h)

theorem first?_append (contents : List Bytes) (content : Bytes) (hex : String) :
    first? (contents ++ [content]) hex =
      (first? contents hex).or (if Blake3.hexOf content = hex then some content else none) := by
  rw [first?, List.find?_append, List.find?_singleton]
  simp only [decide_eq_true_eq]
  rfl

/-- Contents of one hash are as good as the first of them. -/
theorem first?_append_of_some {contents : List Bytes} {content c : Bytes}
    (h : first? contents (Blake3.hexOf content) = some c) (hex : String) :
    first? (contents ++ [content]) hex = first? contents hex := by
  rw [first?_append]
  split
  · next he =>
    rw [← he, h]
    rfl
  · exact Option.or_none

/-- At the place of every hash is the first of the contents that has it, if there is one; nothing is in
    the way, and nothing is half written. -/
structure Stocked (root : Path) (contents : List Bytes) (files : FileTree) : Prop where
  closed : files.Closed
  clear : ∀ {hex d name}, place hex = .ok (d, name) → files.Clear (root ++ d)
  filed : ∀ {hex d name}, place hex = .ok (d, name) →
    files.entries[root ++ d ++ [name]]? = (first? contents hex).map Entry.file
  settled : ∀ {hex d name}, place hex = .ok (d, name) → files.entries[root ++ d ++ [name ++ ".tmp"]]? = none

/-- Nothing is below `root`, and no file is on the way there. -/
structure Blank (root : Path) (files : FileTree) : Prop where
  closed : files.Closed
  clear : files.Clear root
  nothing : ∀ p ≠ [], files.entries[root ++ p]? = none

theorem Blank.of_empty (root : Path) : Blank root .empty where
  closed := closed_empty
  clear q _ content := by simp [FileTree.empty]
  nothing _ _ := by simp [FileTree.empty]

theorem create_blank (hs : Suits root) (hb : Blank root files) :
    ∃ files', create root files = (.ok (), files') ∧ Blank root files' := by
  have hp : Passable root := ⟨hs.fit, (Nat.le_add_right _ _).trans hs.room⟩
  obtain ⟨files', hrun, hc, hentries⟩ := run_createDirectories hb.closed hp hb.clear
  refine ⟨files', ?_, hc, fun q hq content hf => ?_, fun p hne => ?_⟩
  · unfold create
    rw [hrun]
    rfl
  · rw [hentries] at hf
    split at hf
    · cases hf
    · exact hb.clear q hq content hf
  · rw [hentries, if_neg, hb.nothing p hne]
    rintro ⟨-, hp⟩
    have hlen := hp.length_le
    rw [List.length_append] at hlen
    exact hne (List.eq_nil_of_length_eq_zero (by omega))

theorem Blank.stocked (hb : Blank root files) : Stocked root [] files where
  closed := hb.closed
  clear {hex d name} _ q hq content hf := by
    rcases List.prefix_or_prefix_of_prefix hq (List.prefix_append root d) with hroot | ⟨p, rfl⟩
    · exact hb.clear q hroot content hf
    · by_cases hp : p = []
      · rw [hp, List.append_nil] at hf
        exact hb.clear root (List.prefix_refl root) content hf
      · rw [hb.nothing p hp] at hf
        cases hf
  filed {hex d name} _ := by
    rw [List.append_assoc, hb.nothing _ (by simp)]
    rfl
  settled {hex d name} _ := by rw [List.append_assoc, hb.nothing _ (by simp)]

variable {contents : List Bytes}

theorem Stocked.exists?_eq (hk : Stocked root contents files) (hs : Suits root) (h : place hex = .ok (d, name)) :
    files.exists? (root ++ d ++ [name]) = (first? contents hex).isSome := by
  have hpass := hs.passable h name List.mem_cons_self
  have hfiled := hk.filed h
  unfold exists? entry
  cases hfirst : first? contents hex with
  | none =>
    rw [hfirst] at hfiled
    rw [locate_missing hpass (hk.clear h) hfiled]
    rfl
  | some c =>
    rw [hfirst] at hfiled
    rw [locate_found hk.closed hpass fun _ => by rw [hfiled]; nofun]
    rfl

/-- A look answers whether a content of that hash was uploaded. -/
theorem has_stocked (hs : Suits root) (hk : Stocked root contents files) (h : IsHash hex) :
    has root files (Blob.locationOf hex) = .ok (first? contents hex).isSome := by
  obtain ⟨d, name, hplace⟩ := place_of_isHash h
  rw [has_eq hplace, hk.exists?_eq hs hplace]

/-- A read answers with the first of the contents that has that hash. -/
theorem get_stocked (hs : Suits root) (hk : Stocked root contents files) (h : IsHash hex) :
    get root files (Blob.locationOf hex) = .ok (first? contents hex) := by
  obtain ⟨d, name, hplace⟩ := place_of_isHash h
  have hexists := hk.exists?_eq hs hplace
  have hfiled := hk.filed hplace
  cases hfirst : first? contents hex with
  | none =>
    rw [hfirst] at hexists
    exact get_of_missing hplace hexists
  | some c =>
    rw [hfirst] at hfiled
    have hread := readFile_of_file hk.closed (hs.passable hplace name List.mem_cons_self) hfiled
    rw [get_of_file hplace hread, if_neg (not_not.mpr (hexOf_of_first? hfirst))]

/-- An upload adds its content, unless an earlier one has its hash. -/
theorem store_stocked (hs : Suits root) (hk : Stocked root contents files) (content : Bytes) (mime : Option String) :
    ∃ files', store root files content mime = (.ok (Blob.describe content mime), files') ∧
      Stocked root (contents ++ [content]) files' := by
  obtain ⟨d, name, hplace⟩ := place_of_isHash (isHash_hexOf content)
  have hexists := hk.exists?_eq hs hplace
  have hfiled := hk.filed hplace
  cases hfirst : first? contents (Blake3.hexOf content) with
  | some c =>
    rw [hfirst] at hexists
    refine ⟨files, store_of_exists hplace hexists, hk.closed, hk.clear, fun hplace' => ?_, hk.settled⟩
    rw [first?_append_of_some hfirst, hk.filed hplace']
  | none =>
    rw [hfirst] at hexists hfiled
    obtain ⟨files', hrun, hc, hentries⟩ := run_publish hk.closed (hs.passable hplace name List.mem_cons_self)
      (hs.passable hplace _ (List.mem_cons_of_mem _ List.mem_cons_self)) (hk.clear hplace) (by rw [hfiled]; nofun)
      (by rw [hk.settled hplace]; nofun) content
    refine ⟨files', ?_, hc, fun hplace' => ?_, fun {hex' d' name'} hplace' => ?_, fun hplace' => ?_⟩
    · rw [store_of_missing hplace hexists, hrun]
      rfl
    · exact (hk.clear hplace').of_published hentries (not_prefix_place hplace hplace' _)
    · rw [hentries, first?_append, hk.filed hplace']
      by_cases hsame : hex' = Blake3.hexOf content
      · obtain ⟨rfl, rfl⟩ := Prod.mk.inj (Except.ok.inj ((hsame ▸ hplace').symm.trans hplace))
        rw [if_pos rfl, hsame, hfirst, if_pos rfl]
        rfl
      · rw [if_neg fun heq => hsame (hex_eq_of_path hplace' hplace heq), if_neg (temporary_ne_path hplace' hplace),
          if_neg fun hp => not_prefix_place hplace' hplace _ hp.2, if_neg (Ne.symm hsame), Option.or_none]
    · rw [hentries, if_neg fun heq => temporary_ne_path hplace hplace' heq.symm, hk.settled hplace']
      split
      · rfl
      · exact if_neg fun hp => not_prefix_place hplace' hplace _ hp.2

/-! ## Uploads -/

structure Upload where
  content : Bytes
  mime : Option String
  deriving DecidableEq, Repr

/-- One upload after another, with the answer to each. -/
def storeAll (root : Path) (files : FileTree) : List Upload → List (Except StorageError Binary) × FileTree
  | [] => ([], files)
  | u :: later =>
    let (answer, files) := store root files u.content u.mime
    let (answers, files) := storeAll root files later
    (answer :: answers, files)

theorem storeAll_stocked (hs : Suits root) (hk : Stocked root contents files) (uploads : List Upload) :
    ∃ files', storeAll root files uploads = (uploads.map fun u => .ok (Blob.describe u.content u.mime), files') ∧
      Stocked root (contents ++ uploads.map (·.content)) files' := by
  induction uploads generalizing contents files with
  | nil => exact ⟨files, rfl, by rwa [List.map_nil, List.append_nil]⟩
  | cons u later ih =>
    obtain ⟨files₁, hstore, hk₁⟩ := store_stocked hs hk u.content u.mime
    obtain ⟨files₂, hlater, hk₂⟩ := ih hk₁
    refine ⟨files₂, ?_, by rwa [List.append_assoc] at hk₂⟩
    rw [storeAll, hstore]
    dsimp only
    rw [hlater]
    rfl

/-- The metadata `m` describe an uploaded content, and lead to it: a read at their location gives it
    back, and of the contents in use their digest is accepted for it alone. -/
structure Describes (root : Path) (files : FileTree) (used : Set Bytes) (u : Upload) (m : Binary) : Prop where
  kept : get root files m.location = .ok (some u.content)
  there : has root files m.location = .ok true
  mime : m.mime = u.mime
  size : u.content.length < UInt64.size → m.size.toNat = u.content.length
  digest : ∀ c ∈ used, Digest.check c m.digest = .ok () ↔ c = u.content

/-- Each upload has its description, the locations tell the contents apart, and nothing is at any other
    location. -/
structure Addressed (root : Path) (files : FileTree) (used : Set Bytes) (uploads : List Upload) (ms : List Binary) :
    Prop where
  described : List.Forall₂ (Describes root files used) uploads ms
  apart : ∀ x ∈ uploads.zip ms, ∀ y ∈ uploads.zip ms, x.2.location = y.2.location ↔ x.1.content = y.1.content
  elsewhere : ∀ location, Locates location → location ∉ ms.map (·.location) →
    get root files location = .ok none ∧ has root files location = .ok false

/-- While no two of the contents have one hash, the first content of the hash of one is that one. -/
theorem first?_of_mem {used : Set Bytes} (ha : used.InjOn Blake3.hash) (hu : ∀ c ∈ contents, c ∈ used) {c : Bytes}
    (hc : c ∈ contents) : first? contents (Blake3.hexOf c) = some c := by
  cases hfirst : first? contents (Blake3.hexOf c) with
  | none => exact absurd (List.find?_eq_none.mp hfirst c hc) (by simp)
  | some c' =>
    have hc' : c' ∈ contents := List.mem_of_find?_eq_some hfirst
    rw [ha (hu c' hc') (hu c hc) (Blake3.hexOf_inj.mp (hexOf_of_first? hfirst))]

theorem mem_zip_describe {uploads : List Upload} {x : Upload × Binary}
    (h : x ∈ uploads.zip (uploads.map fun u => Blob.describe u.content u.mime)) :
    x.1 ∈ uploads ∧ x.2 = Blob.describe x.1.content x.1.mime := by
  rw [← List.map_id uploads, List.map_map, List.zip_map'] at h
  obtain ⟨u, hu, rfl⟩ := List.mem_map.mp h
  exact ⟨by simpa using hu, rfl⟩

theorem Stocked.addressed {used : Set Bytes} {uploads : List Upload} (hs : Suits root)
    (hk : Stocked root (uploads.map (·.content)) files) (ha : used.InjOn Blake3.hash)
    (hu : ∀ u ∈ uploads, u.content ∈ used) :
    Addressed root files used uploads (uploads.map fun u => Blob.describe u.content u.mime) where
  described := by
    have hused : ∀ c ∈ uploads.map (·.content), c ∈ used := List.forall_mem_map.mpr hu
    refine List.forall₂_map_right_iff.mpr (List.forall₂_same.mpr fun u hmem => ?_)
    have hfirst := first?_of_mem ha hused (List.mem_map_of_mem hmem)
    have hhash := isHash_hexOf u.content
    exact {
      kept := by rw [← hfirst]; exact get_stocked hs hk hhash
      there := by rw [Blob.describe, has_stocked hs hk hhash, hfirst]; rfl
      mime := rfl
      size := fun h => UInt64.toNat_ofNat_of_lt' h
      digest := fun c hc => by
        rw [Digest.check_eq_ok_iff, Digest.of_describe_iff]
        exact ⟨fun h => ha hc (hu u hmem) h.symm, fun h => h ▸ rfl⟩ }
  apart x hx y hy := by
    obtain ⟨hxu, hxm⟩ := mem_zip_describe hx
    obtain ⟨hyu, hym⟩ := mem_zip_describe hy
    rw [hxm, hym]
    refine Blob.locationOf_inj.trans (Blake3.hexOf_inj.trans ⟨fun h => ?_, fun h => by rw [h]⟩)
    exact ha (hu _ hxu) (hu _ hyu) h
  elsewhere location hl hne := by
    obtain ⟨hex, hhash, rfl⟩ := hl
    have hnone : first? (uploads.map (·.content)) hex = none := by
      refine List.find?_eq_none.mpr fun c hc he => hne ?_
      obtain ⟨u, hmem, rfl⟩ := List.mem_map.mp hc
      rw [← of_decide_eq_true he]
      exact List.mem_map.mpr ⟨_, List.mem_map_of_mem hmem, rfl⟩
    rw [get_stocked hs hk hhash, has_stocked hs hk hhash, hnone]
    exact ⟨rfl, rfl⟩

/-- However many blobs are uploaded to a new directory, each of those so far is found by its description,
    and nothing by anything else; and a digest, whatever it looks like, is accepted for a content just if it
    is one of it, and is malformed input else. -/
theorem addresses_faithful (hs : Suits root) (hb : Blank root files) {used : Set Bytes} (ha : used.InjOn Blake3.hash)
    {uploads : List Upload} (hu : ∀ u ∈ uploads, u.content ∈ used) :
    (∃ made files' ms, create root files = (.ok (), made) ∧ storeAll root made uploads = (ms.map .ok, files') ∧
      Addressed root files' used uploads ms) ∧
    ∀ content digest, (Digest.check content digest = .ok () ↔ Digest.Of content digest) ∧
      (¬ Digest.Of content digest → ∃ why, Digest.check content digest = .error (.malformedInput why)) := by
  refine ⟨?_, fun content digest => ⟨Digest.check_eq_ok_iff, Digest.check_of_not_of⟩⟩
  obtain ⟨made, hmade, hblank⟩ := create_blank hs hb
  obtain ⟨files', hall, hk⟩ := storeAll_stocked hs hblank.stocked uploads
  refine ⟨made, files', _, hmade, ?_, hk.addressed hs ha hu⟩
  rw [hall, List.map_map]
  rfl

/-- A text twice, with a media type and without, and no content at all. -/
def someTwice : List Upload :=
  [⟨[115, 97, 109, 101], none⟩, ⟨[115, 97, 109, 101], some "text/plain"⟩, ⟨[], none⟩]

/-- The contents of these uploads, and one that is checked against their digests only. -/
def someContents : List Bytes := [[115, 97, 109, 101], [], [111, 116, 104, 101, 114]]

theorem someTwice_addressed :
    ∃ made files' ms, create ["data", "blobs"] .empty = (.ok (), made) ∧
      storeAll ["data", "blobs"] made someTwice = (ms.map .ok, files') ∧
      Addressed ["data", "blobs"] files' {c | c ∈ someContents} someTwice ms := by
  have hnodup : (someContents.map Blake3.hash).Nodup := by decide +kernel
  have hapart : Set.InjOn Blake3.hash {c | c ∈ someContents} :=
    fun c hc c' hc' heq => List.inj_on_of_nodup_map hnodup hc hc' heq
  have hused : ∀ u ∈ someTwice, u.content ∈ someContents := by decide
  exact (addresses_faithful (by decide +kernel) (.of_empty _) hapart hused).1

end BlobFiles

end LinkedData
