/-
  LinkedData.Proofs.LateReadings — a reading of the past while the past is changed.

  A reading takes two steps: it lists the times of an identifier and selects one, and then it loads
  the memento of that time from the files as they are by then (`getAcross`). Between the two, others
  put mementos of the identifier and delete them.

  Proved, for every history and every sequence of changes in between (`late_reading`): the answer is
  the one of an undisturbed reading at some moment from the listing to the loading, or the memento that
  was selected is another one by then, in one of two ways.
  (1) It was deleted. Then the answer is nothing, though at every moment there was something to answer
      (`Vanished`).
  (2) It was recorded anew, when a later one that is not too late had been recorded. Then the answer is
      a state that was never the latest (`Overtaken`).
  The first does happen (`vanished_reading`), and so does the second (`overtaken_reading`).
-/

import LinkedData.Proofs.Chronicles

namespace LinkedData

open Std

/-! ## What histories say of a time -/

namespace Histories

/-- `u` is the latest time until `t` that has an entry. -/
structure Latest (h : Histories) (id : Iri) (t u : Instant) : Prop where
  le : u ≤ t
  there : h id u ≠ none
  last : ∀ v, v ≤ t → h id v ≠ none → v ≤ u

/-- What is loaded for an entry. -/
def loaded (h : Histories) (id : Iri) (u : Instant) : Except StorageError (Option Resource) :=
  match h id u with
  | none => .ok none
  | some r => if r.id = id then .ok (some r) else .error (.hashMismatch id.text r.id.text)

variable {h : Histories} {id : Iri} {t u : Instant}

theorem loaded_of_some {r : Resource} (hr : h id u = some r) :
    h.loaded id u = if r.id = id then .ok (some r) else .error (.hashMismatch id.text r.id.text) := by
  rw [loaded, hr]

theorem loaded_of_none (hnone : h id u = none) : h.loaded id u = .ok none := by
  rw [loaded, hnone]

theorem Latest.unique {v : Instant} (hu : h.Latest id t u) (hv : h.Latest id t v) : u = v :=
  Instant.le_antisymm (hv.last u hu.le hu.there) (hu.last v hv.le hv.there)

/-- The histories after the first `k` of some questions. -/
def after (h : Histories) (qs : List Question) (k : Nat) : Histories := (qs.take k).foldl Question.change h

end Histories

theorem Chronicle.after {α : Type} [MementoStore α] {known : Set Iri}
    {able : Iri → Instant → Option Resource → Prop} {holds : α → Histories → Prop}
    (hc : Chronicle known able holds) {a : α} {h : Histories} (hh : holds a h) {qs : List Question}
    (hid : ∀ q ∈ qs, q.id ∈ known) (hq : ∀ q ∈ qs, q.Able able) :
    holds (Question.askAll a qs).2 (qs.foldl Question.change h) := by
  induction qs generalizing a h with
  | nil => exact hh
  | cons q qs ih =>
    have hnext := (hc.step hh (hid q List.mem_cons_self) (hq q List.mem_cons_self)).2
    exact ih hnext (fun p hp => hid p (List.mem_cons_of_mem q hp)) fun p hp => hq p (List.mem_cons_of_mem q hp)

/-! ## Readings in two steps -/

namespace FileArchive

open MementoFiles

/-- A reading that lists what is in one archive, and loads from the archive as it is later. -/
def getAcross (listed later : FileArchive) (id : Iri) (t : Instant) : Except StorageError (Option Resource) := do
  match Memento.select (← MementoStore.list listed id) t with
  | none => return none
  | some selected => load later.mementos later.files id selected

theorem getAcross_self (a : FileArchive) (id : Iri) (t : Instant) : a.getAcross a id t = MementoStore.get a id t := rfl

/-- The archive holds the history `h` of one identifier. -/
def Records (id : Iri) (a : FileArchive) (h : Histories) : Prop := Suits a.mementos ∧ Keeps a.mementos {id} a.files h

theorem chronicle_records (id : Iri) : Chronicle {id} Lasting (Records id) := chronicle (Set.injOn_singleton _ _)

variable {id : Iri} {a b : FileArchive} {h g : Histories} {t u : Instant}

theorem Records.load (hb : Records id b g) (hu : u.Valid) : load b.mementos b.files id u = g.loaded id u := by
  have hid : id ∈ ({id} : Set Iri) := rfl
  cases hr : g id u with
  | some r => rw [load_eq hb.1 hb.2 hid hr, Histories.loaded_of_some hr]
  | none =>
    have hmissing : b.files.entries[MementoFiles.path b.mementos id u]? = none := by
      rw [hb.2.filed id hid u hu, hr]
      rfl
    rw [MementoFiles.load, MementoFiles.path,
      FileTree.readFile_of_missing (hb.1.passable id (fit_fileName hu)) (hb.2.clear id) hmissing,
      Histories.loaded_of_none hr]

/-- What is selected, if anything, is the latest when it is listed, and loaded as it is later. -/
theorem Records.getAcross_cases (ha : Records id a h) (hb : Records id b g) (t : Instant) :
    ((∀ u, u ≤ t → h id u = none) ∧ a.getAcross b id t = .ok none) ∨
      ∃ u, h.Latest id t u ∧ a.getAcross b id t = g.loaded id u := by
  have hid : id ∈ ({id} : Set Iri) := rfl
  obtain ⟨ts, hlist, hts, hmem⟩ := list_ok ha.1 ha.2 hid
  have hacross : a.getAcross b id t =
      ((ts.filter (· ≤ t)).getLast?).elim (.ok none) (MementoFiles.load b.mementos b.files id) := by
    rw [← Memento.select_eq hts]
    unfold getAcross
    rw [show MementoStore.list a id = .ok ts from hlist]
    simp only [bind, Except.bind]
    cases Memento.select ts t <;> rfl
  rw [hacross]
  rcases Memento.last_cases hts t with ⟨hlast, hnone⟩ | ⟨u, hlast, hu, hle, hgreatest⟩
  · rw [hlast]
    refine .inl ⟨fun u hu => ?_, rfl⟩
    by_contra hsome
    exact hnone u ((hmem u).mpr hsome) hu
  · have hthere := (hmem u).mp hu
    rw [hlast, Option.elim_some, hb.load (ha.2.entry_of_some hid hthere).1]
    exact .inr ⟨u, ⟨hle, hthere, fun v hv hsome => hgreatest v ((hmem v).mpr hsome) hv⟩, rfl⟩

theorem Records.getAcross_of_latest (ha : Records id a h) (hb : Records id b g) (hu : h.Latest id t u) :
    a.getAcross b id t = g.loaded id u := by
  rcases ha.getAcross_cases hb t with ⟨hnone, -⟩ | ⟨v, hv, hacross⟩
  · exact absurd (hnone u hu.le) hu.there
  · rw [hu.unique hv, hacross]

/-- An undisturbed reading. -/
theorem Records.get_of_latest (ha : Records id a h) (hu : h.Latest id t u) : MementoStore.get a id t = h.loaded id u :=
  ha.getAcross_of_latest ha hu

theorem Records.get_eq_none_iff (ha : Records id a h) :
    MementoStore.get a id t = .ok none ↔ ∀ u, u ≤ t → h id u = none := by
  rw [← getAcross_self]
  rcases ha.getAcross_cases ha t with ⟨hnone, hget⟩ | ⟨u, hu, hget⟩
  · exact ⟨fun _ => hnone, fun _ => hget⟩
  · obtain ⟨r, hr⟩ := Option.ne_none_iff_exists'.mp hu.there
    refine ⟨fun h => ?_, fun hnone => absurd (hnone u hu.le) hu.there⟩
    rw [hget, Histories.loaded_of_some hr] at h
    split at h <;> cases h

/-! ## What a late reading answers -/

/-- The archive after the first `k` of some questions. -/
def after (a : FileArchive) (qs : List Question) (k : Nat) : FileArchive := (Question.askAll a (qs.take k)).2

theorem Records.after (ha : Records id a h) {qs : List Question} (hid : ∀ q ∈ qs, q.id = id)
    (hq : ∀ q ∈ qs, q.Able Lasting) (k : Nat) : Records id (a.after qs k) (h.after qs k) :=
  (chronicle_records id).after ha (fun q hmem => hid q (List.mem_of_mem_take hmem))
    fun q hmem => hq q (List.mem_of_mem_take hmem)

/-- The memento of `u` is gone in the end, though at every moment there is one until `t`. -/
structure Vanished (h : Histories) (qs : List Question) (id : Iri) (t u : Instant) : Prop where
  gone : h.after qs qs.length id u = none
  never_bare : ∀ k ≤ qs.length, ∃ v, v ≤ t ∧ h.after qs k id v ≠ none

/-- The memento of `u` is `r` in the end, as it was not before, and there is a later one until `t` whenever it
    is `r`. -/
structure Overtaken (h : Histories) (qs : List Question) (id : Iri) (t u : Instant) (r : Resource) : Prop where
  anew : h.after qs qs.length id u = some r ∧ h id u ≠ some r
  behind : ∀ k ≤ qs.length, h.after qs k id u = some r → ∃ v, u < v ∧ v ≤ t ∧ h.after qs k id v ≠ none

/-- A reading that is disturbed answers what an undisturbed one would at some moment from the listing to the
    loading; or else the memento that was the latest at first was deleted, and it answers nothing, or was
    recorded anew behind a later one, and it answers that. -/
theorem late_reading (ha : Records id a h) {qs : List Question} (hid : ∀ q ∈ qs, q.id = id)
    (hq : ∀ q ∈ qs, q.Able Lasting) (t : Instant) :
    (∃ k ≤ qs.length, a.getAcross (a.after qs qs.length) id t = MementoStore.get (a.after qs k) id t) ∨
      (∀ k ≤ qs.length, a.getAcross (a.after qs qs.length) id t ≠ MementoStore.get (a.after qs k) id t) ∧
        ∃ u, h.Latest id t u ∧
          (Vanished h qs id t u ∧ a.getAcross (a.after qs qs.length) id t = .ok none ∨
            ∃ r, Overtaken h qs id t u r ∧ a.getAcross (a.after qs qs.length) id t =
              if r.id = id then .ok (some r) else .error (.hashMismatch id.text r.id.text)) := by
  have hrecords : ∀ k, Records id (a.after qs k) (h.after qs k) := fun k => ha.after hid hq k
  rcases ha.getAcross_cases (hrecords qs.length) t with ⟨hnone, hacross⟩ | ⟨u, hu, hacross⟩
  · refine .inl ⟨0, Nat.zero_le _, ?_⟩
    rw [hacross, (hrecords 0).get_eq_none_iff.mpr]
    exact hnone
  · by_cases hseen : ∃ k ≤ qs.length, a.getAcross (a.after qs qs.length) id t = MementoStore.get (a.after qs k) id t
    · exact .inl hseen
    have hnever : ∀ k ≤ qs.length, a.getAcross (a.after qs qs.length) id t ≠ MementoStore.get (a.after qs k) id t :=
      fun k hk heq => hseen ⟨k, hk, heq⟩
    refine .inr ⟨hnever, u, hu, ?_⟩
    rw [hacross] at hnever ⊢
    cases hr : h.after qs qs.length id u with
    | none =>
      rw [Histories.loaded_of_none hr] at hnever ⊢
      refine .inl ⟨⟨hr, fun k hk => ?_⟩, rfl⟩
      by_contra hbare
      refine hnever k hk ((hrecords k).get_eq_none_iff.mpr fun v hv => ?_).symm
      by_contra hsome
      exact hbare ⟨v, hv, hsome⟩
    | some r =>
      have hloaded := Histories.loaded_of_some hr
      have hbehind : ∀ k ≤ qs.length, h.after qs k id u = some r →
          ∃ v, u < v ∧ v ≤ t ∧ h.after qs k id v ≠ none := by
        intro k hk hkept
        by_contra hlast
        have hlatest : (h.after qs k).Latest id t u := by
          refine ⟨hu.le, by rw [hkept]; nofun, fun v hv hsome => ?_⟩
          by_contra hle
          exact hlast ⟨v, Instant.lt_of_not_le hle, hv, hsome⟩
        refine hnever k hk ?_
        rw [(hrecords k).get_of_latest hlatest, hloaded, Histories.loaded_of_some hkept]
      refine .inr ⟨r, ⟨⟨hr, fun hbefore => ?_⟩, hbehind⟩, hloaded⟩
      obtain ⟨v, huv, hv, hsome⟩ := hbehind 0 (Nat.zero_le _) hbefore
      have hvu := hu.last v hv hsome
      rw [Instant.lt_def] at huv
      rw [Instant.le_def] at hvu
      omega

/-! ## Histories of some writes -/

/-- The time that a question writes to. -/
def written? : Question → Option Instant
  | .put _ t _ => some t
  | .list _ | .get _ _ | .delete _ _ => none

/-- The histories that some questions leave, when there were none before. -/
def noted (qs : List Question) : Histories := Histories.after (fun _ _ => none) qs qs.length

/-- An archive of its own, after some questions. -/
def recorded (qs : List Question) : FileArchive := after ⟨.empty, ["mementos"], ["binaries"]⟩ qs qs.length

theorem records_recorded {qs : List Question} (hid : ∀ q ∈ qs, q.id = id) (hq : ∀ q ∈ qs, q.Able Lasting) :
    Records id (recorded qs) (noted qs) := by
  have hempty : ∀ p : Path, FileTree.empty.entries[p]? = none := by simp [FileTree.empty]
  have hclear : FileTree.empty.Clear ["mementos"] := fun q _ content => by
    rw [hempty]
    exact (Option.some_ne_none _).symm
  have hblank : Records id ⟨.empty, ["mementos"], ["binaries"]⟩ fun _ _ => none :=
    ⟨by decide, keeps_absent (by decide) FileTree.closed_empty hclear (hempty _) _⟩
  exact hblank.after hid hq qs.length

theorem foldl_of_unwritten {qs : List Question} {v : Instant} (hq : ∀ q ∈ qs, written? q ≠ some v)
    (hnone : h id v = none) :
    qs.foldl Question.change h id v = none := by
  induction qs generalizing h with
  | nil => exact hnone
  | cons q qs ih =>
    refine ih (fun p hp => hq p (List.mem_cons_of_mem q hp)) ?_
    have hfirst := hq q List.mem_cons_self
    cases q with
    | put i s r =>
      have hne : s ≠ v := by simpa [written?] using hfirst
      simp [Question.change, Histories.set, Ne.symm hne, hnone]
    | delete i s => simp [Question.change, Histories.set, hnone]
    | list | get => exact hnone

/-- Of histories that are written down, it is enough to look at the times that were written to. -/
theorem latest_noted {qs : List Question} (hle : u ≤ t) (hthere : noted qs id u ≠ none)
    (hlast : ∀ v ∈ qs.filterMap written?, v ≤ t → noted qs id v ≠ none → v ≤ u) :
    (noted qs).Latest id t u := by
  refine ⟨hle, hthere, fun v hv hsome => hlast v ?_ hv hsome⟩
  by_contra hunwritten
  rw [List.mem_filterMap] at hunwritten
  refine hsome (foldl_of_unwritten (fun q hq hwritten => hunwritten ⟨q, List.mem_of_mem_take hq, hwritten⟩) rfl)

/-! Two states of a resource, of which the second is deleted while it is read. -/

def noteAt (t : Instant) : Resource := { plainNote with modified := t }

def twoStates : List Question :=
  [.put ⟨"trellis:data/a"⟩ ⟨7, 0⟩ (noteAt ⟨7, 0⟩), .put ⟨"trellis:data/a"⟩ ⟨9, 0⟩ (noteAt ⟨9, 0⟩)]

def removal : List Question := [.delete ⟨"trellis:data/a"⟩ ⟨9, 0⟩]

/-- Before the deletion the state as of then is the second, after it the first, and the reading that the deletion
    falls into finds nothing. -/
theorem vanished_reading : (∃ h, Records ⟨"trellis:data/a"⟩ (recorded twoStates) h) ∧
    MementoStore.get ((recorded twoStates).after removal 0) ⟨"trellis:data/a"⟩ ⟨10, 0⟩ =
      .ok (some (noteAt ⟨9, 0⟩)) ∧
      MementoStore.get ((recorded twoStates).after removal 1) ⟨"trellis:data/a"⟩ ⟨10, 0⟩ =
        .ok (some (noteAt ⟨7, 0⟩)) ∧
      (recorded twoStates).getAcross ((recorded twoStates).after removal removal.length) ⟨"trellis:data/a"⟩
        ⟨10, 0⟩ = .ok none := by
  have hrecords : Records ⟨"trellis:data/a"⟩ (recorded twoStates) (noted twoStates) :=
    records_recorded (by decide) (by decide +kernel)
  have hremoved : ∀ k, Records ⟨"trellis:data/a"⟩ ((recorded twoStates).after removal k)
      ((noted twoStates).after removal k) :=
    hrecords.after (by decide) (by decide +kernel)
  have hbefore : (noted twoStates).Latest ⟨"trellis:data/a"⟩ ⟨10, 0⟩ ⟨9, 0⟩ :=
    latest_noted (by decide) (by decide) (by decide)
  have hafter : (noted (twoStates ++ removal)).Latest ⟨"trellis:data/a"⟩ ⟨10, 0⟩ ⟨7, 0⟩ :=
    latest_noted (by decide) (by decide) (by decide)
  exact ⟨⟨_, hrecords⟩, ((hremoved 0).get_of_latest hbefore).trans (by decide),
    ((hremoved 1).get_of_latest hafter).trans (by decide),
    (hrecords.getAcross_of_latest (hremoved 1) hbefore).trans (by decide)⟩

/-! One state, recorded anew behind a later one while it is read. -/

def oneState : List Question := [.put ⟨"trellis:data/a"⟩ ⟨7, 0⟩ (noteAt ⟨7, 0⟩)]

def revisedNote : Resource := { noteAt ⟨7, 0⟩ with model := .container }

def revision : List Question :=
  [.put ⟨"trellis:data/a"⟩ ⟨8, 0⟩ (noteAt ⟨8, 0⟩), .put ⟨"trellis:data/a"⟩ ⟨7, 0⟩ revisedNote]

theorem overtaken_reading : Records ⟨"trellis:data/a"⟩ (recorded oneState) (noted oneState) ∧
    (∀ q ∈ revision, q.id = ⟨"trellis:data/a"⟩) ∧ (∀ q ∈ revision, q.Able Lasting) ∧
      (recorded oneState).getAcross ((recorded oneState).after revision revision.length) ⟨"trellis:data/a"⟩
        ⟨10, 0⟩ = .ok (some revisedNote) ∧
      ∃ u r, (noted oneState).Latest ⟨"trellis:data/a"⟩ ⟨10, 0⟩ u ∧
        Overtaken (noted oneState) revision ⟨"trellis:data/a"⟩ ⟨10, 0⟩ u r := by
  have hrecords : Records ⟨"trellis:data/a"⟩ (recorded oneState) (noted oneState) :=
    records_recorded (by decide) (by decide +kernel)
  have hid : ∀ q ∈ revision, q.id = ⟨"trellis:data/a"⟩ := by decide
  have hable : ∀ q ∈ revision, q.Able Lasting := by decide +kernel
  have hrevised := hrecords.after hid hable
  have hfirst : (noted oneState).Latest ⟨"trellis:data/a"⟩ ⟨10, 0⟩ ⟨7, 0⟩ :=
    latest_noted (by decide) (by decide) (by decide)
  have hlater : (noted (oneState ++ revision.take 1)).Latest ⟨"trellis:data/a"⟩ ⟨10, 0⟩ ⟨8, 0⟩ :=
    latest_noted (by decide) (by decide) (by decide)
  have hlast : (noted (oneState ++ revision)).Latest ⟨"trellis:data/a"⟩ ⟨10, 0⟩ ⟨8, 0⟩ :=
    latest_noted (by decide) (by decide) (by decide)
  have hacross : (recorded oneState).getAcross ((recorded oneState).after revision revision.length)
      ⟨"trellis:data/a"⟩ ⟨10, 0⟩ =
      .ok (some revisedNote) := (hrecords.getAcross_of_latest (hrevised 2) hfirst).trans (by decide)
  refine ⟨hrecords, hid, hable, hacross, ?_⟩
  rcases late_reading hrecords hid hable ⟨10, 0⟩ with
    ⟨k, hk, hseen⟩ | ⟨-, u, hu, ⟨-, hnone⟩ | ⟨r, hr, -⟩⟩
  · rw [hacross] at hseen
    have hk' : k = 0 ∨ k = 1 ∨ k = 2 := by
      have hlength : revision.length = 2 := rfl
      omega
    rcases hk' with rfl | rfl | rfl
    · exact absurd (hseen.trans ((hrevised 0).get_of_latest hfirst)) (by decide)
    · exact absurd (hseen.trans ((hrevised 1).get_of_latest hlater)) (by decide)
    · exact absurd (hseen.trans ((hrevised 2).get_of_latest hlast)) (by decide)
  · rw [hacross] at hnone
    cases hnone
  · exact ⟨u, r, hu, hr⟩

end FileArchive

end LinkedData
