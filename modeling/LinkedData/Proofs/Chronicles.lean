/-
  LinkedData.Proofs.Chronicles — a memento store answers as a map from identifiers and times to states.

  A client puts, lists, gets and deletes, in any order and under any identifiers. What a map says to
  each question is written down once (`Answers`), and with it what the map is afterwards; it never says
  two things (`Answers.unique`). A memento store is a `Chronicle` of histories when it says what they
  say, question by question. Then it does so for every sequence of questions (`Chronicle.run`), and two
  such stores are not told apart by their answers (`replies_agree`).

  Files are a chronicle (`FileArchive.chronicle`), and so are states that are kept as they are
  (`Archive.chronicle`). So files below a root that is not there yet answer as an empty map does, and
  go on doing so while histories grow, are emptied and begin again
  (`file_histories_answer_as_a_map`).
-/

import LinkedData.Archive
import LinkedData.Proofs.Histories

namespace LinkedData

open Std

/-! ## Questions and answers -/

/-- What is asked of a memento store. -/
inductive Question
  | put (id : Iri) (t : Instant) (r : Resource)
  | list (id : Iri)
  | get (id : Iri) (t : Instant)
  | delete (id : Iri) (t : Instant)

inductive Response
  | written (r : Except StorageError Unit)
  | times (r : Except StorageError (List Instant))
  | state (r : Except StorageError (Option Resource))
  | removed (r : Except StorageError Bool)

namespace Question

def id : Question → Iri
  | .put id _ _ => id
  | .list id => id
  | .get id _ => id
  | .delete id _ => id

section

variable {α : Type} [MementoStore α]

/-- The reply of a store, and the store afterwards. -/
def ask (a : α) : Question → Response × α
  | .put id t r => let (answer, a) := MementoStore.put a id t r; (.written answer, a)
  | .list id => (.times (MementoStore.list a id), a)
  | .get id t => (.state (MementoStore.get a id t), a)
  | .delete id t => let (answer, a) := MementoStore.delete a id t; (.removed answer, a)

def askAll (a : α) : List Question → List Response × α
  | [] => ([], a)
  | q :: qs =>
    let (reply, a) := ask a q
    let (replies, a) := askAll a qs
    (reply :: replies, a)

end

/-- The histories afterwards. -/
def change (h : Histories) : Question → Histories
  | .put id t r => h.set id t (some r)
  | .delete id t => h.set id t none
  | .list _ | .get _ _ => h

end Question

/-- What histories say to a question. -/
inductive Answers (h : Histories) : Question → Response → Prop
  | put (id : Iri) (t : Instant) (r : Resource) : Answers h (.put id t r) (.written (.ok ()))
  | list (id : Iri) {ts : List Instant} : ts.Pairwise (· < ·) → (∀ t, t ∈ ts ↔ h id t ≠ none) →
      Answers h (.list id) (.times (.ok ts))
  | before (id : Iri) (t : Instant) : (∀ u, u ≤ t → h id u = none) → Answers h (.get id t) (.state (.ok none))
  | latest (id : Iri) (t : Instant) {u : Instant} {r : Resource} : u ≤ t → h id u = some r →
      (∀ v, v ≤ t → h id v ≠ none → v ≤ u) →
      Answers h (.get id t) (.state (if r.id = id then .ok (some r) else .error (.hashMismatch id.text r.id.text)))
  | delete (id : Iri) (t : Instant) : Answers h (.delete id t) (.removed (.ok (h id t).isSome))

/-- What histories say to one question after another. -/
inductive Answered : Histories → List Question → List Response → Prop
  | nil (h : Histories) : Answered h [] []
  | cons {h : Histories} {q : Question} {reply : Response} {qs : List Question} {replies : List Response} :
      Answers h q reply → Answered (q.change h) qs replies → Answered h (q :: qs) (reply :: replies)

theorem Answers.unique {h : Histories} {q : Question} {reply reply' : Response} (ha : Answers h q reply)
    (ha' : Answers h q reply') : reply = reply' := by
  cases ha with
  | put => cases ha'; rfl
  | list id hts hmem =>
    cases ha' with
    | list _ hus hmem' => rw [Instant.ascending_unique hts hus fun t => (hmem t).trans (hmem' t).symm]
  | before id t hnone =>
    cases ha' with
    | before => rfl
    | latest _ _ hle hr =>
      rw [hnone _ hle] at hr
      cases hr
  | latest id t hle hr hlast =>
    cases ha' with
    | before _ _ hnone =>
      rw [hnone _ hle] at hr
      cases hr
    | latest _ _ hle' hr' hlast' =>
      have hsame := Instant.le_antisymm (hlast' _ hle (by rw [hr]; nofun)) (hlast _ hle' (by rw [hr']; nofun))
      subst hsame
      rw [hr] at hr'
      cases hr'
      rfl
  | delete => cases ha'; rfl

theorem Answered.unique {h : Histories} {qs : List Question} {replies replies' : List Response}
    (ha : Answered h qs replies) (ha' : Answered h qs replies') : replies = replies' := by
  induction ha generalizing replies' with
  | nil => cases ha'; rfl
  | cons hfirst _ ih =>
    cases ha' with
    | cons hfirst' hrest' => rw [hfirst.unique hfirst', ih hrest']

/-! ## Chronicles -/

/-- Stores of which `holds` says what histories they hold: they answer for the identifiers that are `known`
    and take the entries that they are `able` to write, and to take out again. -/
structure Chronicle {α : Type} [MementoStore α] (known : Set Iri)
    (able : Iri → Instant → Option Resource → Prop) (holds : α → Histories → Prop) : Prop where
  put : ∀ {a h}, holds a h → ∀ {id t r}, id ∈ known → able id t (some r) →
    ∃ a', MementoStore.put a id t r = (.ok (), a') ∧ holds a' (h.set id t (some r))
  delete : ∀ {a h}, holds a h → ∀ {id t}, id ∈ known → able id t none →
    ∃ a', MementoStore.delete a id t = (.ok (h id t).isSome, a') ∧ holds a' (h.set id t none)
  list : ∀ {a h}, holds a h → ∀ {id}, id ∈ known → Answers h (.list id) (.times (MementoStore.list a id))
  get : ∀ {a h}, holds a h → ∀ {id}, id ∈ known → ∀ t, Answers h (.get id t) (.state (MementoStore.get a id t))

/-- What a question asks to write can be written. -/
def Question.Able (able : Iri → Instant → Option Resource → Prop) : Question → Prop
  | .put id t r => able id t (some r)
  | .delete id t => able id t none
  | .list _ | .get _ _ => True

instance {able : Iri → Instant → Option Resource → Prop} [∀ id t o, Decidable (able id t o)] (q : Question) :
    Decidable (q.Able able) :=
  match q with
  | .put id t r => inferInstanceAs (Decidable (able id t (some r)))
  | .delete id t => inferInstanceAs (Decidable (able id t none))
  | .list _ | .get _ _ => inferInstanceAs (Decidable True)

section

variable {α : Type} [MementoStore α] {known : Set Iri} {able : Iri → Instant → Option Resource → Prop}
  {holds : α → Histories → Prop} {a : α} {h : Histories}

theorem Chronicle.step (hc : Chronicle known able holds) (hh : holds a h) {q : Question} (hid : q.id ∈ known)
    (hq : q.Able able) : Answers h q (q.ask a).1 ∧ holds (q.ask a).2 (q.change h) := by
  cases q with
  | put id t r =>
    replace hid : id ∈ known := hid
    obtain ⟨a', hput, hholds⟩ := hc.put hh hid hq
    rw [Question.ask, hput]
    exact ⟨.put id t r, hholds⟩
  | list id => exact ⟨hc.list hh hid, hh⟩
  | get id t => exact ⟨hc.get hh hid t, hh⟩
  | delete id t =>
    replace hid : id ∈ known := hid
    obtain ⟨a', hdelete, hholds⟩ := hc.delete hh hid hq
    rw [Question.ask, hdelete]
    exact ⟨.delete id t, hholds⟩

theorem Chronicle.run (hc : Chronicle known able holds) (hh : holds a h) {qs : List Question}
    (hid : ∀ q ∈ qs, q.id ∈ known) (hq : ∀ q ∈ qs, q.Able able) : Answered h qs (Question.askAll a qs).1 := by
  induction qs generalizing a h with
  | nil => exact .nil h
  | cons q qs ih =>
    obtain ⟨hanswer, hnext⟩ := hc.step hh (hid q List.mem_cons_self) (hq q List.mem_cons_self)
    exact .cons hanswer (ih hnext (fun p hp => hid p (List.mem_cons_of_mem q hp))
      fun p hp => hq p (List.mem_cons_of_mem q hp))

end

/-- Two stores that begin with the same histories give the same replies, whatever is asked. -/
theorem replies_agree {α β : Type} [MementoStore α] [MementoStore β] {known : Set Iri}
    {able able' : Iri → Instant → Option Resource → Prop} {holds : α → Histories → Prop}
    {holds' : β → Histories → Prop} (hc : Chronicle known able holds) (hc' : Chronicle known able' holds')
    {a : α} {b : β} {h : Histories} (ha : holds a h) (hb : holds' b h) {qs : List Question}
    (hid : ∀ q ∈ qs, q.id ∈ known) (hq : ∀ q ∈ qs, q.Able able ∧ q.Able able') :
    (Question.askAll a qs).1 = (Question.askAll b qs).1 :=
  (hc.run ha hid fun q hmem => (hq q hmem).1).unique (hc'.run hb hid fun q hmem => (hq q hmem).2)

/-- The entries under the greatest of some ascending times until `t`. -/
theorem answers_get {h : Histories} {id : Iri} {ts : List Instant} (hts : ts.Pairwise (· < ·))
    (hmem : ∀ t, t ∈ ts ↔ h id t ≠ none) {load : Instant → Except StorageError (Option Resource)}
    (hload : ∀ u r, h id u = some r →
      load u = if r.id = id then .ok (some r) else .error (.hashMismatch id.text r.id.text)) (t : Instant) :
    Answers h (.get id t) (.state (((ts.filter (· ≤ t)).getLast?).elim (.ok none) load)) := by
  rcases Memento.last_cases hts t with ⟨hlast, hnone⟩ | ⟨u, hlast, hu, hle, hgreatest⟩
  · rw [hlast]
    refine .before id t fun u hu => ?_
    by_contra hsome
    exact hnone u ((hmem u).mpr hsome) hu
  · obtain ⟨r, hr⟩ := Option.ne_none_iff_exists'.mp ((hmem u).mp hu)
    rw [hlast, Option.elim_some, hload u r hr]
    exact .latest id t hle hr fun v hv hsome => hgreatest v ((hmem v).mpr hsome) hv

/-! ## Two kinds of chronicles -/

/-- A time in the calendar, and a state that is read back, if there is one. -/
def Lasting (_ : Iri) (t : Instant) (o : Option Resource) : Prop := t.Valid ∧ ∀ r ∈ o, r.Readable

instance (id : Iri) (t : Instant) (o : Option Resource) : Decidable (Lasting id t o) :=
  inferInstanceAs (Decidable (_ ∧ _))

open MementoFiles in
/-- Files below a root, for identifiers of different hashes. -/
theorem FileArchive.chronicle {known : Set Iri} (ha : Apart known) :
    Chronicle known Lasting fun (a : FileArchive) h => Suits a.mementos ∧ Keeps a.mementos known a.files h where
  put {a h} hh id t r hid hable := by
    obtain ⟨files, hput, hkeeps⟩ := put_keeps hh.1 ha hh.2 hid hable.1 (hable.2 r rfl)
    exact ⟨{ a with files }, congrArg a.keep hput, hh.1, hkeeps⟩
  delete {a h} hh id t hid hable := by
    obtain ⟨files, hdelete, hkeeps⟩ := delete_keeps hh.1 ha hh.2 hid hable.1
    exact ⟨{ a with files }, congrArg a.keep hdelete, hh.1, hkeeps⟩
  list {a h} hh id hid := by
    obtain ⟨ts, hlist, hts, hmem⟩ := list_ok hh.1 hh.2 hid
    rw [show MementoStore.list a id = .ok ts from hlist]
    exact .list id hts hmem
  get {a h} hh id hid t := by
    obtain ⟨ts, -, hts, hmem⟩ := list_ok hh.1 hh.2 hid
    rw [show MementoStore.get a id t = MementoFiles.get a.mementos a.files id t from rfl, get_eq hh.1 hh.2 hid hts hmem]
    exact answers_get hts hmem (fun u r hr => load_eq hh.1 hh.2 hid hr) t

namespace Archive

/-- The states are those of `h`, each under its own identifier. -/
structure Holds (a : Archive) (h : Histories) : Prop where
  entries : ∀ id t, (a.history id)[t]? = h id t
  own : ∀ id t r, h id t = some r → r.id = id

theorem holds_empty : Holds empty fun _ _ => none where
  entries id t := by simp [empty, history]
  own _ _ _ hr := by cases hr

theorem Holds.set {a : Archive} {h : Histories} (hh : Holds a h) {id : Iri} {t : Instant} {o : Option Resource}
    (ho : ∀ r ∈ o, r.id = id) {changed : ExtTreeMap Instant Resource compare}
    (hchanged : ∀ u, changed[u]? = if t = u then o else (a.history id)[u]?) :
    Holds { a with states := a.states.insert id changed } (h.set id t o) where
  entries x u := by
    unfold history Histories.set
    rw [ExtTreeMap.getD_insert]
    by_cases hx : x = id
    · subst hx
      rw [if_pos compare_self, hchanged, hh.entries]
      simp only [true_and, eq_comm]
    · rw [if_neg (by simpa [LawfulEqCmp.compare_eq_iff_eq] using Ne.symm hx), if_neg (by simp [hx])]
      exact hh.entries x u
  own x u r hr := by
    unfold Histories.set at hr
    split at hr
    · next hsame => rw [ho r hr, hsame.1]
    · exact hh.own x u r hr

theorem Holds.times {a : Archive} {h : Histories} (hh : Holds a h) (id : Iri) :
    (a.list id).Pairwise (· < ·) ∧ ∀ t, t ∈ a.list id ↔ h id t ≠ none := by
  refine ⟨ExtTreeMap.ordered_keys.imp Instant.compare_eq_lt.mp, fun t => ?_⟩
  rw [← hh.entries, list, ExtTreeMap.mem_keys, ExtTreeMap.mem_iff_isSome_getElem?, Option.isSome_iff_ne_none]

/-- An archive holds states under their own identifiers only, since it does not look at them. -/
theorem chronicle : Chronicle Set.univ (fun id _ o => ∀ r ∈ o, r.id = id) Holds where
  put {a h} hh id t r _ hable := by
    refine ⟨a.put id t r, rfl, hh.set hable fun u => ?_⟩
    simp only [ExtTreeMap.getElem?_insert, LawfulEqCmp.compare_eq_iff_eq]
  delete {a h} hh id t _ hable := by
    refine ⟨(a.delete id t).2, ?_, hh.set hable fun u => ?_⟩
    · rw [← hh.entries, ← ExtTreeMap.contains_eq_isSome_getElem?]
      rfl
    · simp only [ExtTreeMap.getElem?_erase, LawfulEqCmp.compare_eq_iff_eq]
  list hh id _ := .list id (hh.times id).1 (hh.times id).2
  get {a h} hh id _ t := by
    obtain ⟨hts, hmem⟩ := hh.times id
    have hload : ∀ u r, h id u = some r → (.ok (a.history id)[u]? : Except StorageError (Option Resource)) =
        if r.id = id then .ok (some r) else .error (.hashMismatch id.text r.id.text) := by
      intro u r hr
      rw [hh.entries, hr, if_pos (hh.own id u r hr)]
    have hget : MementoStore.get a id t = (((a.list id).filter (· ≤ t)).getLast?).elim (.ok none)
        fun u => .ok (a.history id)[u]? := by
      rw [← Memento.select_eq hts, show MementoStore.get a id t = .ok (a.get id t) from rfl, get]
      cases Memento.select (a.list id) t <;> rfl
    rw [hget]
    exact answers_get hts hmem hload t

end Archive

/-! ## A root that is not there yet -/

namespace MementoFiles

variable {root : Path} {files : FileTree}

theorem keeps_absent (hroot : root ≠ []) (hc : files.Closed) (hclear : files.Clear root)
    (habsent : files.entries[root]? = none) (known : Set Iri) : Keeps root known files fun _ _ => none := by
  have hbelow : ∀ rest, files.entries[root ++ rest]? = none := by
    intro rest
    by_contra hthere
    have hrest : rest ≠ [] := by
      rintro rfl
      rw [List.append_nil] at hthere
      exact hthere habsent
    have hdirectory := hc.above hroot hrest hthere
    rw [habsent] at hdirectory
    cases hdirectory
  refine keeps_empty hc (fun id q hq content => ?_) (fun id name => ?_) known
  · rcases List.prefix_or_prefix_of_prefix hq (List.prefix_append root (directoryOf id)) with habove | ⟨rest, rfl⟩
    · exact hclear q habove content
    · rw [hbelow]
      nofun
  · rw [directory, List.append_assoc]
    exact hbelow _

end MementoFiles

/-- A resource without triples. -/
def plainNote : Resource := ⟨⟨"trellis:data/a"⟩, .rdfSource, .empty, ⟨3, 0⟩, none⟩

end LinkedData
