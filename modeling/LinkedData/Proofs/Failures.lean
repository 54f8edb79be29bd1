/-
  LinkedData.Proofs.Failures — what happens when mementos cannot be written, or news not sent.

  A `Faulty` store makes some of the attempts on the one within it fail, whichever one likes. A
  service with such an archive and such a sink tells its clients the same as one without, and
  comes to the same records, call by call and over whole runs; the attempts that do not fail are
  all made; and a call that answers with an error has changed no record, written no memento and
  sent no news (`failures_withstood`).

  Over whole runs the contents that are stored must not depend on the mementos in the archive,
  which may share a place with them. That is a relation of archives that are the `same` to who
  stores a content (`Separates`).
-/

import LinkedData.Proofs.Containment
import LinkedData.Proofs.Pipeline

namespace LinkedData

open Std

/-! ## Attempts that fail -/

structure Faulty (α : Type) where
  inner : α
  /-- Whether the next attempt fails, the one after it, and so on. -/
  fails : Nat → Bool

namespace Faulty

variable {α β E : Type}

/-- One attempt, which may fail whatever comes of it within. -/
def attempt (fault : E) (act : α → Except E Unit × α) (a : Faulty α) : Except E Unit × Faulty α :=
  if a.fails 0 then (.error fault, ⟨a.inner, fun n => a.fails (n + 1)⟩)
  else ((act a.inner).1, ⟨(act a.inner).2, fun n => a.fails (n + 1)⟩)

/-- What is left of a list of attempts without those that fail. -/
def spared (fails : Nat → Bool) : List β → List β
  | [] => []
  | b :: bs => if fails 0 then spared (fun n => fails (n + 1)) bs else b :: spared (fun n => fails (n + 1)) bs

theorem foldl_attempt (fault : E) (act : β → α → Except E Unit × α) (bs : List β) (a : Faulty α) :
    (bs.foldl (fun a b => (a.attempt fault (act b)).2) a).inner =
      (spared a.fails bs).foldl (fun a b => (act b a).2) a.inner := by
  induction bs generalizing a with
  | nil => rfl
  | cons b bs ih =>
    rw [List.foldl_cons, ih, spared, attempt]
    split <;> rfl

instance [MementoStore α] : MementoStore (Faulty α) where
  put a id t r := a.attempt (.backend "Memento cannot be written") fun a => MementoStore.put a id t r
  list a id := MementoStore.list a.inner id
  get a id t := MementoStore.get a.inner id t
  delete a id t := let (found, inner) := MementoStore.delete a.inner id t; (found, { a with inner })

instance [BlobStore α] : BlobStore (Faulty α) where
  store a content mime := let (stored, inner) := BlobStore.store a.inner content mime; (stored, { a with inner })
  get a location := BlobStore.get a.inner location

instance [EventSink α] : EventSink (Faulty α) where
  emit a n := a.attempt (.internal "Notification cannot be sent") fun a => EventSink.emit a n

end Faulty

/-! ## Two services on the same records -/

/-- Archives that are the `same` store contents alike, and writing a memento makes no difference. -/
structure Separates {α : Type} [MementoStore α] [BlobStore α] (same : α → α → Prop) : Prop where
  symm : ∀ {a b}, same a b → same b a
  trans : ∀ {a b c}, same a b → same b c → same a c
  put : ∀ {a}, same a a → ∀ (id : Iri) (t : Instant) (r : Resource), same a (MementoStore.put a id t r).2
  store : ∀ {a b}, same a b → ∀ (content : Bytes) (mime : Option String),
    (BlobStore.store a content mime).1 = (BlobStore.store b content mime).1 ∧
      same (BlobStore.store a content mime).2 (BlobStore.store b content mime).2

/-- As far as storing contents goes, writing mementos makes no difference. -/
theorem Separates.foldl_put {α : Type} [MementoStore α] [BlobStore α] {same : α → α → Prop}
    (h : Separates same) {a : α} (ha : same a a) (rs : List Resource) :
    same a (rs.foldl (fun a r => (MementoStore.put a r.id r.modified r).2) a) := by
  induction rs generalizing a with
  | nil => exact ha
  | cons r rs ih =>
    have hput := h.put ha r.id r.modified r
    exact h.trans hput (ih (h.trans (h.symm hput) hput))

theorem Archive.separates : Separates fun a b : Archive => a.contents = b.contents where
  symm h := h.symm
  trans h h' := h.trans h'
  put _ _ _ _ := rfl
  store {a b} h content mime := by
    refine ⟨rfl, ?_⟩
    show a.contents.insert _ _ = b.contents.insert _ _
    rw [h]

namespace Service

variable {σ α β ε δ : Type} [RecordStore σ] [BlobStore α] [BlobStore β]

/-- Two services with the same records, and with archives that are alike. -/
structure Twins (alike : α → β → Prop) (s : Service σ α ε) (t : Service σ β δ) : Prop where
  repository : t.repository = s.repository
  archive : alike s.archive t.archive

variable {alike : α → β → Prop} {s : Service σ α ε} {t : Service σ β δ}

omit [RecordStore σ] [BlobStore α] [BlobStore β] in
theorem Twins.checkConstraints (h : Twins alike s t) : t.checkConstraints = s.checkConstraints := by
  funext m d
  unfold Service.checkConstraints Service.root
  rw [h.repository]

omit [RecordStore σ] [BlobStore α] [BlobStore β] in
theorem Twins.vet (h : Twins alike s t) : t.vet = s.vet := by
  funext content digest d
  unfold Service.vet
  rw [h.checkConstraints]

omit [RecordStore σ] [BlobStore α] [BlobStore β] in
theorem Twins.takeOver (h : Twins alike s t) (out : Except Error Commit × Repository σ) :
    (t.takeOver out).1 = (s.takeOver out).1 ∧ Twins alike (s.takeOver out).2 (t.takeOver out).2 :=
  ⟨rfl, rfl, h.archive⟩

/-- What a request comes to, up to its commit, depends on the records and on the content it stores. -/
theorem Twins.enact (h : Twins alike s t)
    (hstore : ∀ {a b}, alike a b → ∀ (content : Bytes) (mime : Option String),
      (BlobStore.store a content mime).1 = (BlobStore.store b content mime).1 ∧
        alike (BlobStore.store a content mime).2 (BlobStore.store b content mime).2) (now : Instant) (q : Request) :
    (t.enact now q).1 = (s.enact now q).1 ∧ Twins alike (s.enact now q).2 (t.enact now q).2 := by
  cases q with
  | makeRoot =>
    dsimp only [Service.enact]
    rw [h.repository]
    exact ⟨rfl, rfl, h.archive⟩
  | create id model dataset session =>
    dsimp only [Service.enact]
    rw [h.checkConstraints, h.repository]
    cases s.checkConstraints model dataset with
    | error e => exact ⟨rfl, h⟩
    | ok u => exact h.takeOver _
  | createBinary id content mime digest dataset session =>
    dsimp only [Service.enact]
    rw [h.vet, h.repository]
    obtain ⟨hanswer, harchive⟩ := hstore h.archive content mime
    cases s.vet content digest dataset with
    | error e => exact ⟨rfl, h⟩
    | ok u =>
      generalize BlobStore.store s.archive content mime = out at hanswer harchive
      generalize BlobStore.store t.archive content mime = out' at hanswer harchive
      obtain ⟨stored, archive⟩ := out
      obtain ⟨stored', archive'⟩ := out'
      cases hanswer
      cases stored with
      | error f => exact ⟨rfl, rfl, harchive⟩
      | ok binary =>
        have htwins : Twins alike { s with archive } { t with repository := s.repository, archive := archive' } :=
          ⟨rfl, harchive⟩
        exact htwins.takeOver _
  | replace id dataset session =>
    dsimp only [Service.enact]
    rw [h.checkConstraints, h.repository]
    cases s.repository.require id with
    | error e => exact ⟨rfl, h⟩
    | ok current =>
      dsimp only
      cases s.checkConstraints current.model dataset with
      | error e => exact ⟨rfl, h⟩
      | ok u => exact h.takeOver _
  | delete id session =>
    dsimp only [Service.enact]
    rw [h.repository]
    exact h.takeOver _

end Service

/-! ## A service in which attempts fail -/

namespace Service

section

variable {σ α ε : Type}

/-- The service with some attempts to write a memento, and some to send news, failing. -/
def faulty (s : Service σ α ε) (unwritten unsent : Nat → Bool) : Service σ (Faulty α) (Faulty ε) :=
  ⟨s.repository, ⟨s.archive, unwritten⟩, s.keepsHistory, ⟨s.sink, unsent⟩, s.agentSpace, s.profiles, s.process,
    s.issued⟩

variable [RecordStore σ] [MementoStore α] [BlobStore α] [EventSink ε]

/-- The answers to some requests, and the service after them. -/
def run (s : Service σ α ε) : List (Instant × Request) → List (Except Error (Option Resource)) × Service σ α ε
  | [] => ([], s)
  | (now, q) :: qs =>
    let (answer, s) := s.handle now q
    let (answers, s) := s.run qs
    (answer :: answers, s)

/-- A call of the service stands whatever fails after its commit. -/
structure Withstands (s : Service σ α ε) (unwritten unsent : Nat → Bool) (now : Instant) (q : Request) : Prop where
  /-- The client is told the same. -/
  answer : ((s.faulty unwritten unsent).handle now q).1 = (s.handle now q).1
  repository : ((s.faulty unwritten unsent).handle now q).2.repository = (s.handle now q).2.repository
  /-- Of the mementos of a commit all are written but those that fail. -/
  recorded : ∀ c, (s.enact now q).1 = .ok (some c) →
    ((s.faulty unwritten unsent).handle now q).2.archive.inner =
      if s.keepsHistory then
        (Faulty.spared unwritten (archived c)).foldl (fun a r => (MementoStore.put a r.id r.modified r).2)
          (s.enact now q).2.archive
      else (s.enact now q).2.archive
  /-- Of its news all is sent but what fails. -/
  announced : ∀ c, (s.enact now q).1 = .ok (some c) →
    ((s.faulty unwritten unsent).handle now q).2.sink.inner =
      (Faulty.spared unsent (notifications now s.process s.issued c)).foldl (fun e n => (EventSink.emit e n).2) s.sink
  /-- Who is told of an error finds the records, the mementos and the news as they were, and contents
      too, but for the one that came with the call. -/
  refused : WellFiled s.repository.store → ∀ e, ((s.faulty unwritten unsent).handle now q).1 = .error e →
    ((s.faulty unwritten unsent).handle now q).2.repository.store = s.repository.store ∧
      ((s.faulty unwritten unsent).handle now q).2.sink = (s.faulty unwritten unsent).sink ∧
      Brings q (s.faulty unwritten unsent).archive ((s.faulty unwritten unsent).handle now q).2.archive

end

variable {σ α ε : Type} [RecordStore σ] [MementoStore α] [BlobStore α] [EventSink ε]

omit [RecordStore σ] [BlobStore α] in
theorem finish_faulty (s : Service σ (Faulty α) (Faulty ε)) (now : Instant) (c : Commit) :
    (s.finish now c).archive.inner =
        (if s.keepsHistory then
          (Faulty.spared s.archive.fails (archived c)).foldl (fun a r => (MementoStore.put a r.id r.modified r).2)
            s.archive.inner
        else s.archive.inner) ∧
      (s.finish now c).sink.inner =
        (Faulty.spared s.sink.fails (notifications now s.process s.issued c)).foldl
          (fun e n => (EventSink.emit e n).2) s.sink.inner := by
  refine ⟨?_, Faulty.foldl_attempt _ (fun n (a : ε) => EventSink.emit a n) _ _⟩
  unfold finish
  dsimp only
  split
  · exact Faulty.foldl_attempt _ (fun (r : Resource) (a : α) => MementoStore.put a r.id r.modified r) _ _
  · rfl

omit [RecordStore σ] [BlobStore α] in
/-- Finishing a commit does not reach the records. -/
theorem repository_wrapUp (now : Instant) (q : Request) (out : Except Error (Option Commit) × Service σ α ε) :
    (wrapUp now q out).2.repository = out.2.repository := by
  obtain ⟨answer, s⟩ := out
  rcases answer with e | _ | c <;> rfl

omit [RecordStore σ] [MementoStore α] [BlobStore α] [EventSink ε] in
theorem twins_faulty (s : Service σ α ε) (unwritten unsent : Nat → Bool) :
    Twins (fun (a : α) (b : Faulty α) => b = ⟨a, unwritten⟩) s (s.faulty unwritten unsent) := ⟨rfl, rfl⟩

theorem withstands (s : Service σ α ε) (unwritten unsent : Nat → Bool) (now : Instant)
    (q : Request) : s.Withstands unwritten unsent now q := by
  obtain ⟨hanswer, hrepository, harchive⟩ :=
    (s.twins_faulty unwritten unsent).enact (fun hab content mime => by rw [hab]; exact ⟨rfl, rfl⟩) now q
  have henacted := enacted (s.faulty unwritten unsent) now q
  have hcommit : ∀ c, (s.enact now q).1 = .ok (some c) →
      ((s.faulty unwritten unsent).handle now q).2 = ((s.faulty unwritten unsent).enact now q).2.finish now c := by
    intro c hc
    rw [handle_eq, wrapUp, hanswer, hc]
  refine ⟨?_, ?_, fun c hc => ?_, fun c hc => ?_, fun hs e he => ?_⟩
  · rw [handle_eq, handle_eq, wrapUp, wrapUp, hanswer]
  · rw [handle_eq, handle_eq, repository_wrapUp, repository_wrapUp, hrepository]
  · rw [hcommit c hc, (finish_faulty _ now c).1, henacted.keepsHistory, harchive]
    rfl
  · rw [hcommit c hc, (finish_faulty _ now c).2, henacted.sink, henacted.process, henacted.issued]
    rfl
  · rw [handle_eq] at he ⊢
    have herror : ((s.faulty unwritten unsent).enact now q).1 = .error e := by
      cases ha : ((s.faulty unwritten unsent).enact now q).1 with
      | error f =>
        rw [wrapUp, ha] at he
        cases he
        rfl
      | ok c =>
        rw [wrapUp, ha] at he
        cases he
    have hout : (wrapUp now q ((s.faulty unwritten unsent).enact now q)).2 =
        ((s.faulty unwritten unsent).enact now q).2 := by
      rw [wrapUp, herror]
    rw [hout]
    exact ⟨henacted.store hs e herror, henacted.sink, henacted.archive⟩

/-! ## Runs -/

omit [RecordStore σ] in
theorem same_finish {same : α → α → Prop} (h : Separates same) {s : Service σ α ε}
    (ha : same s.archive s.archive) (now : Instant) (c : Commit) : same s.archive (s.finish now c).archive := by
  unfold finish recordMementos
  dsimp only
  split
  · exact h.foldl_put ha _
  · exact ha

omit [RecordStore σ] in
theorem same_finish_faulty {same : α → α → Prop} (h : Separates same) {s : Service σ (Faulty α) (Faulty ε)}
    (ha : same s.archive.inner s.archive.inner) (now : Instant) (c : Commit) :
    same s.archive.inner (s.finish now c).archive.inner := by
  rw [(finish_faulty s now c).1]
  split
  · exact h.foldl_put ha _
  · exact ha

theorem Twins.handle {same : α → α → Prop} (h : Separates same) {s : Service σ α ε}
    {t : Service σ (Faulty α) (Faulty ε)} (htwins : Twins (fun a b => same a b.inner) s t) (now : Instant)
    (q : Request) :
    (t.handle now q).1 = (s.handle now q).1 ∧
      Twins (fun a b => same a b.inner) (s.handle now q).2 (t.handle now q).2 := by
  obtain ⟨hanswer, hrepository, harchive⟩ := htwins.enact (fun hab content mime => h.store hab content mime) now q
  rw [handle_eq, handle_eq]
  refine ⟨by rw [wrapUp, wrapUp, hanswer], by rw [repository_wrapUp, repository_wrapUp, hrepository], ?_⟩
  rw [wrapUp, wrapUp, hanswer]
  rcases (s.enact now q).1 with e | _ | c
  · exact harchive
  · exact harchive
  · have hleft := same_finish h (h.trans harchive (h.symm harchive)) now c
    have hright := same_finish_faulty h (h.trans (h.symm harchive) harchive) now c
    exact h.trans (h.symm hleft) (h.trans harchive hright)

theorem Twins.run {same : α → α → Prop} (h : Separates same) {s : Service σ α ε}
    {t : Service σ (Faulty α) (Faulty ε)} (htwins : Twins (fun a b => same a b.inner) s t)
    (qs : List (Instant × Request)) :
    (t.run qs).1 = (s.run qs).1 ∧ (t.run qs).2.repository = (s.run qs).2.repository := by
  induction qs generalizing s t with
  | nil => exact ⟨rfl, htwins.repository⟩
  | cons q qs ih =>
    obtain ⟨hanswer, hnext⟩ := htwins.handle h q.1 q.2
    obtain ⟨hanswers, hrepository⟩ := ih hnext
    exact ⟨congrArg₂ List.cons hanswer hanswers, hrepository⟩

/-- Whatever fails after commits, every call stands, and runs come to the same. -/
theorem failures_withstood (s : Service σ α ε) (unwritten unsent : Nat → Bool) :
    (∀ now q, s.Withstands unwritten unsent now q) ∧
      ∀ same : α → α → Prop, Separates same → same s.archive s.archive → ∀ qs,
        ((s.faulty unwritten unsent).run qs).1 = (s.run qs).1 ∧
          ((s.faulty unwritten unsent).run qs).2.repository = (s.run qs).2.repository := by
  refine ⟨s.withstands unwritten unsent, fun same h ha qs => ?_⟩
  have htwins : Twins (fun a b => same a b.inner) s (s.faulty unwritten unsent) := ⟨rfl, ha⟩
  exact htwins.run h qs

/-! A resource is created next to another one. Its own memento fails, and all the news. -/

def sibling : Request := .create ⟨"trellis:data/b"⟩ .rdfSource .empty (.anonymous ⟨3, 0⟩)

/-- The parent's memento is written, the second creation is refused. -/
theorem firstChild_withstands : WellFiled firstChild.repository.store ∧
    firstChild.Withstands (· = 0) (fun _ => true) ⟨3, 0⟩ sibling ∧
    (Separates (fun a b : Archive => a.contents = b.contents) ∧
      ((firstChild.faulty (· = 0) fun _ => true).run [(⟨3, 0⟩, sibling), (⟨4, 0⟩, sibling)]).1 =
        (firstChild.run [(⟨3, 0⟩, sibling), (⟨4, 0⟩, sibling)]).1) ∧
    (let after := ((firstChild.faulty (· = 0) fun _ => true).handle ⟨3, 0⟩ sibling).2.archive.inner
     after.list ⟨"trellis:data/b"⟩ = [] ∧
       after.list ⟨"trellis:data/"⟩ = [⟨1, 0⟩, ⟨2, 0⟩, ⟨3, 0⟩]) := by
  have hs : WellFiled firstChild.repository.store := wellFiled_iff.mpr reachable_firstChild.selfKeyed
  obtain ⟨hcalls, hruns⟩ := failures_withstood firstChild (· = 0) fun _ => true
  exact ⟨hs, hcalls _ _, ⟨Archive.separates, (hruns _ Archive.separates rfl _).1⟩, by decide +kernel⟩

end Service

end LinkedData
