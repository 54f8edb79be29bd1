/-
  LinkedData.Proofs.Pipeline — a write, up to its commit and after it.

  What a client is told is settled by the commit (`handle_eq`): a write is enacted, which checks
  it, stores the content it brings and commits, and then its commit is finished, which records
  mementos and sends notifications. What is not committed is not finished. A write that is
  refused, wherever that happens, has not changed a record (`enacted`). What is not refused
  beforehand is one operation of the repository (`enact_cases`).
-/

import LinkedData.Proofs.Atomicity
import LinkedData.Proofs.Requests
import LinkedData.Proofs.Times

namespace LinkedData

/-- What a request answers besides that it was carried out. -/
def Request.tells : Request → Commit → Option Resource
  | .delete _ _, _ => none
  | _, c => some c.resource

/-- The operations that a request can come to, once it is checked, and who asks for them. -/
inductive Request.Asks (now : Instant) : Request → Call → Session → Prop
  | makeRoot : Asks now .makeRoot .makeRoot (.administrator now)
  | create (id : Iri) (model : InteractionModel) (dataset : Dataset) (session : Session) :
      Asks now (.create id model dataset session) (.create id model dataset) session
  | createBinary (id : Iri) (content : Bytes) (mime digest : Option String) (dataset : Dataset) (session : Session)
      (binary : Binary) :
      Asks now (.createBinary id content mime digest dataset session) (.createBinary id binary dataset) session
  | replace (id : Iri) (dataset : Dataset) (session : Session) (expected : InteractionModel) :
      Asks now (.replace id dataset session) (.replaceModel id expected dataset) session
  | delete (id : Iri) (session : Session) : Asks now (.delete id session) (.delete id) session

namespace Service

variable {σ α ε : Type} [RecordStore σ] [BlobStore α]

/-- A repository's answer, taken over. -/
def takeOver (s : Service σ α ε) (out : Except Error Commit × Repository σ) :
    Except Error (Option Commit) × Service σ α ε :=
  (out.1.map some, { s with repository := out.2 })

/-- A request up to its commit. Where there is nothing to do there is no commit. -/
def enact (s : Service σ α ε) (now : Instant) : Request → Except Error (Option Commit) × Service σ α ε
  | .makeRoot =>
    let (answer, repository) := s.repository.createRoot (Session.administrator now) now
    (answer, { s with repository })
  | .create id model dataset session =>
    match s.checkConstraints model dataset with
    | .error e => (.error e, s)
    | .ok () => s.takeOver (s.repository.create id model dataset session now)
  | .createBinary id content mime digest dataset session =>
    match s.vet content digest dataset with
    | .error e => (.error e, s)
    | .ok () =>
      match BlobStore.store s.archive content mime with
      | (.error f, archive) => (.error (.storage f), { s with archive })
      | (.ok binary, archive) => takeOver { s with archive } (s.repository.createBinary id binary dataset session now)
  | .replace id dataset session =>
    match s.repository.require id with
    | .error e => (.error e, s)
    | .ok current =>
      match s.checkConstraints current.model dataset with
      | .error e => (.error e, s)
      | .ok () => s.takeOver (s.repository.replaceModel id current.model dataset session now)
  | .delete id session => s.takeOver (s.repository.delete id session now)

section

variable [MementoStore α] [EventSink ε]

/-- What a client is told, and the service afterwards. -/
def handle (s : Service σ α ε) (now : Instant) : Request → Except Error (Option Resource) × Service σ α ε
  | .makeRoot => s.createRoot now
  | .create id model dataset session =>
    let (answer, s) := s.create id model dataset session now
    (answer.map some, s)
  | .createBinary id content mime digest dataset session =>
    let (answer, s) := s.createBinary id content mime digest dataset session now
    (answer.map some, s)
  | .replace id dataset session =>
    let (answer, s) := s.replace id dataset session now
    (answer.map some, s)
  | .delete id session =>
    let (answer, s) := s.delete id session now
    (answer.map fun _ => none, s)

/-- What follows a request that was enacted. -/
def wrapUp (now : Instant) (q : Request) (out : Except Error (Option Commit) × Service σ α ε) :
    Except Error (Option Resource) × Service σ α ε :=
  (out.1.map fun c => c.bind q.tells,
    match out.1 with
    | .ok (some c) => out.2.finish now c
    | .ok none | .error _ => out.2)

omit [RecordStore σ] [BlobStore α] in
theorem wrapUp_takeOver (s : Service σ α ε) (now : Instant) {q : Request} (hq : ∀ c, q.tells c = some c.resource)
    (out : Except Error Commit × Repository σ) :
    wrapUp now q (s.takeOver out) = ((s.conclude now out).1.map some, (s.conclude now out).2) := by
  obtain ⟨answer, repository⟩ := out
  cases answer with
  | error e => rfl
  | ok c => exact Prod.ext (congrArg Except.ok (hq c)) rfl

omit [RecordStore σ] [BlobStore α] in
theorem wrapUp_takeOver_delete (s : Service σ α ε) (now : Instant) (id : Iri) (session : Session)
    (out : Except Error Commit × Repository σ) :
    wrapUp now (.delete id session) (s.takeOver out) =
      ((s.conclude now out).1.map fun _ => none, (s.conclude now out).2) := by
  obtain ⟨answer, repository⟩ := out
  cases answer <;> rfl

/-- A request is enacted, and its commit is finished. -/
theorem handle_eq (s : Service σ α ε) (now : Instant) (q : Request) :
    s.handle now q = wrapUp now q (s.enact now q) := by
  cases q with
  | makeRoot =>
    dsimp only [handle, enact, createRoot]
    obtain ⟨answer, repository⟩ := s.repository.createRoot (Session.administrator now) now
    cases answer with
    | error e => rfl
    | ok c => cases c <;> rfl
  | create id model dataset session =>
    dsimp only [handle, enact, create]
    cases s.checkConstraints model dataset with
    | error e => rfl
    | ok u => exact (wrapUp_takeOver (q := .create id model dataset session) s now (fun _ => rfl) _).symm
  | createBinary id content mime digest dataset session =>
    dsimp only [handle, enact]
    rw [createBinary_eq]
    cases s.vet content digest dataset with
    | error e => rfl
    | ok u =>
      obtain ⟨stored, archive⟩ := BlobStore.store s.archive content mime
      cases stored with
      | error f => rfl
      | ok binary =>
        exact (wrapUp_takeOver (q := .createBinary id content mime digest dataset session) { s with archive } now
          (fun _ => rfl) _).symm
  | replace id dataset session =>
    dsimp only [handle, enact, replace]
    cases s.repository.require id with
    | error e => rfl
    | ok current =>
      dsimp only
      cases s.checkConstraints current.model dataset with
      | error e => rfl
      | ok u => exact (wrapUp_takeOver (q := .replace id dataset session) s now (fun _ => rfl) _).symm
  | delete id session =>
    dsimp only [handle, enact, delete]
    rw [wrapUp_takeOver_delete]
    cases (s.conclude now (s.repository.delete id session now)).1 <;> rfl

end

/-! ## Refusals -/

/-- The content that a request brings is stored, or nothing is. -/
def Brings (q : Request) (a a' : α) : Prop :=
  a' = a ∨ ∃ id content mime digest dataset session, q = .createBinary id content mime digest dataset session ∧
    a' = (BlobStore.store a content mime).2

omit [RecordStore σ] in
/-- What storing a content keeps is kept. -/
theorem Brings.keeps {P : α → Prop} {q : Request} {a a' : α} (h : Brings q a a')
    (hstore : ∀ content mime, P (BlobStore.store a content mime).2) (ha : P a) : P a' := by
  rcases h with rfl | ⟨id, content, mime, digest, dataset, session, -, rfl⟩
  · exact ha
  · exact hstore content mime

/-- What a request leaves alone until its commit is finished. -/
structure Enacted (s : Service σ α ε) (q : Request) (out : Except Error (Option Commit) × Service σ α ε) :
    Prop where
  archive : Brings q s.archive out.2.archive
  sink : out.2.sink = s.sink
  keepsHistory : out.2.keepsHistory = s.keepsHistory
  process : out.2.process = s.process
  issued : out.2.issued = s.issued
  /-- Who is refused has changed no record. -/
  store : WellFiled s.repository.store → ∀ e, out.1 = .error e → out.2.repository.store = s.repository.store

theorem enacted_takeOver {s : Service σ α ε} {q : Request} {archive : α} (ha : Brings q s.archive archive)
    {out : Except Error Commit × Repository σ}
    (hout : WellFiled s.repository.store → ∀ e, out.1 = .error e → out.2.store = s.repository.store) :
    s.Enacted q (takeOver { s with archive } out) where
  archive := ha
  sink := rfl
  keepsHistory := rfl
  process := rfl
  issued := rfl
  store hs e he := by
    obtain ⟨answer, repository⟩ := out
    cases answer with
    | error f => exact hout hs f rfl
    | ok c => cases he

theorem enacted_refused {s : Service σ α ε} {q : Request} {archive : α} (ha : Brings q s.archive archive)
    (e : Error) :
    s.Enacted q (.error e, { s with archive }) :=
  ⟨ha, rfl, rfl, rfl, rfl, fun _ _ _ => rfl⟩

theorem enacted (s : Service σ α ε) (now : Instant) (q : Request) : s.Enacted q (s.enact now q) := by
  have hmutate : ∀ (id : Iri) (op : Operation) (session : Session), WellFiled s.repository.store →
      ∀ e, (s.repository.mutate id op session now).1 = .error e →
        (s.repository.mutate id op session now).2.store = s.repository.store :=
    fun _ _ _ hs _ he => Repository.store_of_mutate_error hs he
  cases q with
  | makeRoot => exact ⟨.inl rfl, rfl, rfl, rfl, rfl, fun hs _ he => Repository.store_of_createRoot_error hs he⟩
  | create id model dataset session =>
    dsimp only [enact]
    cases s.checkConstraints model dataset with
    | error e => exact enacted_refused (.inl rfl) e
    | ok u =>
      refine enacted_takeOver (.inl rfl) ?_
      unfold Repository.create
      split
      · exact fun _ _ _ => rfl
      · exact hmutate _ _ _
  | createBinary id content mime digest dataset session =>
    have hbrings : Brings (.createBinary id content mime digest dataset session) s.archive
        (BlobStore.store s.archive content mime).2 := .inr ⟨_, _, _, _, _, _, rfl, rfl⟩
    dsimp only [enact]
    cases s.vet content digest dataset with
    | error e => exact enacted_refused (.inl rfl) e
    | ok u =>
      generalize BlobStore.store s.archive content mime = out at hbrings
      obtain ⟨stored, archive⟩ := out
      cases stored with
      | error f => exact enacted_refused hbrings _
      | ok binary => exact enacted_takeOver hbrings (hmutate _ _ _)
  | replace id dataset session =>
    dsimp only [enact]
    cases s.repository.require id with
    | error e => exact enacted_refused (.inl rfl) e
    | ok current =>
      dsimp only
      cases s.checkConstraints current.model dataset with
      | error e => exact enacted_refused (.inl rfl) e
      | ok u => exact enacted_takeOver (.inl rfl) (hmutate _ _ _)
  | delete id session =>
    refine enacted_takeOver (.inl rfl) ?_
    unfold Repository.delete
    split
    · exact fun _ _ _ => rfl
    · exact hmutate _ _ _

/-! ## The operation behind a request -/

/-- A request came to one operation of the repository, and made a change unless it was to make the root. -/
def Performed (s : Service σ α ε) (now : Instant) (q : Request)
    (out : Except Error (Option Commit) × Service σ α ε) : Prop :=
  ∃ call session, q.Asks now call session ∧ out.1.toOption.join = s.repository.commit? session now call ∧
    out.2.repository = (s.repository.call session now call).2 ∧ (out.1 = .ok none → q = .makeRoot)

omit [BlobStore α] in
theorem performed_takeOver {s : Service σ α ε} {q : Request} {now : Instant} {call : Call} {session : Session}
    (hq : q.Asks now call session) {archive : α} {out : Except Error Commit × Repository σ}
    (hcommit : out.1.toOption = s.repository.commit? session now call)
    (hout : out.2 = (s.repository.call session now call).2) : s.Performed now q (takeOver { s with archive } out) := by
  obtain ⟨answer, repository⟩ := out
  refine ⟨call, session, hq, ?_, hout, ?_⟩
  · rw [← hcommit]
    cases answer <;> rfl
  · intro hnone
    cases answer <;> cases hnone

/-- A request is refused and the repository is as it was, or it is one operation of the repository. -/
theorem enact_cases (s : Service σ α ε) (now : Instant) (q : Request) :
    (∃ e, (s.enact now q).1 = .error e) ∧ (s.enact now q).2.repository = s.repository ∨
      s.Performed now q (s.enact now q) := by
  cases q with
  | makeRoot => exact .inr ⟨_, _, .makeRoot, rfl, rfl, fun _ => rfl⟩
  | create id model dataset session =>
    dsimp only [enact]
    cases s.checkConstraints model dataset with
    | error e => exact .inl ⟨⟨e, rfl⟩, rfl⟩
    | ok u => exact .inr (performed_takeOver (.create id model dataset session) rfl rfl)
  | createBinary id content mime digest dataset session =>
    dsimp only [enact]
    cases s.vet content digest dataset with
    | error e => exact .inl ⟨⟨e, rfl⟩, rfl⟩
    | ok u =>
      obtain ⟨stored, archive⟩ := BlobStore.store s.archive content mime
      cases stored with
      | error f => exact .inl ⟨⟨_, rfl⟩, rfl⟩
      | ok binary =>
        exact .inr (performed_takeOver (.createBinary id content mime digest dataset session binary) rfl rfl)
  | replace id dataset session =>
    dsimp only [enact]
    cases s.repository.require id with
    | error e => exact .inl ⟨⟨e, rfl⟩, rfl⟩
    | ok current =>
      dsimp only
      cases s.checkConstraints current.model dataset with
      | error e => exact .inl ⟨⟨e, rfl⟩, rfl⟩
      | ok u => exact .inr (performed_takeOver (.replace id dataset session current.model) rfl rfl)
  | delete id session => exact .inr (performed_takeOver (.delete id session) rfl rfl)

end Service

end LinkedData
