/-
  LinkedData.Service — the platform as its clients see it.

  Every write goes the same way: the constraints are checked, the repository commits, the new
  states are recorded as mementos, the changes are announced. Only the first two can refuse
  it. Once committed, a write stands: what fails afterwards is not reported to its caller and
  does not keep the others from being recorded and announced.

  The stores and the sink are parameters; `Error`s of theirs come back as `Error.storage`. Mementos
  and blobs are in one archive, because they may share a place.
-/

import LinkedData.Blob
import LinkedData.Cache
import LinkedData.Memento
import LinkedData.Repository

namespace LinkedData

open Std

structure Service (σ α ε : Type) where
  repository : Repository σ
  /-- Mementos and blobs. -/
  archive : α
  /-- A memento is recorded of every committed state. -/
  keepsHistory : Bool
  sink : ε
  /-- The space of names that bare names of agents belong to. -/
  agentSpace : String
  profiles : Cache String String
  /-- The number of the process. -/
  process : UInt32
  /-- Notifications made so far. -/
  issued : Nat

namespace Service

variable {σ α ε : Type} [RecordStore σ] [MementoStore α] [BlobStore α] [EventSink ε]

def root (s : Service σ α ε) : Iri := s.repository.root

/-- A session for an authenticated name; without one it is anonymous. -/
def sessionFor (s : Service σ α ε) (principal : Option String) (now : Instant) : Session :=
  ⟨agentOf s.agentSpace principal, now⟩

/-! ## After a commit -/

/-- The states that a commit leaves a memento of: all it wrote but a deleted target. -/
def archived (c : Commit) : List Resource := if c.kind = .deleted then c.touched else c.resources

/-- The target's news are of its kind; everyone else was updated. -/
def kindFor (c : Commit) (r : Resource) : ChangeKind := if r.id = c.resource.id then c.kind else .updated

/-- Record the states of a commit; one that cannot be recorded is left out. -/
def recordMementos (a : α) (c : Commit) : α :=
  (archived c).foldl (fun a r => (MementoStore.put a r.id r.modified r).2) a

/-- The news of a commit, the target's first. -/
def notifications (now : Instant) (process : UInt32) (issued : Nat) (c : Commit) : List Notification :=
  c.resources.mapIdx fun i r =>
    ⟨Notification.idOf now process.toNat (issued + i), r.id, r.model, c.agent, r.modified, kindFor c r⟩

def notify (sink : ε) (ns : List Notification) : ε := ns.foldl (fun s n => (EventSink.emit s n).2) sink

def finish (s : Service σ α ε) (now : Instant) (c : Commit) : Service σ α ε :=
  { s with
    archive := if s.keepsHistory then recordMementos s.archive c else s.archive
    sink := notify s.sink (notifications now s.process s.issued c)
    issued := s.issued + c.resources.length }

/-- Take over a repository's answer: finish a commit, or pass the error on. -/
def conclude (s : Service σ α ε) (now : Instant) (answer : Except Error Commit × Repository σ) :
    Except Error Resource × Service σ α ε :=
  let s := { s with repository := answer.2 }
  match answer.1 with
  | .ok c => (.ok c.resource, s.finish now c)
  | .error e => (.error e, s)

/-! ## Writing -/

/-- Refuse a user graph that breaks a rule for resources of model `m`. -/
def checkConstraints (s : Service σ α ε) (m : InteractionModel) (d : Dataset) : Except Error Unit :=
  match Constraint.violations m s.root.text d.userGraph with
  | [] => .ok ()
  | vs => .error (.constraintViolations vs)

/-- Make the root container if it is missing. -/
def createRoot (s : Service σ α ε) (now : Instant) : Except Error (Option Resource) × Service σ α ε :=
  let (answer, repository) := s.repository.createRoot (Session.administrator now) now
  let s := { s with repository }
  match answer with
  | .ok (some c) => (.ok (some c.resource), s.finish now c)
  | .ok none => (.ok none, s)
  | .error e => (.error e, s)

def create (s : Service σ α ε) (id : Iri) (m : InteractionModel) (d : Dataset) (session : Session) (now : Instant) :
    Except Error Resource × Service σ α ε :=
  match s.checkConstraints m d with
  | .error e => (.error e, s)
  | .ok () => s.conclude now (s.repository.create id m d session now)

/-- A digest, when there is one, must be the content's. -/
def createBinary (s : Service σ α ε) (id : Iri) (content : Bytes) (mime digest : Option String) (d : Dataset)
    (session : Session) (now : Instant) : Except Error Resource × Service σ α ε :=
  let checked : Except Error Unit := do
    match digest with
    | some text => (Digest.verify content text).mapError fun f => .malformedInput f.message
    | none => pure ()
    s.checkConstraints .nonRdfSource d
  match checked with
  | .error e => (.error e, s)
  | .ok () =>
    let (stored, archive) := BlobStore.store s.archive content mime
    let s := { s with archive }
    match stored with
    | .error f => (.error (.storage f), s)
    | .ok binary => s.conclude now (s.repository.createBinary id binary d session now)

/-- The graph is checked for the model that the resource has now, and written only if it still has
    that model then. -/
def replace (s : Service σ α ε) (id : Iri) (d : Dataset) (session : Session) (now : Instant) :
    Except Error Resource × Service σ α ε :=
  match s.repository.require id with
  | .error e => (.error e, s)
  | .ok current =>
    match s.checkConstraints current.model d with
    | .error e => (.error e, s)
    | .ok () => s.conclude now (s.repository.replaceModel id current.model d session now)

def delete (s : Service σ α ε) (id : Iri) (session : Session) (now : Instant) :
    Except Error Unit × Service σ α ε :=
  let (answer, s) := s.conclude now (s.repository.delete id session now)
  (answer.map fun _ => (), s)

/-! ## Reading -/

def get (s : Service σ α ε) (id : Iri) : Except Error (Option Resource) := s.repository.get id

/-- The state as of a time. Without history, the state as it is now, if it is not younger. -/
def getAt (s : Service σ α ε) (id : Iri) (t : Instant) : Except Error (Option Resource) :=
  if s.keepsHistory then (MementoStore.get s.archive id t).mapError .storage
  else (s.get id).map fun r => r.filter (·.modified ≤ t)

/-- The times of the states recorded, ascending. -/
def mementoTimes (s : Service σ α ε) (id : Iri) : Except Error (List Instant) :=
  if s.keepsHistory then (MementoStore.list s.archive id).mapError .storage else .ok []

/-- Forget the state recorded at a time; says whether there was one. -/
def deleteMemento (s : Service σ α ε) (id : Iri) (t : Instant) : Except Error Bool × Service σ α ε :=
  if s.keepsHistory then
    let (found, archive) := MementoStore.delete s.archive id t
    (found.mapError .storage, { s with archive })
  else (.ok false, s)

/-- The content of a resource that is not RDF. -/
def content (s : Service σ α ε) (r : Resource) : Except Error (Option Bytes) :=
  match r.binary with
  | none => .ok none
  | some b => (BlobStore.get s.archive b.location).mapError .storage

/-- The profile of an IRI, fetched when it is not at hand. -/
def profile (s : Service σ α ε) (iri : String) (fetch : String → Except Error String) :
    Except Error String × Service σ α ε :=
  let (answer, profiles) := s.profiles.getOrPopulate iri fetch
  (answer, { s with profiles })

end Service

end LinkedData
