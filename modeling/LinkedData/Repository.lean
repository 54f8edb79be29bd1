/-
  LinkedData.Repository — resources created, replaced and deleted, and the server's graphs
  kept in step with it.

  Whatever a mutation does to its target, it also does what follows for others: the parent's
  list of children, the member triples of membership containers, the target's log of
  activities. All of it is one transaction (`apply…`), and everything it reads or writes is
  in a plan of identifiers (`affected`) that the writer holds locked meanwhile.

  Member triples may have several contributors: one that leaves takes along only those that
  no remaining child of the same container still supplies (`retract`).
-/

import LinkedData.Agent
import LinkedData.Membership
import LinkedData.Notification
import LinkedData.Rdf.Literal
import LinkedData.Transaction

namespace LinkedData

open Std Vocabulary

/-- What a caller wants done to a resource. -/
inductive Operation
  | create (model : InteractionModel) (userGraph : Graph) (binary : Option Binary)
  /-- `expected` is the model that the graph was checked for, if it was. -/
  | replace (userGraph : Graph) (expected : Option InteractionModel)
  | delete

namespace Operation

def kind : Operation → ChangeKind
  | create .. => .created
  | replace .. => .updated
  | delete => .deleted

def isCreate : Operation → Bool
  | create .. => true
  | _ => false

end Operation

/-- A mutation that was carried out. -/
structure Commit where
  kind : ChangeKind
  /-- The target as it is now; a deleted one as it was when it was deleted. -/
  resource : Resource
  /-- Everyone else who was written, in the order of their identifiers. -/
  touched : List Resource
  agent : Iri
  deriving DecidableEq

/-- The target, then everyone else. -/
def Commit.resources (c : Commit) : List Resource := c.resource :: c.touched

/-! ## What a mutation does -/

namespace Mutation

/-- What the log says of an activity. -/
def auditTriples (id : Iri) (activity : BlankNode) (kind : ChangeKind) (agent : Iri) (time : Instant) : List Triple :=
  [⟨.iri id, Prov.wasGeneratedBy, .blank activity⟩,
   ⟨.blank activity, Rdf.type, .iri Prov.activity⟩,
   ⟨.blank activity, Rdf.type, .iri kind.activity⟩,
   ⟨.blank activity, Prov.wasAssociatedWith, .iri agent⟩,
   ⟨.blank activity, Prov.atTime, .literal (.typed (time.write .full) Xsd.dateTime)⟩]

variable {σ : Type} [RecordStore σ]

open Transaction

def audit (kind : ChangeKind) (agent : Iri) (time : Instant) (r : Resource) : TransactionM σ Resource := do
  let activity ← freshNode
  return { r with dataset := r.dataset.update .audit (·.extend (auditTriples r.id activity kind agent time)) }

def parentOf (root id : Iri) : Except Error (Option Iri) :=
  (Identifier.parent? root id).mapError fun f => .malformedInput (f.message id root)

/-- Member triples written to the holders that are live. -/
def addMembers (ts : List MemberTriple) : TransactionM σ Unit :=
  ts.forM fun m => updateLive m.holder fun r => r.updateServer (·.insert m.triple)

def removeMembers (ts : List MemberTriple) : TransactionM σ Unit :=
  ts.forM fun m => updateLive m.holder fun r => r.updateServer (·.erase m.triple)

/-- The live ones among some resources. -/
def liveOnes (ids : List Iri) : TransactionM σ (List Resource) := ids.filterMapM live

/-- Remove those of `ts` that no live child of `container` other than `leaving` supplies. -/
def retract (m : Membership) (container : Resource) (leaving : Iri) (ts : List MemberTriple) : TransactionM σ Unit :=
  do
  if ts = [] then return ()
  let siblings ← liveOnes (container.children.filter (· ≠ leaving))
  let supplied := siblings.flatMap m.triples
  removeMembers (ts.filter fun t => ¬ supplied.contains t)

def applyCreate (root id : Iri) (model : InteractionModel) (userGraph : Graph) (binary : Option Binary) (agent : Iri) :
    TransactionM σ Unit := do
  let previous ← record id
  if (previous.bind Record.live?).isSome then throw (.alreadyExists id)
  let some parentId ← parentOf root id | throw (.conflict (id.text ++ " has no parent"))
  let some parent := (← live parentId).filter (·.isContainer) | throw (.invalidParent parentId)
  let modified ← timestamp id
  let log := (previous.map (·.resource.auditGraph)).getD ∅
  let dataset := ((Dataset.ofUserGraph userGraph).insert .server (Resource.typing id model)).set .audit log
  let resource ← audit .created agent modified ⟨id, model, dataset, modified, binary⟩
  stage (.live resource)
  updateLive parentId fun r => r.updateServer (·.insert (Resource.containment parentId id))
  match Membership.ofContainer? parent with
  | some m => addMembers (m.triples resource)
  | none => return ()

/-- What a change of a child means for the membership of its parent. -/
def rejoin (root id : Iri) (current updated : Resource) : TransactionM σ Unit := do
  let some parentId ← parentOf root id | return ()
  let some parent ← live parentId | return ()
  let some m := Membership.ofContainer? parent | return ()
  let before := m.triples current
  let after := m.triples updated
  if before = after then return ()
  retract m parent id (before.filter fun t => ¬ after.contains t)
  addMembers after

/-- What a change of a container means for its own membership: every child leaves the old one
    before any joins the new one. -/
def reconfigure (current updated : Resource) : TransactionM σ Unit := do
  let old := Membership.ofContainer? current
  let new := Membership.ofContainer? updated
  if old = new then return ()
  let children ← liveOnes current.children
  match old with
  | some m => children.forM fun child => removeMembers (m.triples child)
  | none => pure ()
  match new with
  | some m => children.forM fun child => addMembers (m.triples child)
  | none => pure ()

/-- The live resource that a mutation is about. -/
def target (id : Iri) : TransactionM σ Resource := do
  match ← record id with
  | none => throw (.notFound id)
  | some r =>
    match r.live? with
    | none => throw (.gone id)
    | some resource => return resource

def applyReplace (root id : Iri) (userGraph : Graph) (expected : Option InteractionModel) (agent : Iri) :
    TransactionM σ Unit := do
  let current ← target id
  match expected with
  | some m =>
    if current.model ≠ m then
      throw (.conflict (id.text ++ " is now a " ++ current.model.display ++ ", not the " ++ m.display ++
        " its graph was checked against"))
  | none => pure ()
  let modified ← timestamp id
  let updated ← audit .updated agent modified
    { current with dataset := current.dataset.set .user userGraph, modified }
  stage (.live updated)
  rejoin root id current updated
  reconfigure current updated

/-- What the departure of a child means for its parent. -/
def leave (root id : Iri) (current : Resource) : TransactionM σ Unit := do
  let some parentId ← parentOf root id | return ()
  match (← live parentId) with
  | some parent =>
    match Membership.ofContainer? parent with
    | some m => retract m parent id (m.triples current)
    | none => pure ()
  | none => pure ()
  updateLive parentId fun r => r.updateServer (·.erase (Resource.containment parentId id))

/-- Children of a deleted container are left where they are. -/
def applyDelete (root id : Iri) (agent : Iri) : TransactionM σ Unit := do
  let current ← target id
  leave root id current
  let deleted := (← live id).getD current
  let modified ← timestamp id
  stage (.tombstone (← audit .deleted agent modified { deleted with modified }))

def apply (root id : Iri) (agent : Iri) : Operation → TransactionM σ Unit
  | .create model userGraph binary => applyCreate root id model userGraph binary agent
  | .replace userGraph expected => applyReplace root id userGraph expected agent
  | .delete => applyDelete root id agent

/-- Write what was staged, and say what was done. -/
def conclude (id : Iri) (kind : ChangeKind) (agent : Iri) : TransactionM σ Commit := do
  let resources := (← commit).map (·.resource)
  match resources.find? (·.id = id) with
  | some resource => return ⟨kind, resource, resources.filter (·.id ≠ id), agent⟩
  | none => throw (.internal ("Commit for " ++ id.text ++ " did not write the target"))

/-- The whole of a mutation, by a writer who holds `guard`. -/
def run (root id : Iri) (op : Operation) (agent : Iri) (guard : Guard) : TransactionM σ Commit := do
  apply root id agent op
  checkCovered guard
  conclude id op.kind agent

/-- The making of the root container. -/
def foundRoot (root agent : Iri) : TransactionM σ Commit := do
  let modified ← timestamp root
  let dataset := Dataset.empty.insert .server (Resource.typing root .basicContainer)
  let resource ← audit .created agent modified ⟨root, .basicContainer, dataset, modified, none⟩
  stage (.live resource)
  conclude root .created agent

end Mutation

/-! ## The repository -/

structure Repository (σ : Type) where
  root : Iri
  store : σ
  scopes : ScopeSource

namespace Repository

variable {σ : Type} [RecordStore σ]

/-- A repository over a store, at the time a process opens it. -/
def «open» (root : Iri) (store : σ) (process : UInt32) (now : Instant) : Repository σ :=
  ⟨root, store, .ofClock now process⟩

def record (r : Repository σ) (id : Iri) : Except Error (Option Record) :=
  (RecordStore.get r.store id).mapError .storage

/-- The state of a resource; nothing when it was deleted. -/
def get (r : Repository σ) (id : Iri) : Except Error (Option Resource) := do
  return (← r.record id).bind Record.live?

/-- The state of a resource; one that was deleted is told from one that never was. -/
def require (r : Repository σ) (id : Iri) : Except Error Resource := do
  match ← r.record id with
  | none => throw (.notFound id)
  | some record =>
    match record.live? with
    | some resource => return resource
    | none => throw (.gone id)

/-- The plan of a mutation: every identifier that it may read or write, from the state as it is.
    Siblings are read to decide which member triples stay. -/
def affected (r : Repository σ) (id : Iri) (op : Operation) : Except Error (List Iri) := do
  let above ← match ← Mutation.parentOf r.root id with
    | none => pure []
    | some parentId =>
      match (← r.get parentId) with
      | none => pure [parentId]
      | some parent =>
        match Membership.ofContainer? parent with
        | none => pure [parentId]
        | some m => pure (parentId :: m.target :: if op.isCreate then [] else parent.children)
  let below ← match op with
    | .replace userGraph _ =>
      match (← r.get id) with
      | none => pure []
      | some current =>
        let proposed := { current with dataset := current.dataset.set .user userGraph }
        let memberships := [Membership.ofContainer? current, Membership.ofContainer? proposed].filterMap fun m => m
        pure (memberships.map (·.target) ++ if memberships = [] then [] else current.children)
    | _ => pure []
  return id :: above ++ below

/-- Run a transaction on the repository. What was committed stands, even if an error follows. -/
def transact {α : Type} (r : Repository σ) (now : Instant) (m : TransactionM σ α) :
    Except Error α × Repository σ :=
  let (answer, tx) := (m.run).run (Transaction.begin r.store r.scopes now)
  (answer, { r with store := tx.store, scopes := tx.scopes })

/-- The locked part of a mutation. -/
def perform (r : Repository σ) (id : Iri) (op : Operation) (session : Session) (now : Instant) (guard : Guard) :
    Except Error Commit × Repository σ :=
  r.transact now (Mutation.run r.root id op session.agent guard)

/-- What is refused before anything is read. -/
def refusal? (r : Repository σ) (id : Iri) : Option Error :=
  match Identifier.validate r.root id with
  | .error f => some (.malformedInput (f.message id r.root))
  | .ok () =>
    if id = r.root then some (.conflict ("The root container " ++ id.text ++ " is managed by the server")) else none

/-- Plan, take the locks of the plan, and carry the operation out. With no other writer about, the
    locks are free and a second plan under them is the first. -/
def mutate (r : Repository σ) (id : Iri) (op : Operation) (session : Session) (now : Instant) :
    Except Error Commit × Repository σ :=
  match r.refusal? id with
  | some e => (.error e, r)
  | none =>
    match r.affected id op with
    | .error e => (.error e, r)
    | .ok plan => r.perform id op session now ⟨ExtTreeSet.ofList plan compare⟩

/-- The root container, made if it is not there. -/
def createRoot (r : Repository σ) (session : Session) (now : Instant) :
    Except Error (Option Commit) × Repository σ :=
  match r.get r.root with
  | .error e => (.error e, r)
  | .ok (some _) => (.ok none, r)
  | .ok none =>
    let (answer, r) := r.transact now (Mutation.foundRoot r.root session.agent)
    (answer.map some, r)

/-- Only the user graph of `dataset` is kept. -/
def create (r : Repository σ) (id : Iri) (model : InteractionModel) (dataset : Dataset) (session : Session)
    (now : Instant) : Except Error Commit × Repository σ :=
  if model = .nonRdfSource then
    (.error (.malformedInput ("NonRDFSource " ++ id.text ++ " requires binary content")), r)
  else r.mutate id (.create model dataset.userGraph none) session now

/-- A resource whose content is kept elsewhere already. -/
def createBinary (r : Repository σ) (id : Iri) (binary : Binary) (dataset : Dataset) (session : Session)
    (now : Instant) : Except Error Commit × Repository σ :=
  r.mutate id (.create .nonRdfSource dataset.userGraph (some binary)) session now

def replace (r : Repository σ) (id : Iri) (dataset : Dataset) (session : Session) (now : Instant) :
    Except Error Commit × Repository σ :=
  r.mutate id (.replace dataset.userGraph none) session now

/-- As `replace`, but only of a resource that still has the model `expected`. -/
def replaceModel (r : Repository σ) (id : Iri) (expected : InteractionModel) (dataset : Dataset) (session : Session)
    (now : Instant) : Except Error Commit × Repository σ :=
  r.mutate id (.replace dataset.userGraph (some expected)) session now

def delete (r : Repository σ) (id : Iri) (session : Session) (now : Instant) : Except Error Commit × Repository σ :=
  if id = r.root then (.error (.conflict ("The root container " ++ id.text ++ " cannot be deleted")), r)
  else r.mutate id .delete session now

end Repository

end LinkedData
