/-
  LinkedData.Transaction — the reads and the staged writes of one mutation.

  Nothing reaches the store before `commit`, which writes every staged record in one batch.
  A record read after it was staged is the staged one. A transaction knows which identifiers
  it asked the store for, so that its reads can be held against a lock plan.

  Every record gets a new time when it is written: the time of the transaction, or, when the
  record was last written at that time or later, one nanosecond after it was.
-/

import LinkedData.Locks
import LinkedData.Rdf.Arena
import LinkedData.Store

namespace LinkedData

open Std

structure Transaction (σ : Type) where
  store : σ
  now : Instant
  scopes : ScopeSource
  reads : IriSet
  staged : ExtTreeMap Iri Record compare

/-- A computation within a transaction. One that fails keeps what the transaction did so far. -/
abbrev TransactionM (σ : Type) := ExceptT Error (StateM (Transaction σ))

/-- Not before `now`, and after the time of the previous state. -/
def nextTimestamp (previous : Option Instant) (now : Instant) : Instant :=
  match previous with
  | some p => if now ≤ p then p.next else now
  | none => now

namespace Transaction

variable {σ : Type}

def begin (store : σ) (scopes : ScopeSource) (now : Instant) : Transaction σ := ⟨store, now, scopes, ∅, ∅⟩

variable [RecordStore σ]

/-- The record in the store. -/
def stored (id : Iri) : TransactionM σ (Option Record) := do
  let tx ← get
  set { tx with reads := tx.reads.insert id }
  match RecordStore.get tx.store id with
  | .ok r => return r
  | .error f => throw (.storage f)

/-- The record as it stands: staged, or in the store. -/
def record (id : Iri) : TransactionM σ (Option Record) := do
  match (← get).staged[id]? with
  | some r => return some r
  | none => stored id

/-- The resource as it stands, unless it was deleted. -/
def live (id : Iri) : TransactionM σ (Option Resource) := do
  return (← record id).bind Record.live?

/-- The time that `id` will have when it is written. -/
def timestamp (id : Iri) : TransactionM σ Instant := do
  let previous ← stored id
  return nextTimestamp (previous.map (·.resource.modified)) (← get).now

def stage (r : Record) : TransactionM σ Unit :=
  modify fun tx => { tx with staged := tx.staged.insert r.id r }

/-- Change the resource `id`, if it is live. -/
def updateLive (id : Iri) (f : Resource → Resource) : TransactionM σ Unit := do
  match ← live id with
  | some r => stage (.live (f r))
  | none => return ()

/-- A blank node of an arena of its own. -/
def freshNode : TransactionM σ BlankNode := do
  let tx ← get
  let (arena, scopes) := tx.scopes.arena
  set { tx with scopes }
  return arena.fresh.1

/-- Refuse to write what `guard` does not cover. -/
def checkCovered (guard : Guard) : TransactionM σ Unit := do
  match (← get).staged.keys.find? fun id => !guard.covers id with
  | some id => throw (.internal ("Write to " ++ id.text ++ " without holding its lock"))
  | none => return ()

/-- A record with the time at which it is written. -/
def stamp (modified : Instant) (r : Record) : Record :=
  ⟨{ r.resource with modified }, r.tombstonedAt.map fun _ => modified⟩

/-- Write the staged records, in the order of their identifiers. -/
def commit : TransactionM σ (List Record) := do
  let records ← (← get).staged.toList.mapM fun (id, r) => return stamp (← timestamp id) r
  match RecordStore.putBatch (← get).store records with
  | .ok store =>
    modify fun tx => { tx with store }
    return records
  | .error f => throw (.storage f)

end Transaction

end LinkedData
