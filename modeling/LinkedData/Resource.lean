/-
  LinkedData.Resource — a resource's state, and the record that is kept of it.

  A record outlives its resource: a deleted one keeps a record with the time it was deleted,
  a tombstone, so that it can be told from one that never was.
-/

import LinkedData.Identifier
import LinkedData.Instant
import LinkedData.InteractionModel
import LinkedData.Rdf.Graph

namespace LinkedData

open Std Vocabulary

/-- Where the content of a resource that is not RDF is found, and what it is. -/
structure Binary where
  location : Iri
  mime : Option String
  size : UInt64
  digest : String
  deriving DecidableEq, Repr

structure Resource where
  id : Iri
  model : InteractionModel
  dataset : Dataset
  modified : Instant
  binary : Option Binary
  deriving DecidableEq

namespace Resource

def userGraph (r : Resource) : Graph := r.dataset.userGraph

def serverGraph (r : Resource) : Graph := r.dataset.serverGraph

def auditGraph (r : Resource) : Graph := r.dataset.auditGraph

/-- The triple by which `parent` lists `child`. -/
def containment (parent child : Iri) : Triple := ⟨.iri parent, Ldp.contains, .iri child⟩

/-- The triple that says of `id` which model it has. -/
def typing (id : Iri) (m : InteractionModel) : Triple := ⟨.iri id, Rdf.type, .iri m.iri⟩

/-- The children listed, in the order of their identifiers. -/
def children (r : Resource) : List Iri := (r.serverGraph.objects (.iri r.id) Ldp.contains).filterMap Term.iri?

def isContainer (r : Resource) : Bool := r.model.isContainer

/-- Change the server's graph. -/
def updateServer (r : Resource) (f : Graph → Graph) : Resource := { r with dataset := r.dataset.update .server f }

theorem mem_children {r : Resource} {c : Iri} : c ∈ r.children ↔ containment r.id c ∈ r.serverGraph := by
  simp only [children, List.mem_filterMap, Graph.mem_objects, containment]
  constructor
  · rintro ⟨t, ht, hc⟩
    cases t <;> simp_all [Term.iri?]
  · intro h
    exact ⟨_, h, rfl⟩

end Resource

structure Record where
  resource : Resource
  tombstonedAt : Option Instant
  deriving DecidableEq

namespace Record

def live (r : Resource) : Record := ⟨r, none⟩

/-- Deleted when it was last modified. -/
def tombstone (r : Resource) : Record := ⟨r, some r.modified⟩

def id (r : Record) : Iri := r.resource.id

def isLive (r : Record) : Bool := r.tombstonedAt.isNone

/-- The resource, unless it was deleted. -/
def live? (r : Record) : Option Resource := if r.isLive then some r.resource else none

end Record

end LinkedData
