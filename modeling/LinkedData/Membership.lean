/-
  LinkedData.Membership — what a membership container says of its children.

  A container's user graph names a membership resource and a relation. Each child then
  contributes triples that are kept either with the membership resource, or with the child
  itself, by the direction of the relation.
-/

import LinkedData.Resource

namespace LinkedData

open Std Vocabulary

/-- The direction and the predicate of member triples. -/
inductive MemberRelation
  /-- From the membership resource to the member. -/
  | hasMember (predicate : Iri)
  /-- From the child to the membership resource. -/
  | isMemberOf (predicate : Iri)
  deriving DecidableEq, Repr

structure Membership where
  resource : Iri
  relation : MemberRelation
  /-- The property of a child whose values are the members; without one, the child is. -/
  insertedContent : Option Iri
  deriving DecidableEq, Repr

/-- A triple, and the resource in whose server graph it is kept. -/
structure MemberTriple where
  holder : Iri
  triple : Triple
  deriving DecidableEq, Repr

namespace Membership

/-- The first IRI that the user graph of `r` says of `r` by `p`. -/
def firstIri (r : Resource) (p : Iri) : Option Iri :=
  ((r.userGraph.objects (.iri r.id) p).filterMap Term.iri?).head?

/-- A relation to the member wins over one from it; without either, the member is one by `ldp:member`. -/
def relationOf (r : Resource) : MemberRelation :=
  match firstIri r Ldp.hasMemberRelation, firstIri r Ldp.isMemberOfRelation with
  | some p, _ => .hasMember p
  | none, some p => .isMemberOf p
  | none, none => .hasMember Ldp.member

def insertedContentOf (r : Resource) : Option Iri :=
  if r.model = .indirectContainer then (firstIri r Ldp.insertedContentRelation).filter (· ≠ Ldp.memberSubject)
  else none

/-- The membership that `r` maintains, if it maintains any. -/
def ofContainer? (r : Resource) : Option Membership :=
  if r.model.isMembershipContainer then
    (firstIri r Ldp.membershipResource).map fun m => ⟨m, relationOf r, insertedContentOf r⟩
  else none

/-- The resource that speaks of the membership resource. -/
def target (m : Membership) : Iri := m.resource.base

/-- The members that `child` contributes. -/
def members (m : Membership) (child : Resource) : List Term :=
  match m.insertedContent with
  | none => [.iri child.id]
  | some p => (child.userGraph.withPredicate p).map (·.object)

/-- The triples that `child` contributes. -/
def triples (m : Membership) (child : Resource) : List MemberTriple :=
  match m.relation with
  | .hasMember p => (m.members child).map fun o => ⟨m.target, ⟨.iri m.resource, p, o⟩⟩
  | .isMemberOf p => [⟨child.id, ⟨.iri child.id, p, .iri m.resource⟩⟩]

end Membership

end LinkedData
