/-
  LinkedData.Constraint — what a client's graph may say, by interaction model.

  `violations` lists every broken rule with the triples that break it, and nothing when the
  graph may be stored: first the rules on how often a property is used, then, triple after
  triple, the rules on one triple. A violation's triples are a set.
-/

import LinkedData.InteractionModel
import LinkedData.Rdf.Graph

namespace LinkedData

open Std Vocabulary

inductive ConstraintKind
  | invalidType
  | invalidProperty
  | invalidRange
  | invalidCardinality
  deriving DecidableEq, Repr

namespace ConstraintKind

def all : List ConstraintKind := [invalidType, invalidProperty, invalidRange, invalidCardinality]

def name : ConstraintKind → String
  | invalidType => "InvalidType"
  | invalidProperty => "InvalidProperty"
  | invalidRange => "InvalidRange"
  | invalidCardinality => "InvalidCardinality"

/-- The IRI under which clients are told of the rule. -/
def iri : ConstraintKind → Iri
  | invalidType => Server.invalidType
  | invalidProperty => Server.invalidProperty
  | invalidRange => Server.invalidRange
  | invalidCardinality => Server.invalidCardinality

def ofName? (name : String) : Option ConstraintKind := all.find? (·.name == name)

end ConstraintKind

structure Violation where
  kind : ConstraintKind
  triples : Graph
  deriving DecidableEq

namespace Violation

def of (kind : ConstraintKind) (ts : List Triple) : Violation := ⟨kind, Graph.ofList ts⟩

def display (v : Violation) : String := v.kind.name ++ " (" ++ toString v.triples.size ++ " triples)"

end Violation

namespace Constraint

/-- Properties that only the server writes. -/
def serverProperties : List Iri := [Ldp.contains, Acl.accessControl]

/-- Properties that only membership containers may use. -/
def membershipProperties : List Iri :=
  [Ldp.membershipResource, Ldp.hasMemberRelation, Ldp.isMemberOfRelation, Ldp.insertedContentRelation]

/-- Properties with one value, an IRI; in the order of their IRIs. -/
def iriProperties : List Iri :=
  [Ldp.hasMemberRelation, Ldp.inbox, Ldp.insertedContentRelation, Ldp.isMemberOfRelation, Ldp.membershipResource,
   Oa.annotationService]

def allowed : InteractionModel → Iri → Bool
  | .indirectContainer, _ => true
  | .directContainer, p => p ≠ Ldp.insertedContentRelation
  | .rdfSource, p | .nonRdfSource, p | .container, p | .basicContainer, p => ¬ membershipProperties.contains p

/-- `text` begins with `domain`. -/
def within (domain : String) (i : Iri) : Bool := domain.toList.isPrefixOf i.text.toList

/-- The object is not one that the predicate may have. -/
def outOfRange (domain : String) (t : Triple) : Bool :=
  match t.object.iri? with
  | none => iriProperties.contains t.predicate || t.predicate = Rdf.type
  | some o =>
    if t.predicate = Ldp.hasMemberRelation ∨ t.predicate = Ldp.isMemberOfRelation then o = Ldp.contains
    else if t.predicate = Ldp.membershipResource then ¬ within domain o
    else false

/-- The rules that one triple breaks by itself. -/
def ofTriple (m : InteractionModel) (domain : String) (t : Triple) : List Violation :=
  (if serverProperties.contains t.predicate || ¬ allowed m t.predicate then [.of .invalidProperty [t]] else []) ++
    (if outOfRange domain t then [.of .invalidRange [t]] else [])

/-- Triples that must be exactly one, and are not. -/
def notOne (ts : List Triple) : List Violation := if ts.length = 1 then [] else [.of .invalidCardinality ts]

/-- Triples that may be at most one, and are not. -/
def tooMany (ts : List Triple) : List Violation := if ts.length ≤ 1 then [] else [.of .invalidCardinality ts]

/-- A membership container has one membership resource and one relation, whichever its direction;
    every other single-valued property has one value at most. -/
def cardinality (m : InteractionModel) (g : Graph) : List Violation :=
  if m.isMembershipContainer then
    notOne (g.withPredicate Ldp.membershipResource) ++
      notOne (g.withPredicate Ldp.hasMemberRelation ++ g.withPredicate Ldp.isMemberOfRelation) ++
      (iriProperties.filter fun p =>
        p ≠ Ldp.membershipResource ∧ p ≠ Ldp.hasMemberRelation ∧ p ≠ Ldp.isMemberOfRelation).flatMap
          fun p => tooMany (g.withPredicate p)
  else iriProperties.flatMap fun p => tooMany (g.withPredicate p)

/-- Every rule that `g` breaks as the user graph of a resource of model `m`. IRIs that do not begin
    with `domain` are someone else's. -/
def violations (m : InteractionModel) (domain : String) (g : Graph) : List Violation :=
  cardinality m g ++ g.toList.flatMap (ofTriple m domain)

end Constraint

end LinkedData
