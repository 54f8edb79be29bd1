/-
  LinkedData.InteractionModel — the kinds of resource of the Linked Data Platform.
-/

import LinkedData.Vocabulary

namespace LinkedData

open Vocabulary

inductive InteractionModel
  | rdfSource
  | nonRdfSource
  | container
  | basicContainer
  | directContainer
  | indirectContainer
  deriving DecidableEq, Repr

namespace InteractionModel

def all : List InteractionModel :=
  [rdfSource, nonRdfSource, container, basicContainer, directContainer, indirectContainer]

def iri : InteractionModel → Iri
  | rdfSource => Ldp.rdfSource
  | nonRdfSource => Ldp.nonRdfSource
  | container => Ldp.container
  | basicContainer => Ldp.basicContainer
  | directContainer => Ldp.directContainer
  | indirectContainer => Ldp.indirectContainer

def name : InteractionModel → String
  | rdfSource => "RDFSource"
  | nonRdfSource => "NonRDFSource"
  | container => "Container"
  | basicContainer => "BasicContainer"
  | directContainer => "DirectContainer"
  | indirectContainer => "IndirectContainer"

/-- The name with the prefix of its vocabulary. -/
def display (m : InteractionModel) : String := "ldp:" ++ m.name

def ofName? (name : String) : Option InteractionModel := all.find? (·.name == name)

/-- The model of a type IRI. What is only called a resource is an RDF source. -/
def ofIri? (i : Iri) : Option InteractionModel :=
  if i = Ldp.resource then some rdfSource else all.find? (·.iri = i)

/-- Resources of this model may have children. -/
def isContainer : InteractionModel → Bool
  | rdfSource | nonRdfSource => false
  | container | basicContainer | directContainer | indirectContainer => true

/-- Resources of this model keep membership triples for their children. -/
def isMembershipContainer : InteractionModel → Bool
  | directContainer | indirectContainer => true
  | rdfSource | nonRdfSource | container | basicContainer => false

theorem mem_all (m : InteractionModel) : m ∈ all := by cases m <;> decide

theorem iri_injective {m n : InteractionModel} (h : m.iri = n.iri) : m = n := by
  cases m <;> cases n <;> first | rfl | exact absurd h (by decide)

end InteractionModel

end LinkedData
