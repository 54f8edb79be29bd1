/-
  LinkedData.Error — everything that can be answered instead of a result, with its wording.

  A store's faults are one kind of error among the platform's; `httpStatus` is the class an
  error has for a client, `report` the line a person reads.
-/

import LinkedData.Constraint

namespace LinkedData

open Std

inductive StorageError
  | invalidPath (path : String)
  | hashMismatch (expected actual : String)
  /-- The backend failed to do something. -/
  | backend (what : String)
  /-- Stored bytes cannot be understood. -/
  | undecodable (what : String)
  deriving DecidableEq, Repr

namespace StorageError

def message : StorageError → String
  | invalidPath p => "Invalid path: " ++ p
  | hashMismatch e a => "Digest mismatch: expected " ++ e ++ ", got " ++ a
  | backend w => "Storage I/O error: " ++ w
  | undecodable w => "Storage I/O error: " ++ w

end StorageError

inductive Error
  | notFound (id : Iri)
  | gone (id : Iri)
  | alreadyExists (id : Iri)
  | conflict (why : String)
  | constraintViolations (violations : List Violation)
  | invalidParent (id : Iri)
  | malformedInput (why : String)
  | storage (fault : StorageError)
  | config (why : String)
  | internal (why : String)
  deriving DecidableEq

namespace Error

def message : Error → String
  | notFound id => "Resource not found: " ++ id.text
  | gone id => "Resource has been deleted: " ++ id.text
  | alreadyExists id => "Resource already exists: " ++ id.text
  | conflict w => "Conflict: " ++ w
  | constraintViolations vs => "Constraint violations: " ++ ", ".intercalate (vs.map (·.kind.name))
  | invalidParent id => "Parent is not a live container: " ++ id.text
  | malformedInput w => "Malformed input: " ++ w
  | storage f => "Storage error: " ++ f.message
  | config w => "Configuration error: " ++ w
  | internal w => "Internal error: " ++ w

def httpStatus : Error → Nat
  | notFound _ => 404
  | gone _ => 410
  | alreadyExists _ | conflict _ => 409
  | constraintViolations _ => 422
  | invalidParent _ => 405
  | malformedInput _ => 400
  | storage _ | config _ | internal _ => 500

/-- There is nothing under this identifier now, whether or not there was. -/
def isNotFound : Error → Bool
  | notFound _ | gone _ => true
  | _ => false

/-- The IRIs of the broken rules, each once, in order. -/
def constrainedBy : Error → List Iri
  | constraintViolations vs => (ExtTreeSet.ofList (vs.map (·.kind.iri)) compare).toList
  | _ => []

/-- The message, and for broken rules their IRIs. -/
def report (e : Error) : String :=
  match e with
  | constraintViolations _ =>
    e.message ++ " (constrained by: " ++ ", ".intercalate (e.constrainedBy.map (·.text)) ++ ")"
  | _ => e.message

end Error

/-- The model of a type IRI, which has to be the type of one. -/
def InteractionModel.ofType (i : Iri) : Except Error InteractionModel :=
  match InteractionModel.ofIri? i with
  | some m => .ok m
  | none => .error (.malformedInput ("Unknown interaction model: " ++ i.text))

end LinkedData
