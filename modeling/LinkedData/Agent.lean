/-
  LinkedData.Agent — who acts, and in which session.
-/

import LinkedData.Instant
import LinkedData.Rdf.Iri
import LinkedData.Vocabulary

namespace LinkedData

open Vocabulary

/-- The agent of an authenticated name: an IRI stands for itself, any other name is one of the
    space of names `space`; no name, or a blank one, is anonymous. -/
def agentOf (space : String) : Option String → Iri
  | none => Server.anonymousAgent
  | some principal =>
    let name := Text.trim principal.toList
    if name = [] then Server.anonymousAgent
    else match Iri.parse (String.ofList name) with
      | .ok i => i
      | .error _ => ⟨String.ofList (space.toList ++ name)⟩

/-- An agent for the length of one request. -/
structure Session where
  agent : Iri
  created : Instant
  deriving DecidableEq, Repr

namespace Session

def anonymous (now : Instant) : Session := ⟨Server.anonymousAgent, now⟩

/-- For what the server does by itself. -/
def administrator (now : Instant) : Session := ⟨Server.administratorAgent, now⟩

def isAnonymous (s : Session) : Bool := s.agent = Server.anonymousAgent

end Session

end LinkedData
