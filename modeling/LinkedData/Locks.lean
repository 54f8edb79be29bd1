/-
  LinkedData.Locks — write locks on sets of identifiers.

  A writer claims all the identifiers it will write at once and gets them only when none of
  them is held; until then it holds none. A guard is a set that was granted. Dropping it
  frees exactly that set.
-/

import LinkedData.Rdf.Term
import Std.Data.ExtTreeSet

namespace LinkedData

open Std

abbrev IriSet := ExtTreeSet Iri compare

/-- The identifiers a writer holds. -/
structure Guard where
  ids : IriSet
  deriving DecidableEq

namespace Guard

def covers (g : Guard) (id : Iri) : Bool := g.ids.contains id

def coversAll (g : Guard) (ids : List Iri) : Bool := ids.all g.covers

end Guard

/-- The identifiers that have a writer. -/
structure Locks where
  held : IriSet
  deriving DecidableEq

namespace Locks

def none : Locks := ⟨∅⟩

def isFree (l : Locks) (ids : IriSet) : Bool := ids.toList.all fun id => !l.held.contains id

/-- All of `ids`, if none of them is held. -/
def claim? (l : Locks) (ids : List Iri) : Option (Guard × Locks) :=
  let wanted := ExtTreeSet.ofList ids compare
  if l.isFree wanted then some (⟨wanted⟩, ⟨wanted.toList.foldl ExtTreeSet.insert l.held⟩) else Option.none

def release (l : Locks) (g : Guard) : Locks := ⟨g.ids.toList.foldl ExtTreeSet.erase l.held⟩

end Locks

end LinkedData
