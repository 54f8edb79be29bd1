/-
  LinkedData.Rdf.Arena — who hands out blank nodes.

  An arena counts its own nodes and remembers which label got which; its scope keeps them
  apart from every other arena's. A source hands out scopes one after another, modulo 2^64,
  and starts from the clock and the process, to keep clear of the nodes that earlier runs stored.
-/

import LinkedData.Instant
import LinkedData.Rdf.Term
import Std.Data.ExtTreeMap

namespace LinkedData

open Std

structure Arena where
  scope : UInt64
  next : UInt32
  labels : ExtTreeMap String BlankNode compare

namespace Arena

def new (scope : UInt64) : Arena := ⟨scope, 0, ∅⟩

/-- A node that was not handed out before. -/
def fresh (a : Arena) : BlankNode × Arena := (⟨a.scope, a.next⟩, { a with next := a.next + 1 })

/-- The node of a label: a fresh one when the label is new. -/
def labeled (a : Arena) (label : String) : BlankNode × Arena :=
  match a.labels[label]? with
  | some b => (b, a)
  | none =>
    let (b, a) := a.fresh
    (b, { a with labels := a.labels.insert label b })

/-- How many nodes were handed out. -/
def size (a : Arena) : Nat := a.next.toNat

end Arena

structure ScopeSource where
  next : UInt64
  deriving DecidableEq, Repr

namespace ScopeSource

/-- The source of a process. It starts at the nanoseconds since 1970, or at zero for a clock that is
    behind it; the number of the process is put on the upper half. -/
def ofClock (now : Instant) (process : UInt32 := 0) : ScopeSource :=
  ⟨UInt64.ofNat now.nanoseconds.toNat ^^^ process.toUInt64 <<< 32⟩

/-- An empty arena with the next scope. -/
def arena (s : ScopeSource) : Arena × ScopeSource := (Arena.new s.next, ⟨s.next + 1⟩)

end ScopeSource

end LinkedData
