/-
  LinkedData.Cache — a bounded cache that forgets what was used least recently.

  The values are in a map; beside it the keys stand in the order of their last use, least
  recent first. `Coherent`: the order has every key of the map, once, and the map has room.
-/

import Std.Data.ExtTreeMap

namespace LinkedData

open Std

structure Cache (κ ν : Type) [Ord κ] where
  /-- At least one. -/
  capacity : Nat
  entries : ExtTreeMap κ ν compare
  recency : List κ

namespace Cache

variable {κ ν : Type} [Ord κ] [TransOrd κ] [LawfulEqOrd κ] [DecidableEq κ]

def new (capacity : Nat) : Cache κ ν := ⟨max capacity 1, ∅, []⟩

def size (c : Cache κ ν) : Nat := c.entries.size

/-- Make `k`, if it is there, the key used last. -/
def touch (recency : List κ) (k : κ) : List κ := if k ∈ recency then recency.erase k ++ [k] else recency

def get (c : Cache κ ν) (k : κ) : Option ν × Cache κ ν :=
  match c.entries[k]? with
  | some v => (some v, { c with recency := touch c.recency k })
  | none => (none, c)

/-- Forget the least recent keys while there are too many. -/
def evict (capacity : Nat) (entries : ExtTreeMap κ ν compare) : List κ → ExtTreeMap κ ν compare × List κ
  | [] => (entries, [])
  | oldest :: rest =>
    if capacity < entries.size then evict capacity (entries.erase oldest) rest else (entries, oldest :: rest)

def insert (c : Cache κ ν) (k : κ) (v : ν) : Cache κ ν :=
  if k ∈ c.entries then { c with entries := c.entries.insert k v, recency := touch c.recency k }
  else
    let (entries, recency) := evict c.capacity (c.entries.insert k v) (c.recency ++ [k])
    { c with entries, recency }

/-- The value of `k`, asked of `populate` when it is not there. While it is asked, the cache is free for
    anybody, `populate` too: its value goes into what the cache has become. A failure goes nowhere. -/
def obtain {ε : Type} {m : Type → Type} [Monad m] (k : κ)
    (populate : κ → StateT (Cache κ ν) m (Except ε ν)) :
    StateT (Cache κ ν) m (Except ε ν) := do
  match ← modifyGet fun c => c.get k with
  | some v => return .ok v
  | none =>
    let answer ← populate k
    if let .ok v := answer then modify fun c => c.insert k v
    return answer

/-- The same for a `populate` that has nothing to do with the cache. -/
def getOrPopulate {ε : Type} (c : Cache κ ν) (k : κ) (populate : κ → Except ε ν) :
    Except ε ν × Cache κ ν :=
  (obtain (m := Id) k fun k => return populate k).run c

def invalidate (c : Cache κ ν) (k : κ) : Option ν × Cache κ ν :=
  match c.entries[k]? with
  | some v => (some v, { c with entries := c.entries.erase k, recency := c.recency.filter (· ≠ k) })
  | none => (none, c)

def Coherent (c : Cache κ ν) : Prop :=
  c.recency.Nodup ∧ (∀ k, k ∈ c.recency ↔ k ∈ c.entries) ∧ c.entries.size ≤ c.capacity

end Cache

end LinkedData
