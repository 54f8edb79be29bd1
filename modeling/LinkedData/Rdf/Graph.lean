/-
  LinkedData.Rdf.Graph — graphs and datasets.

  A graph is a set of triples. A dataset keeps some graphs apart under names; three names
  have a meaning here: what the client said, what the server says (type, containment and
  membership), and the log of who did what. Both are extensional: two graphs with the same
  triples are equal, whatever was inserted when.
-/

import LinkedData.Vocabulary
import Std.Data.ExtTreeSet

namespace LinkedData

open Std Vocabulary

abbrev Graph := ExtTreeSet Triple compare

namespace Graph

def ofList (ts : List Triple) : Graph := ExtTreeSet.ofList ts compare

/-- The triples with predicate `p`, in graph order. -/
def withPredicate (g : Graph) (p : Iri) : List Triple := g.toList.filter (·.predicate = p)

/-- The objects said of `s` by `p`, in graph order. -/
def objects (g : Graph) (s : Subject) (p : Iri) : List Term :=
  (g.toList.filter fun t => t.subject = s ∧ t.predicate = p).map (·.object)

/-- Every triple of `ts` added. -/
def extend (g : Graph) (ts : List Triple) : Graph := ts.foldl ExtTreeSet.insert g

theorem mem_withPredicate {g : Graph} {p : Iri} {t : Triple} :
    t ∈ g.withPredicate p ↔ t ∈ g ∧ t.predicate = p := by
  simp [withPredicate, ExtTreeSet.mem_toList]

theorem mem_objects {g : Graph} {s : Subject} {p : Iri} {o : Term} :
    o ∈ g.objects s p ↔ ⟨s, p, o⟩ ∈ g := by
  simp only [objects, List.mem_map, List.mem_filter, ExtTreeSet.mem_toList, decide_eq_true_eq]
  constructor
  · rintro ⟨⟨s', p', o'⟩, ⟨hg, rfl, rfl⟩, rfl⟩
    exact hg
  · intro h
    exact ⟨_, ⟨h, rfl, rfl⟩, rfl⟩

end Graph

/-- The default graph, or a named one. -/
abbrev GraphName := Option Iri

namespace GraphName

def user : GraphName := some Server.userManaged

def server : GraphName := some Server.serverManaged

def audit : GraphName := some Server.audit

end GraphName

structure Dataset where
  graphs : ExtTreeMap GraphName Graph compare
  deriving DecidableEq

namespace Dataset

def empty : Dataset := ⟨∅⟩

/-- The graph of a name; one that is absent is empty. -/
def graph (d : Dataset) (n : GraphName) : Graph := d.graphs.getD n ∅

/-- Change the graph of a name. It is there afterwards, if empty. -/
def update (d : Dataset) (n : GraphName) (f : Graph → Graph) : Dataset := ⟨d.graphs.insert n (f (d.graph n))⟩

/-- Make `g` the graph of a name; an empty one is left out. -/
def set (d : Dataset) (n : GraphName) (g : Graph) : Dataset :=
  ⟨if g.isEmpty then d.graphs.erase n else d.graphs.insert n g⟩

def ofUserGraph (g : Graph) : Dataset := empty.set .user g

def userGraph (d : Dataset) : Graph := d.graph .user

def serverGraph (d : Dataset) : Graph := d.graph .server

def auditGraph (d : Dataset) : Graph := d.graph .audit

/-- Add a triple to the graph of a name. -/
def insert (d : Dataset) (n : GraphName) (t : Triple) : Dataset := d.update n (·.insert t)

/-- Take a triple out of the graph of a name. -/
def erase (d : Dataset) (n : GraphName) (t : Triple) : Dataset := d.update n (·.erase t)

/-- Every triple with the name of its graph, by graph and in graph order. -/
def quads (d : Dataset) : List (GraphName × Triple) :=
  d.graphs.toList.flatMap fun (n, g) => g.toList.map (n, ·)

def size (d : Dataset) : Nat := d.graphs.foldl (fun n _ g => n + g.size) 0

def isEmpty (d : Dataset) : Bool := d.graphs.toList.all fun e => e.2.isEmpty

/-! The graph of a name after each operation. -/

@[simp] theorem graph_empty (n : GraphName) : empty.graph n = ∅ := by simp [graph, empty]

theorem graph_update (d : Dataset) (n m : GraphName) (f : Graph → Graph) :
    (d.update n f).graph m = if n = m then f (d.graph n) else d.graph m := by
  simp [graph, update, ExtTreeMap.getD_insert, LawfulEqCmp.compare_eq_iff_eq]

@[simp] theorem graph_update_self (d : Dataset) (n : GraphName) (f : Graph → Graph) :
    (d.update n f).graph n = f (d.graph n) := by simp [graph_update]

theorem graph_update_of_ne (d : Dataset) {n m : GraphName} (h : n ≠ m) (f : Graph → Graph) :
    (d.update n f).graph m = d.graph m := by simp [graph_update, h]

theorem graph_set (d : Dataset) (n m : GraphName) (g : Graph) :
    (d.set n g).graph m = if n = m then g else d.graph m := by
  unfold set
  split
  · next h =>
    simp only [graph, ExtTreeMap.getD_erase, LawfulEqCmp.compare_eq_iff_eq]
    split
    · exact (ExtTreeSet.isEmpty_iff.mp h).symm
    · rfl
  · simp [graph, ExtTreeMap.getD_insert, LawfulEqCmp.compare_eq_iff_eq]

end Dataset

end LinkedData
