/-
  LinkedData.Rdf.Term — IRIs, blank nodes, literals, and the triples built from them.

  Equality is of structure, and every type is totally ordered, so that sets of triples have
  one order to be listed in: by subject, predicate, object; IRIs before blank nodes before
  literals; text by code point; literals by lexical form, then datatype, then language with
  none first. The orders are lawful: what compares equal is equal.
-/

import Std.Data.ExtTreeMap

namespace LinkedData

open Std

/-- An absolute IRI, as text. Nothing is checked here: see `Iri.parse`. -/
structure Iri where
  text : String
  deriving DecidableEq, Repr, Inhabited

/-- A node without a name. The scope is the arena's that handed it out, so that nodes of two
    arenas never meet. -/
structure BlankNode where
  scope : UInt64
  index : UInt32
  deriving DecidableEq, Repr

structure Literal where
  lexical : String
  datatype : Iri
  language : Option String
  deriving DecidableEq, Repr

inductive Subject
  | iri (iri : Iri)
  | blank (node : BlankNode)
  deriving DecidableEq, Repr

inductive Term
  | iri (iri : Iri)
  | blank (node : BlankNode)
  | literal (literal : Literal)
  deriving DecidableEq, Repr

structure Triple where
  subject : Subject
  predicate : Iri
  object : Term
  deriving DecidableEq, Repr

namespace Subject

def iri? : Subject → Option Iri
  | iri i => some i
  | blank _ => none

def blank? : Subject → Option BlankNode
  | iri _ => none
  | blank b => some b

def toTerm : Subject → Term
  | iri i => .iri i
  | blank b => .blank b

end Subject

namespace Term

def iri? : Term → Option Iri
  | iri i => some i
  | _ => none

def blank? : Term → Option BlankNode
  | blank b => some b
  | _ => none

def literal? : Term → Option Literal
  | literal l => some l
  | _ => none

def isIri (t : Term) : Bool := t.iri?.isSome

end Term

/-! ## Order

  Each order compares one part after another. An alternative is compared through the parts it
  may have: one that is absent comes before one that is present. -/

theorem lawfulEqOrd_of {α : Type} [Ord α] [ReflOrd α] (h : ∀ {a b : α}, compare a b = .eq → a = b) :
    LawfulEqOrd α :=
  ⟨h⟩

theorem eq_of_compareOn {α κ : Type} [Ord κ] [LawfulEqOrd κ] {key : α → κ} {a b : α}
    (h : compareOn key a b = .eq) : key a = key b :=
  LawfulEqCmp.eq_of_compare h

def Iri.order : Iri → Iri → Ordering := compareOn Iri.text

instance : Ord Iri := ⟨Iri.order⟩

instance : TransOrd Iri := inferInstanceAs (TransCmp (compareOn Iri.text))

instance : LawfulEqOrd Iri := lawfulEqOrd_of fun {a b} h => by
  have : a.text = b.text := @eq_of_compareOn _ _ _ _ Iri.text a b h
  cases a; cases b; simp_all

def BlankNode.order : BlankNode → BlankNode → Ordering :=
  compareLex (compareOn BlankNode.scope) (compareOn BlankNode.index)

instance : Ord BlankNode := ⟨BlankNode.order⟩

instance : TransOrd BlankNode :=
  inferInstanceAs (TransCmp (compareLex (compareOn BlankNode.scope) (compareOn BlankNode.index)))

instance : LawfulEqOrd BlankNode := lawfulEqOrd_of fun {a b} h => by
  obtain ⟨hs, hi⟩ := compareLex_eq_eq.mp h
  have := eq_of_compareOn hs
  have := eq_of_compareOn hi
  cases a; cases b; simp_all

def Literal.order : Literal → Literal → Ordering :=
  compareLex (compareOn Literal.lexical) (compareLex (compareOn Literal.datatype) (compareOn Literal.language))

instance : Ord Literal := ⟨Literal.order⟩

instance : TransOrd Literal := inferInstanceAs (TransCmp
  (compareLex (compareOn Literal.lexical) (compareLex (compareOn Literal.datatype) (compareOn Literal.language))))

instance : LawfulEqOrd Literal := lawfulEqOrd_of fun {a b} h => by
  obtain ⟨hl, h⟩ := compareLex_eq_eq.mp h
  obtain ⟨hd, hg⟩ := compareLex_eq_eq.mp h
  have := eq_of_compareOn hl
  have := eq_of_compareOn hd
  have := eq_of_compareOn hg
  cases a; cases b; simp_all

def Subject.order : Subject → Subject → Ordering :=
  compareLex (compareOn Subject.blank?) (compareOn Subject.iri?)

instance : Ord Subject := ⟨Subject.order⟩

instance : TransOrd Subject :=
  inferInstanceAs (TransCmp (compareLex (compareOn Subject.blank?) (compareOn Subject.iri?)))

instance : LawfulEqOrd Subject := lawfulEqOrd_of fun {a b} h => by
  obtain ⟨hb, hi⟩ := compareLex_eq_eq.mp h
  have := eq_of_compareOn hb
  have := eq_of_compareOn hi
  cases a <;> cases b <;> simp_all [Subject.blank?, Subject.iri?]

def Term.order : Term → Term → Ordering :=
  compareLex (compareOn Term.literal?) (compareLex (compareOn Term.blank?) (compareOn Term.iri?))

instance : Ord Term := ⟨Term.order⟩

instance : TransOrd Term := inferInstanceAs (TransCmp
  (compareLex (compareOn Term.literal?) (compareLex (compareOn Term.blank?) (compareOn Term.iri?))))

instance : LawfulEqOrd Term := lawfulEqOrd_of fun {a b} h => by
  obtain ⟨hl, h⟩ := compareLex_eq_eq.mp h
  obtain ⟨hb, hi⟩ := compareLex_eq_eq.mp h
  have := eq_of_compareOn hl
  have := eq_of_compareOn hb
  have := eq_of_compareOn hi
  cases a <;> cases b <;> simp_all [Term.literal?, Term.blank?, Term.iri?]

def Triple.order : Triple → Triple → Ordering :=
  compareLex (compareOn Triple.subject) (compareLex (compareOn Triple.predicate) (compareOn Triple.object))

instance : Ord Triple := ⟨Triple.order⟩

instance : TransOrd Triple := inferInstanceAs (TransCmp
  (compareLex (compareOn Triple.subject) (compareLex (compareOn Triple.predicate) (compareOn Triple.object))))

instance : LawfulEqOrd Triple := lawfulEqOrd_of fun {a b} h => by
  obtain ⟨hs, h⟩ := compareLex_eq_eq.mp h
  obtain ⟨hp, ho⟩ := compareLex_eq_eq.mp h
  have := eq_of_compareOn hs
  have := eq_of_compareOn hp
  have := eq_of_compareOn ho
  cases a; cases b; simp_all

end LinkedData
