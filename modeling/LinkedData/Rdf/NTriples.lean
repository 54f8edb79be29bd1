/-
  LinkedData.Rdf.NTriples — terms and triples as text, one triple to a line.

  Inside a literal a backslash, a double quote, a line feed and a carriage return are
  escaped, and nothing else. The datatype of plain text goes without saying.
-/

import LinkedData.Rdf.Literal

namespace LinkedData

open Vocabulary

namespace NTriples

def escapeChar : Char → List Char
  | '\\' => ['\\', '\\']
  | '"' => ['\\', '"']
  | '\n' => ['\\', 'n']
  | '\r' => ['\\', 'r']
  | c => [c]

def escape (cs : List Char) : List Char := cs.flatMap escapeChar

def iri (i : Iri) : List Char := '<' :: i.text.toList ++ ['>']

/-- The label of a blank node: its scope and its index, in decimal. -/
def blank (b : BlankNode) : List Char :=
  '_' :: ':' :: 'b' :: Nat.toDigits 10 b.scope.toNat ++ 'x' :: Nat.toDigits 10 b.index.toNat

/-- What follows the closing quote. -/
def literalTail (l : Literal) : List Char :=
  match l.language with
  | some tag => '@' :: tag.toList
  | none => if l.datatype = Xsd.string then [] else '^' :: '^' :: iri l.datatype

def literal (l : Literal) : List Char := '"' :: escape l.lexical.toList ++ '"' :: literalTail l

def term : Term → List Char
  | .iri i => iri i
  | .blank b => blank b
  | .literal l => literal l

def subject (s : Subject) : List Char := term s.toTerm

def triple (t : Triple) : List Char :=
  subject t.subject ++ ' ' :: iri t.predicate ++ ' ' :: term t.object ++ [' ', '.']

end NTriples

def BlankNode.label (b : BlankNode) : String := String.ofList (NTriples.blank b)

/-- The text of a term on a line of triples. -/
def Term.display (t : Term) : String := String.ofList (NTriples.term t)

/-- The line of a triple, without its end. -/
def Triple.line (t : Triple) : String := String.ofList (NTriples.triple t)

end LinkedData
