/-
  LinkedData.Rdf.Iri — which texts are IRIs, and the document an IRI belongs to.

  An IRI here is a scheme, a colon, and anything without blanks, angle brackets and double
  quotes: just enough for its text to stand between angle brackets on a line of triples.
-/

import LinkedData.Rdf.Term
import LinkedData.Text.Blank

namespace LinkedData

/-- Why a text is no IRI. -/
inductive IriFault
  | noScheme
  | invalidScheme
  | illegalCharacter
  deriving DecidableEq, Repr

def IriFault.message (text : String) : IriFault → String
  | noScheme => "IRI has no scheme: " ++ text
  | invalidScheme => "IRI has an invalid scheme: " ++ text
  | illegalCharacter => "IRI contains illegal characters: " ++ text

namespace Iri

def schemeChar (c : Char) : Bool := c.isAlphanum || c == '+' || c == '-' || c == '.'

/-- A letter, then letters, digits and the three marks. -/
def validScheme : List Char → Bool
  | [] => false
  | c :: rest => c.isAlpha && rest.all schemeChar

/-- Characters that would end an IRI between angle brackets, or look as if they did. -/
def illegalChar (c : Char) : Bool := Text.isBlank c || c == '<' || c == '>' || c == '"'

/-- The first fault of a text, if it has one: scheme before characters. -/
def fault? (cs : List Char) : Option IriFault :=
  if ¬ cs.contains ':' then some .noScheme
  else if ¬ validScheme (cs.takeWhile (· ≠ ':')) then some .invalidScheme
  else if cs.any illegalChar then some .illegalCharacter
  else none

def parse (text : String) : Except IriFault Iri :=
  match fault? text.toList with
  | some f => .error f
  | none => .ok ⟨text⟩

/-- What `parse` accepts. -/
def WellFormed (i : Iri) : Prop := fault? i.text.toList = none

instance (i : Iri) : Decidable i.WellFormed := inferInstanceAs (Decidable (_ = _))

theorem parse_eq_ok {text : String} {i : Iri} : parse text = .ok i ↔ i = ⟨text⟩ ∧ i.WellFormed := by
  unfold parse WellFormed
  cases h : fault? text.toList with
  | none => constructor
            · rintro ⟨⟩; exact ⟨rfl, h⟩
            · rintro ⟨rfl, _⟩; rfl
  | some f => constructor
              · rintro ⟨⟩
              · rintro ⟨rfl, hi⟩; rw [h] at hi; cases hi

/-- The IRI up to its first `#`: the document that speaks of it. -/
def base (i : Iri) : Iri := ⟨String.ofList (i.text.toList.takeWhile (· ≠ '#'))⟩

end Iri

end LinkedData
