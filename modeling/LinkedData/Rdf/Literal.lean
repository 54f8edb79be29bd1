/-
  LinkedData.Rdf.Literal — the three ways to make a literal.
-/

import LinkedData.Vocabulary

namespace LinkedData

open Vocabulary

namespace Literal

/-- Plain text. -/
def simple (lexical : String) : Literal := ⟨lexical, Xsd.string, none⟩

/-- Text in a language. Tags are compared without regard to case, so they are kept in lower case;
    other alphabets have no place in a tag and are left as they are. -/
def lang (lexical tag : String) : Literal :=
  ⟨lexical, Rdf.langString, some (String.ofList (tag.toList.map Char.toLower))⟩

def typed (lexical : String) (datatype : Iri) : Literal := ⟨lexical, datatype, none⟩

end Literal

end LinkedData
