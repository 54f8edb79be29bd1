/-
  LinkedData.Address — identifiers as people write them.

  An identifier may be written in full, or as a path below the root, with or without a
  slash in front. What holds a colon is taken for an IRI of its own, even if it lies
  outside the root.
-/

import LinkedData.Error
import LinkedData.Rdf.Iri

namespace LinkedData.Address

def parse (text : List Char) : Except Error Iri :=
  (Iri.parse (String.ofList text)).mapError fun f => .malformedInput (f.message (String.ofList text))

/-- The identifier that `input` stands for below `root`. -/
def resolve (root : Iri) (input : String) : Except Error Iri :=
  let name := Text.trim input.toList
  if root.text.toList.isPrefixOf name then parse name
  else
    match name.dropWhile (· == '/') with
    | [] => .ok root
    | path => parse (if path.contains ':' then path else root.text.toList ++ path)

end LinkedData.Address
