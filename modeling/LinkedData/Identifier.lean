/-
  LinkedData.Identifier — the tree of identifiers below a root.

  An identifier is the root itself, or the root followed by a path: segments between slashes,
  none of them empty, and no `#` anywhere. Its parent is the identifier one segment up.
-/

import LinkedData.Rdf.Iri

namespace LinkedData

inductive IdentifierFault
  | outside
  | invalidPath
  deriving DecidableEq, Repr

def IdentifierFault.message (id root : Iri) : IdentifierFault → String
  | outside => "Identifier " ++ id.text ++ " is outside " ++ root.text
  | invalidPath => "Identifier " ++ id.text ++ " is not a valid resource path"

namespace Identifier

/-- What stands between the slashes: one segment more than there are slashes. -/
def segments : List Char → List (List Char)
  | [] => [[]]
  | c :: cs =>
    if c = '/' then [] :: segments cs
    else match segments cs with
      | [] => [[c]]
      | s :: more => (c :: s) :: more

def validPath (path : List Char) : Bool := !path.contains '#' && (segments path).all (!·.isEmpty)

/-- The path of an identifier other than the root. -/
def path? (root id : Iri) : Except IdentifierFault (List Char) :=
  if ¬ root.text.toList.isPrefixOf id.text.toList then .error .outside
  else
    let path := id.text.toList.drop root.text.toList.length
    if validPath path then .ok path else .error .invalidPath

/-- The root, or a valid path below it. -/
def validate (root id : Iri) : Except IdentifierFault Unit :=
  if id = root then .ok () else (path? root id).map fun _ => ()

/-- What stands before the last slash, when there is one. -/
def beforeLastSlash : List Char → Option (List Char)
  | [] => none
  | c :: cs =>
    match beforeLastSlash cs with
    | some front => some (c :: front)
    | none => if c = '/' then some [] else none

/-- Places in a text are counted in bytes. -/
def byteLength : List Char → Nat
  | [] => 0
  | c :: cs => c.utf8Size + byteLength cs

/-- The identifier one segment up; the root has none. The last slash of the whole text is taken for the
    end of the parent, unless it stands in the root. -/
def parent? (root id : Iri) : Except IdentifierFault (Option Iri) :=
  (validate root id).map fun _ =>
    if id = root then none
    else match beforeLastSlash id.text.toList with
      | some front => some (if byteLength root.text.toList < byteLength front + 1 then ⟨String.ofList front⟩ else root)
      | none => some root

/-- Accepted by `validate`. -/
def Valid (root id : Iri) : Prop := validate root id = .ok ()

instance (root id : Iri) : Decidable (Valid root id) :=
  match h : validate root id with
  | .ok () => isTrue h
  | .error _ => isFalse fun h' => by rw [Valid, h] at h'; cases h'

end Identifier

end LinkedData
