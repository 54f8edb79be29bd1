/-
  LinkedData.Yaml.Tag — tags, which say what kind of value a node has.

  A tag has a handle and a suffix. A directive gives the handle a meaning. The tags of the core
  are the ones that count here.
-/

import LinkedData.Hex
import LinkedData.Yaml.Cursor

namespace LinkedData.Yaml

def isWordChar (c : Char) : Bool := c.isAlphanum || c == '_' || c == '-'

def uriMarks : List Char := "#;/?:@&=+$,_.!~*'()[]%".toList

def isUriChar (c : Char) : Bool := c.isAlphanum || c == '-' || uriMarks.contains c

def isTagChar (c : Char) : Bool := isUriChar c && !isFlowMark c && c ≠ '!'

structure Tag where
  handle : String
  suffix : String
  deriving DecidableEq

namespace Tag

/-! ## Reading -/

def byte? : List Char → Option Nat
  | '%' :: a :: b :: _ => Hex.value? [a, b]
  | _ => none

/-- How many bytes a character has that begins with a byte. -/
def width? (byte : Nat) : Option Nat :=
  if byte < 0x80 then some 1
  else if byte < 0xC0 then none
  else if byte < 0xE0 then some 2
  else if byte < 0xF0 then some 3
  else if byte < 0xF8 then some 4
  else none

def following : Nat → Nat → List Char → Option Nat
  | 0, code, _ => some code
  | n + 1, code, cs => do
    let b ← byte? cs
    if b / 64 ≠ 2 then none else following n (256 * code + b) (cs.drop 3)

/-- A character that is written as bytes: the bytes are those of its number. -/
def escape (cs : List Char) : Option (Char × Nat) := do
  let first ← byte? cs
  let width ← width? first
  let code ← following (width - 1) first (cs.drop 3)
  if h : code.isValidChar then some (Char.ofNatAux code h, 3 * width) else none

/-- The characters of a tag that are `ok`; `fuel` is at least the number of characters. -/
def chars (ok : Char → Bool) : Nat → Cursor → Option (List Char × Cursor)
  | 0, c => some ([], c)
  | fuel + 1, c =>
    match c.rest with
    | [] => some ([], c)
    | x :: _ =>
      if ¬ ok x then some ([], c)
      else do
        let (x, n) ← if x = '%' then escape c.rest else some (x, 1)
        (chars ok fuel (c.advance n)).map fun r => (x :: r.1, r.2)

/-- A handle: a mark, and perhaps a word and a second mark. -/
def handle? (c : Cursor) : Option (List Char × Cursor) :=
  match c.rest with
  | '!' :: cs =>
    let name := cs.takeWhile isWordChar
    let closing := ((cs.drop name.length).take 1).filter (· == '!')
    let handle := '!' :: name ++ closing
    some (handle, c.advance handle.length)
  | _ => none

/-- A handle has marks at both ends, unless it is just one mark. -/
def isClosed (handle : List Char) : Bool := 2 ≤ handle.length && handle.getLast? == some '!'

/-- The tag after its mark: as it is, in angle brackets, or with a handle. -/
def body (c : Cursor) : Option (Tag × Cursor) := do
  if (c.rest.drop 1).head? = some '<' then
    let (cs, c) ← chars isUriChar c.rest.length (c.advance 2)
    if c.rest.head? = some '>' then some (⟨"", String.ofList cs⟩, c.advance 1) else none
  else
    let (handle, c) ← handle? c
    let (cs, c) ← chars isTagChar c.rest.length c
    if isClosed handle then
      if cs = [] then none else some (⟨String.ofList handle, String.ofList cs⟩, c)
    else
      match handle.drop 1 ++ cs with
      | [] => some (⟨"", "!"⟩, c)
      | suffix => some (⟨"!", String.ofList suffix⟩, c)

/-- A tag, with what ends it after it. -/
def read (flow : Bool) (c : Cursor) : Option (Tag × Cursor) := do
  let (tag, c) ← body c
  if endsWord c.rest ∨ flow ∧ startsFlowMark c.rest then some (tag, c) else none

/-- The meaning of a handle in a directive. -/
def meaning? (c : Cursor) : Option (List Char × Cursor) :=
  match c.rest with
  | '!' :: _ => (chars isUriChar c.rest.length (c.advance 1)).map fun r => ('!' :: r.1, r.2)
  | x :: _ => if isTagChar x then chars isUriChar c.rest.length c else none
  | [] => none

/-! ## Meaning -/

/-- What stands in front of the tags of the core. -/
def core : String := "tag:yaml.org,2002:"

/-- The suffix of a tag of the core. Any other tag says that a scalar is text. A handle with two marks
    needs a directive, `!!` apart. -/
def coreName? (rule : Option (String × String)) (tag : Tag) : Option String :=
  let named (meaning : String) := some (if meaning = core then tag.suffix else "str")
  match (rule.filter (·.1 = tag.handle)).map (·.2) with
  | some meaning => named meaning
  | none =>
    if tag.handle = "!!" then named core
    else if isClosed tag.handle.toList then none
    else named tag.handle

end Tag

end LinkedData.Yaml
