/-
  LinkedData.Json.Reader — JSON documents, read into settings.

  A document is one value with blanks around it. Text is read in two steps: first its
  characters, those given by number apart, and then two numbers that are halves of one
  character put together.
-/

import LinkedData.Hex
import LinkedData.Json.Number

namespace LinkedData.Json.Reader

def isSpace (c : Char) : Bool := c == ' ' || c == '\t' || c == '\n' || c == '\r'

def skip (cs : List Char) : List Char := cs.dropWhile isSpace

/-! ## Text -/

/-- A character as it stands, or the number of one or of half of one. -/
abbrev Piece := Char ⊕ Nat

def escaped? : Char → Option Char
  | '"' => some '"'
  | '\\' => some '\\'
  | '/' => some '/'
  | 'b' => some '\x08'
  | 'f' => some '\x0c'
  | 'n' => some '\n'
  | 'r' => some '\r'
  | 't' => some '\t'
  | _ => none

/-- The pieces up to the closing quote, and what follows it. Control characters are always escaped. -/
def pieces : List Char → Option (List Piece × List Char)
  | [] => none
  | '"' :: cs => some ([], cs)
  | '\\' :: 'u' :: a :: b :: c :: d :: cs => do
    let n ← Hex.value? [a, b, c, d]
    (pieces cs).map fun r => (.inr n :: r.1, r.2)
  | '\\' :: c :: cs => do
    let x ← escaped? c
    (pieces cs).map fun r => (.inl x :: r.1, r.2)
  | c :: cs => if c.toNat < 0x20 then none else (pieces cs).map fun r => (.inl c :: r.1, r.2)

def isHigh (n : Nat) : Bool := 0xD800 ≤ n && n < 0xDC00

def isLow (n : Nat) : Bool := 0xDC00 ≤ n && n < 0xE000

/-- The characters of some pieces; a half has to stand before its other half. -/
def join : List Piece → Option (List Char)
  | [] => some []
  | .inl c :: ps => (join ps).map (c :: ·)
  | .inr n :: ps =>
    if isHigh n then
      match ps with
      | .inr m :: ps =>
        if isLow m then (join ps).map (Char.ofNat (0x10000 + 0x400 * (n - 0xD800) + (m - 0xDC00)) :: ·) else none
      | _ => none
    else if isLow n then none
    else (join ps).map (Char.ofNat n :: ·)

def text (cs : List Char) : Option (String × List Char) := do
  let (ps, rest) ← pieces cs
  some (String.ofList (← join ps), rest)

/-! ## Values -/

/-- How deep values may be nested. -/
def depthLimit : Nat := 128

def word? (cs : List Char) : Option Setting :=
  if cs = "true".toList then some (.flag true)
  else if cs = "false".toList then some (.flag false)
  else if cs = "null".toList then some .nothing
  else number? cs

def wordChar (c : Char) : Bool := c.isAlphanum || ['+', '-', '.'].contains c

/-! Every reader below takes `fuel`, at least the number of characters that remain, and the
    `depth` of the value around it. -/

mutual

def value (fuel depth : Nat) (cs : List Char) : Option (Setting × List Char) :=
  match fuel, skip cs with
  | fuel + 1, '[' :: cs =>
    if depthLimit ≤ depth + 1 then none
    else match skip cs with
      | ']' :: cs => some (.list [], cs)
      | cs => items fuel (depth + 1) [] cs
  | fuel + 1, '\x7b' :: cs =>
    if depthLimit ≤ depth + 1 then none
    else match skip cs with
      | '\x7d' :: cs => some (.table [], cs)
      | cs => fields fuel (depth + 1) [] cs
  | _ + 1, '"' :: cs => (text cs).map fun t => (.text t.1, t.2)
  | _ + 1, cs => (word? (cs.takeWhile wordChar)).map (·, cs.dropWhile wordChar)
  | 0, _ => none

/-- The items of a list after those in `done`, last one first, and its closing bracket. -/
def items (fuel depth : Nat) (done : List Setting) (cs : List Char) : Option (Setting × List Char) :=
  match fuel with
  | 0 => none
  | fuel + 1 => do
    let (v, cs) ← value fuel depth cs
    match skip cs with
    | ',' :: cs => items fuel depth (v :: done) cs
    | ']' :: cs => some (.list (v :: done).reverse, cs)
    | _ => none

/-- The fields of an object after those in `done`, and its closing brace. -/
def fields (fuel depth : Nat) (done : List (String × Setting)) (cs : List Char) : Option (Setting × List Char) :=
  match fuel, skip cs with
  | fuel + 1, '"' :: cs => do
    let (name, cs) ← text cs
    match skip cs with
    | ':' :: cs =>
      let (v, cs) ← value fuel depth cs
      match skip cs with
      | ',' :: cs => fields fuel depth (Setting.assign name v done) cs
      | '\x7d' :: cs => some (.table (Setting.assign name v done), cs)
      | _ => none
    | _ => none
  | _, _ => none

end

/-- The settings of a document; nothing when it is no JSON document, or no object. -/
def parse (s : String) : Option (List (String × Setting)) :=
  match value (s.toList.length + 1) 0 s.toList with
  | some (.table fs, rest) => if skip rest = [] then some fs else none
  | _ => none

end LinkedData.Json.Reader
