/-
  LinkedData.Ini — INI documents, read into settings.

  A document has pairs of a key and a value, and headers in brackets; the pairs after a header
  belong to the table that it names. Every value is text. A backslash gives the character
  after it a meaning, or joins two lines. A comment has its line to itself.
-/

import LinkedData.Hex
import LinkedData.Settings
import LinkedData.Text.Blank

namespace LinkedData.Ini

/-! ## Text -/

/-- Characters that have names. -/
def specials : List (Char × Char) :=
  [('0', '\x00'), ('a', '\x07'), ('b', '\x08'), ('t', '\t'), ('r', '\r'), ('n', '\n')]

/-- The character of a number in hexadecimal, which may begin with a plus sign. -/
def numbered? (cs : List Char) : Option Char := do
  let n ← Hex.value? (match cs with
    | '+' :: ds => ds
    | ds => ds)
  if h : n.isValidChar then some (Char.ofNatAux n h) else none

/-- The text up to a character where it ends, and the rest from there on. Only `open_` text may end with
    the document. -/
def textUntil (ends : Char → Bool) (open_ : Bool) : List Char → Option (List Char × List Char)
  | [] => if open_ then some ([], []) else none
  | '\\' :: 'x' :: a :: b :: c :: d :: cs => do
    let x ← numbered? [a, b, c, d]
    (textUntil ends open_ cs).map fun r => (x :: r.1, r.2)
  | '\\' :: '\n' :: cs => textUntil ends open_ cs
  | '\\' :: c :: cs =>
    if c = 'x' then none else (textUntil ends open_ cs).map fun r => ((specials.lookup c).getD c :: r.1, r.2)
  | '\\' :: [] => none
  | c :: cs => if ends c then some ([], c :: cs) else (textUntil ends open_ cs).map fun r => (c :: r.1, r.2)

def isLineEnd (c : Char) : Bool := c == '\n' || c == '\r'

/-- The text up to the end of its line. The end of the document ends a line, too. -/
def line (cs : List Char) : Option (List Char × List Char) := textUntil isLineEnd true cs

def trimmed (cs : List Char) : String := String.ofList (Text.trim cs)

/-! ## Parts of a document -/

/-- A value after its mark. What is in quotes may go on over line ends, and what follows the closing
    quote belongs to the value. -/
def value (cs : List Char) : Option (String × List Char) :=
  match cs.dropWhile fun c => Text.isBlank c && !isLineEnd c with
  | c :: cs =>
    if c = '"' ∨ c = '\'' then do
      let (quoted, rest) ← textUntil (· == c) false cs
      let (more, rest) ← line (rest.drop 1)
      some (trimmed (quoted ++ more), rest)
    else (line (c :: cs)).map fun r => (trimmed r.1, r.2)
  | [] => some ("", [])

def isMark (c : Char) : Bool := c == '=' || c == ':'

/-- A key, with its mark. -/
def key (cs : List Char) : Option (String × List Char) := do
  let (text, rest) ← textUntil isMark false cs
  if trimmed text = "" then none else some (trimmed text, rest.drop 1)

/-- A header after its opening bracket. -/
def header (cs : List Char) : Option (String × List Char) :=
  (textUntil (· == ']') false cs).map fun r => (trimmed r.1, r.2.drop 1)

/-! ## Documents -/

/-- What was read so far, and the table that pairs belong to. -/
structure Document where
  fields : List (String × Setting)
  table : Option String

namespace Document

def empty : Document := ⟨[], none⟩

/-- A table takes the place of whatever had its name before. -/
def openTable (d : Document) (name : String) : Document := ⟨Setting.assign name (.table []) d.fields, some name⟩

def addPair (d : Document) (key value : String) : Document :=
  match d.table with
  | none => { d with fields := Setting.assign key (.text value) d.fields }
  | some name =>
    let inner := ((d.fields.lookup name).getD (.table [])).fields
    { d with fields := Setting.assign name (.table (Setting.assign key (.text value) inner)) d.fields }

end Document

/-- Skip blanks; `start` says whether a line starts here, and then whether one starts after them. -/
def skipBlanks (start : Bool) : List Char → Bool × List Char
  | [] => (start, [])
  | c :: cs => if Text.isBlank c then skipBlanks (c == '\n') cs else (start, c :: cs)

/-- Part after part; `fuel` is more than the number of characters. -/
def parts : Nat → Document → Bool → List Char → Option Document
  | 0, _, _, _ => none
  | fuel + 1, d, start, cs =>
    match skipBlanks start cs with
    | (_, []) => some d
    | (start, c :: cs) =>
      if c = ';' ∨ c = '#' then
        if start then parts fuel d false (cs.dropWhile (· ≠ '\n')) else none
      else if c = '[' then do
        let (name, rest) ← header cs
        parts fuel (d.openTable name) false rest
      else do
        let (key, rest) ← key (c :: cs)
        let (value, rest) ← value rest
        parts fuel (d.addPair key value) false rest

/-- The settings of a document; nothing when it is no INI document. -/
def parse (s : String) : Option (List (String × Setting)) :=
  (parts (s.toList.length + 1) .empty true s.toList).map (·.fields)

end LinkedData.Ini
