/-
  LinkedData.Yaml.Cursor — a place in a YAML text: what follows it, and its line and column.

  YAML gives columns a meaning, so that a place is more than what follows it.
-/

namespace LinkedData.Yaml

def isBreak (c : Char) : Bool := c == '\n' || c == '\r'

def isBlank (c : Char) : Bool := c == ' ' || c == '\t'

/-- Characters that stand for something within brackets. -/
def isFlowMark (c : Char) : Bool := [',', '[', ']', '\x7b', '\x7d'].contains c

/-- A line ends here, or the text. -/
def endsLine : List Char → Bool
  | [] => true
  | c :: _ => isBreak c

/-- A word cannot go on here. -/
def endsWord : List Char → Bool
  | [] => true
  | c :: _ => isBlank c || isBreak c

def startsFlowMark : List Char → Bool
  | [] => false
  | c :: _ => isFlowMark c

structure Cursor where
  rest : List Char
  index : Nat
  line : Nat
  column : Nat
  /-- Only blanks come before, on the line. -/
  fresh : Bool

namespace Cursor

/-- The beginning of a text. -/
def start (cs : List Char) : Cursor := ⟨cs, 0, 0, 0, true⟩

/-- Over `n` blanks. -/
def pass (c : Cursor) (n : Nat) : Cursor := ⟨c.rest.drop n, c.index + n, c.line, c.column + n, c.fresh⟩

/-- Over `n` characters that are not all blanks. -/
def advance (c : Cursor) (n : Nat) : Cursor := { c.pass n with fresh := false }

/-- Over a line end. -/
def nextLine (c : Cursor) : Cursor :=
  let n := match c.rest with
    | '\r' :: '\n' :: _ => 2
    | _ => 1
  ⟨c.rest.drop n, c.index + n, c.line + 1, 0, true⟩

/-- What is up to the line end. -/
def restOfLine (c : Cursor) : List Char := c.rest.takeWhile (!isBreak ·)

/-- A mark of three characters stands alone at the beginning of a line. -/
def isAt (c : Cursor) (mark : Char) : Bool :=
  c.column == 0 && [mark, mark, mark].isPrefixOf c.rest && endsWord (c.rest.drop 3)

/-- A document begins or ends here. -/
def isAtEdge (c : Cursor) : Bool := c.isAt '-' || c.isAt '.'

/-- Over blanks and a comment. A comment needs a blank in front of it. -/
def skipComment? (c : Cursor) : Option Cursor :=
  let blanks := (c.rest.takeWhile isBlank).length
  let after := c.pass blanks
  match after.rest with
  | '#' :: _ => if blanks = 0 then none else some (after.advance after.restOfLine.length)
  | _ => some after

end Cursor

end LinkedData.Yaml
