/-
  LinkedData.Yaml.Scalar — the text of scalars: plain ones, quoted ones, and blocks of lines.

  A scalar may go on over lines. Plain and quoted ones are folded: a line end counts as a space,
  and empty lines count as line ends. In a block, `|` keeps the lines as they are and `>` folds
  them. The indentation says where a scalar ends.
-/

import LinkedData.Hex
import LinkedData.Yaml.Cursor

namespace LinkedData.Yaml

/-! ## White space between words -/

/-- White space: the blanks in front of its first line end, and the number of its line ends. -/
structure Gap where
  blanks : List Char
  breaks : Nat

namespace Gap

/-- What white space between two words counts as. -/
def text (g : Gap) : List Char :=
  match g.breaks with
  | 0 => g.blanks
  | 1 => [' ']
  | n + 1 => List.replicate n '\n'

/-- The white space at a cursor; `onTab` says what is to be done with a tab that may be indentation,
    and `fuel` is at least the number of characters. A line that has a comment does not count. -/
def read (onTab : Cursor → Option Cursor) : Nat → Gap → Cursor → Option (Gap × Cursor)
  | 0, g, c => some (g, c)
  | fuel + 1, g, c =>
    match c.rest with
    | [] => some (g, c)
    | x :: _ =>
      if isBreak x then read onTab fuel { g with breaks := if c.fresh then g.breaks + 1 else max g.breaks 1 } c.nextLine
      else if ¬ isBlank x then some (g, c)
      else if ¬ c.fresh then read onTab fuel { g with blanks := g.blanks ++ [x] } (c.pass 1)
      else if x = '\t' then (onTab c).bind (read onTab fuel g)
      else read onTab fuel g (c.pass 1)

end Gap

/-! ## Plain scalars -/

/-- A word of a plain scalar. -/
def word (flow : Bool) : List Char → List Char
  | [] => []
  | x :: cs =>
    if endsWord (x :: cs) ∨ flow ∧ isFlowMark x ∨ x = ':' ∧ (endsWord cs ∨ flow ∧ startsFlowMark cs) then []
    else x :: word flow cs

/-- A tab is no indentation, but on an empty line it does no harm. -/
def plainTab (indent : Int) (c : Cursor) : Option Cursor :=
  if (c.column : Int) < indent then c.skipComment?.filter (endsLine ·.rest) else some (c.pass 1)

/-- Words with white space between them, on lines with at least `indent` columns in front. `before` is
    what stands for the white space in front of the first word, and `fuel` is more than the number of
    characters. -/
def words (flow : Bool) (indent : Int) : Nat → List Char → Cursor → Option (List Char × Cursor)
  | 0, _, c => some ([], c)
  | fuel + 1, before, c =>
    if c.isAtEdge ∨ c.rest.head? = some '#' then some ([], c)
    else if flow ∧ c.rest.head? = some '-' ∧ startsFlowMark (c.rest.drop 1) then none
    else match word flow c.rest with
      | [] => some ([], c)
      | w => do
        let after := c.advance w.length
        let (gap, next) ← Gap.read (plainTab indent) fuel ⟨[], 0⟩ after
        if after.rest = [] ∨ ¬ endsWord after.rest ∨ ¬ flow ∧ (next.column : Int) < indent then
          some (before ++ w, next)
        else
          let (more, last) ← words flow indent fuel gap.text next
          some (before ++ w ++ more, last)

/-- A plain scalar. It has a word. -/
def plain (flow : Bool) (indent : Int) (c : Cursor) : Option (List Char × Cursor) :=
  if flow ∧ (c.column : Int) < indent then none
  else (words flow indent (c.rest.length + 1) [] c).filter (·.1 ≠ [])

/-! ## Quoted scalars -/

def specials : List (Char × Char) :=
  [('0', '\x00'), ('a', '\x07'), ('b', '\x08'), ('t', '\t'), ('\t', '\t'), ('n', '\n'), ('v', '\x0b'),
    ('f', '\x0c'), ('r', '\r'), ('e', '\x1b'), (' ', ' '), ('"', '"'), ('/', '/'), ('\\', '\\'),
    ('N', '\u0085'), ('_', '\u00a0'), ('L', '\u2028'), ('P', '\u2029')]

/-- Marks for the number of a character, and how many hexadecimal digits it has. -/
def numberMarks : List (Char × Nat) := [('x', 2), ('u', 4), ('U', 8)]

/-- The character that a backslash and what follows it stand for, and the number of characters for it. -/
def escape : List Char → Option (Char × Nat)
  | [] => none
  | c :: cs =>
    match numberMarks.lookup c with
    | some width => do
      if cs.length < width then none
      let n ← Hex.value? (cs.take width)
      if h : n.isValidChar then some (Char.ofNatAux n h, width + 2) else none
    | none => (specials.lookup c).map (·, 2)

/-- The end of a piece of a quoted scalar. -/
inductive Stop
  | quote
  /-- White space, or the end of the text. -/
  | space
  /-- A line end that does not count. -/
  | joined

/-- A piece of a quoted scalar without white space. -/
def piece (quote : Char) : Nat → Cursor → Option (List Char × Stop × Cursor)
  | 0, c => some ([], .space, c)
  | fuel + 1, c =>
    let put (x : Char) (n : Nat) := (piece quote fuel (c.advance n)).map fun r => (x :: r.1, r.2)
    match c.rest with
    | [] => some ([], .space, c)
    | x :: cs =>
      if isBlank x ∨ isBreak x then some ([], .space, c)
      else if x = quote then
        if quote = '\'' ∧ cs.head? = some quote then put x 2 else some ([], .quote, c)
      else if x = '\\' ∧ quote = '"' then
        if cs ≠ [] ∧ endsLine cs then some ([], .joined, (c.advance 1).nextLine)
        else (escape cs).bind fun e => put e.1 e.2
      else put x 1

/-- A tab cannot be indentation. -/
def quotedTab (indent : Int) (c : Cursor) : Option Cursor :=
  if (c.column : Int) < indent then none else some (c.pass 1)

/-- Pieces with white space between them, up to the closing quote; `fuel` is more than the number of
    characters. -/
def pieces (quote : Char) (indent : Int) : Nat → Cursor → Option (List Char × Cursor)
  | 0, _ => none
  | fuel + 1, c => do
    if c.isAtEdge ∨ c.rest = [] ∨ (c.column : Int) < indent then none
    let (cs, stop, after) ← piece quote fuel c
    let next (white : Gap → List Char) : Option (List Char × Cursor) := do
      let (gap, next) ← Gap.read (quotedTab indent) fuel ⟨[], 0⟩ after
      let (more, last) ← pieces quote indent fuel next
      some (cs ++ white gap ++ more, last)
    match stop with
    | .quote => some (cs, after.advance 1)
    | .space => next Gap.text
    | .joined => next fun gap => List.replicate gap.breaks '\n'

/-- What may follow a quoted scalar that began on a line: the end of a line, what goes on in brackets, or
    the mark of a value, which outside of brackets has the key in its line. -/
def mayFollow (flow : Bool) (line : Nat) (c : Cursor) : Bool :=
  match c.rest with
  | [] => true
  | x :: _ =>
    isBreak x || flow && [',', '\x7d', ']'].contains x || x == ':' && (flow || line == c.line)

/-- A quoted scalar, with the comment after it. -/
def quoted (flow : Bool) (indent : Int) (quote : Char) (c : Cursor) : Option (List Char × Cursor) := do
  let (text, after) ← pieces quote indent (c.rest.length + 1) (c.advance 1)
  let after ← after.skipComment?
  if mayFollow flow c.line after then some (text, after) else none

/-! ## Blocks of lines -/

/-- Which of the line ends at its end belong to a block. -/
inductive Chomping
  | strip
  | clip
  | keep
  deriving DecidableEq

def chomping? : List Char → Option Chomping
  | '+' :: _ => some .keep
  | '-' :: _ => some .strip
  | _ => none

/-- Columns of a block beyond those around it; there must be some. -/
def increment? : List Char → Option (Option Nat)
  | '0' :: _ => none
  | c :: _ => some (if c.isDigit then some (c.toNat - '0'.toNat) else none)
  | [] => some none

/-- What stands after the mark of a block: its chomping and its columns, in any order. -/
def blockHeader (cs : List Char) : Option (Chomping × Option Nat × Nat) :=
  match chomping? cs with
  | some chomping => (increment? (cs.drop 1)).map fun i => (chomping, i, 1 + i.toList.length)
  | none => do
    let i ← increment? cs
    match i, chomping? (cs.drop 1) with
    | some _, some chomping => some (chomping, i, 2)
    | _, _ => some (.clip, i, i.toList.length)

/-- Over empty lines. They have at most `indent` blanks, if there is a limit. The number of the lines,
    and the greatest number of blanks. -/
def emptyLines (indent : Option Nat) : Nat → Nat × Nat → Cursor → (Nat × Nat) × Cursor
  | 0, r, c => (r, c)
  | fuel + 1, (breaks, width), c =>
    let spaces := (c.rest.takeWhile (· == ' ')).length
    let c := c.pass (match indent with
      | some n => min spaces (n - c.column)
      | none => spaces)
    let width := max width c.column
    if c.rest ≠ [] ∧ endsLine c.rest then emptyLines indent fuel (breaks + 1, width) c.nextLine
    else ((breaks, width), c)

def lineEnds (n : Nat) : List Char := List.replicate n '\n'

/-- How the lines of a block end: whether the last line ended, and the number of empty lines after it. -/
structure Ending where
  ended : Bool
  empty : Nat

/-- The lines of a block, which stand at a column, after what ends in front of them. Lines that begin
    with a blank are not folded; `fuel` is more than the number of characters. -/
def blockLines (literal : Bool) (indent : Nat) : Nat → Bool → Ending → Cursor → List Char × Ending × Cursor
  | 0, _, e, c => ([], e, c)
  | fuel + 1, afterBlank, e, c =>
    if c.column ≠ indent ∨ c.rest = [] then ([], e, c)
    else
      let blank := (c.rest.head?.map isBlank).getD false
      let white :=
        if literal ∨ ¬ e.ended ∨ afterBlank ∨ blank then lineEnds (e.ended.toNat + e.empty)
        else if e.empty = 0 then [' '] else lineEnds e.empty
      let text := white ++ c.restOfLine
      let after := c.advance c.restOfLine.length
      if after.rest = [] then (text, ⟨false, 0⟩, after)
      else
        let ((empty, _), next) := emptyLines (some indent) fuel (0, 0) after.nextLine
        let (more, last) := blockLines literal indent fuel blank ⟨true, empty⟩ next
        (text ++ more, last)

/-- What the end of a block adds to its lines. A text that ends within a line of the block ends the line. -/
def chomped (chomping : Chomping) (indent : Nat) (e : Ending) (c : Cursor) : List Char :=
  let last := e.ended.toNat + if c.rest = [] ∧ max indent 1 ≤ c.column then 1 else 0
  match chomping with
  | .strip => []
  | .clip => lineEnds last
  | .keep => lineEnds (last + e.empty)

/-- The text of a block without lines, at the end of a document. -/
def emptyBlock (chomping : Chomping) (headerEnded : Bool) (breaks : Nat) : List Char :=
  match chomping, headerEnded with
  | .strip, _ | _, false => []
  | .clip, true => lineEnds 1
  | .keep, true => lineEnds (max breaks 1)

/-- A block; `around` is the indentation around it. -/
def block (literal : Bool) (around : Int) (c : Cursor) : Option (List Char × Cursor) := do
  let (chomping, increment, width) ← blockHeader (c.rest.drop 1)
  let header ← (c.advance (1 + width)).skipComment?
  if ¬ endsLine header.rest then none
  let start := if header.rest = [] then header else header.nextLine
  if start.rest.head? = some '\t' then none
  let indent? := increment.map fun n => (max around 0).toNat + n
  let ((breaks, column), first) := emptyLines indent? start.rest.length (0, 0) start
  let indent := indent?.getD (max column (around + 1).toNat)
  if first.rest = [] then some (emptyBlock chomping (first.line ≠ c.line) breaks, first)
  else if first.column < indent ∧ around < first.column then none
  else
    let (text, ending, last) := blockLines literal indent (first.rest.length + 1) false ⟨false, breaks⟩ first
    some (text ++ chomped chomping indent ending last, last)

end LinkedData.Yaml
