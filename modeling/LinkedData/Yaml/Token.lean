/-
  LinkedData.Yaml.Token — the tokens of a YAML text.

  Tokens say where lists and tables begin and end, whether brackets say so or the layout. A
  table begins at its first key, which is known for one only when its colon comes: until then
  a key is possible, and its tokens are put in front of it afterwards.
-/

import LinkedData.Text.Digits
import LinkedData.Yaml.Scalar
import LinkedData.Yaml.Tag

namespace LinkedData.Yaml

inductive Token
  | version
  | rule (handle meaning : String)
  | documentStart
  | documentEnd
  /-- A list, as the layout has it. -/
  | sequenceStart
  /-- A table, as the layout has it. -/
  | mappingStart
  | blockEnd
  | flowSequenceStart
  | flowSequenceEnd
  | flowMappingStart
  | flowMappingEnd
  | entry
  | comma
  | key
  | value
  | reference (name : String)
  | anchor (name : String)
  | tag (t : Tag)
  | scalar (plain : Bool) (text : String)
  deriving DecidableEq

/-- A place where a key may begin. -/
structure PossibleKey where
  token : Nat
  place : Cursor
  /-- Nothing but a key may begin there. -/
  required : Bool

/-- An indentation. One that is not for a block holds what belongs to a key or to an item. -/
structure Level where
  column : Int
  isBlock : Bool

/-- What is open at a cursor. -/
structure Layout where
  cursor : Cursor
  tokens : Array Token
  /-- Where the newest token begins. -/
  newest : Nat
  /-- The indentations, the innermost first. -/
  levels : List Level
  /-- A key may begin here. -/
  keyAllowed : Bool
  possible : Option PossibleKey
  /-- The keys that were possible around each open bracket. -/
  outer : List (Option PossibleKey)
  /-- For each open list in brackets, whether a pair without braces is open in it. -/
  pairs : List Bool
  /-- A table in braces is open, or was since a pair without braces ended. -/
  braced : Bool
  /-- The place where a value may follow its colon without a blank. -/
  adjacent : Option Nat

namespace Layout

def start (s : String) : Layout :=
  ⟨.start (s.toList.takeWhile (· ≠ '\x00')), #[], 0, [], true, none, [], [], false, none⟩

/-- Something in brackets is open. -/
def flow (l : Layout) : Bool := !l.outer.isEmpty

/-- The innermost indentation. -/
def indent (l : Layout) : Int := (l.levels.head?.map (·.column)).getD (-1)

def column (l : Layout) : Int := l.cursor.column

def push (l : Layout) (t : Token) : Layout := { l with tokens := l.tokens.push t }

def insert (l : Layout) (i : Nat) (t : Token) : Layout := { l with tokens := l.tokens.insertIdxIfInBounds i t }

def at_ (l : Layout) (c : Cursor) : Layout := { l with cursor := c }

def skipComment? (l : Layout) : Option Layout := l.cursor.skipComment?.map l.at_

/-! ## Indentation -/

/-- Blocks that are indented more than a column end. -/
def unroll (column : Int) (l : Layout) : Layout :=
  if l.flow then l
  else
    let closed := l.levels.takeWhile (column < ·.column)
    { l with
      levels := l.levels.drop closed.length
      tokens := l.tokens ++ (closed.filter (·.isBlock)).map fun _ => Token.blockEnd }

/-- A block begins at a column, unless it is there already. -/
def roll (column : Int) (place : Nat) (t : Token) (l : Layout) : Layout :=
  if l.flow then l
  else
    let levels := match l.levels with
      | top :: more => if top.column ≤ column ∧ ¬ top.isBlock then more else l.levels
      | [] => []
    let l := { l with levels := levels }
    if l.indent < column then { l with levels := ⟨column, true⟩ :: levels }.insert place t else l

/-- What follows is indented by one more column at least. -/
def rollOne (l : Layout) : Layout :=
  match l.levels with
  | top :: _ => if ¬ l.flow ∧ top.isBlock then { l with levels := ⟨top.column + 1, false⟩ :: l.levels } else l
  | [] => l

def unrollOnes (l : Layout) : Layout := { l with levels := l.levels.dropWhile (!·.isBlock) }

/-! ## Keys -/

/-- A key may begin here. -/
def noteKey (l : Layout) : Layout :=
  if l.keyAllowed then
    let required := !l.flow && (l.levels.head?.map fun top => top.isBlock && top.column == l.column).getD false
    { l with possible := some ⟨l.tokens.size, l.cursor, required⟩ }
  else l

def isRequired (l : Layout) : Bool := (l.possible.map (·.required)).getD false

/-- No key began. -/
def dropKey (l : Layout) : Option Layout := if l.isRequired then none else some { l with possible := none }

def keyLimit : Nat := 1024

/-- Outside of brackets, a key has one line, and its colon comes soon. -/
def dropStale (l : Layout) : Option Layout :=
  match l.possible with
  | some k =>
    if ¬ l.flow ∧ (k.place.line < l.cursor.line ∨ k.place.index + keyLimit < l.cursor.index) then l.dropKey
    else some l
  | none => some l

/-- A pair without braces ends. -/
def endPair (l : Layout) : Layout :=
  match l.pairs with
  | true :: more => { l with braced := false, pairs := false :: more }.push .flowMappingEnd
  | _ => l

/-! ## White space -/

/-- White space and comments in front of a token. A tab is no indentation for a block. -/
def skipSpace : Nat → Layout → Option Layout
  | 0, l => some l
  | fuel + 1, l =>
    match l.cursor.rest with
    | [] => some l
    | c :: _ =>
      if isBreak c then skipSpace fuel { l with cursor := l.cursor.nextLine, keyAllowed := l.keyAllowed || !l.flow }
      else if c = '#' then skipSpace fuel (l.at_ (l.cursor.advance l.cursor.restOfLine.length))
      else if ¬ isBlank c then some l
      else if c = '\t' ∧ ¬ l.levels.isEmpty ∧ l.cursor.fresh ∧ l.column < l.indent then do
        let l ← l.skipComment?
        if endsLine l.cursor.rest then skipSpace fuel l else none
      else skipSpace fuel (l.at_ (l.cursor.pass 1))

def skip (l : Layout) : Option Layout := l.skipSpace l.cursor.rest.length

/-- Blanks, line ends and comments without tabs, after the mark of a key: there must be some. -/
def skipAfterKey : Nat → Layout → Layout
  | 0, l => l
  | fuel + 1, l =>
    match l.cursor.rest with
    | [] => l
    | c :: _ =>
      if isBreak c then
        skipAfterKey fuel { l with cursor := l.cursor.nextLine, keyAllowed := l.keyAllowed || !l.flow }
      else if c = ' ' then skipAfterKey fuel (l.at_ (l.cursor.pass 1))
      else if c = '#' then skipAfterKey fuel (l.at_ (l.cursor.advance l.cursor.restOfLine.length))
      else l

/-! ## Documents -/

def hasMarks (l : Layout) (t : Token) : Option Layout := do
  let l ← (l.unroll (-1)).dropKey
  some ({ l with keyAllowed := false, cursor := l.cursor.advance 3 }.push t)

def endDocument (l : Layout) : Option Layout := do
  let l ← (← l.hasMarks .documentEnd).skipComment?
  if endsLine l.cursor.rest then some l else none

def skipBlanks (c : Cursor) : Cursor := c.pass (c.rest.takeWhile isBlank).length

/-- A number of a version, which has up to nine digits. -/
def versionNumber (c : Cursor) : Option Cursor :=
  let width := (c.rest.takeWhile Char.isDigit).length
  if width = 0 ∨ 9 < width then none else some (c.advance width)

def version (c : Cursor) : Option (Token × Cursor) := do
  let c ← versionNumber (skipBlanks c)
  if c.rest.head? = some '.' then (versionNumber (c.advance 1)).map (.version, ·) else none

def rule (c : Cursor) : Option (Token × Cursor) := do
  let (handle, c) ← Tag.handle? (skipBlanks c)
  if ¬ Tag.isClosed handle ∧ handle ≠ ['!'] then none
  let (meaning, c) ← Tag.meaning? (skipBlanks c)
  if endsWord c.rest then some (.rule (String.ofList handle) (String.ofList meaning), c) else none

/-- A directive; one without a meaning is for no handle. -/
def directive (l : Layout) : Option Layout := do
  let l ← (l.unroll (-1)).dropKey
  let c := l.cursor.advance 1
  let name := c.rest.takeWhile isWordChar
  let c := c.advance name.length
  if name = [] ∨ ¬ endsWord c.rest then none
  let (t, c) ←
    if name = "YAML".toList then version c
    else if name = "TAG".toList then rule c
    else some (.rule "" "", c.advance c.restOfLine.length)
  let c ← c.skipComment?
  if ¬ endsLine c.rest then none
  some ({ l with keyAllowed := false, cursor := if c.rest = [] then c else c.nextLine }.push t)

/-! ## Brackets -/

/-- How deep brackets may be nested. -/
def flowLimit : Nat := 255

def openFlow (t : Token) (l : Layout) : Option Layout := do
  let l := l.noteKey.rollOne
  if l.outer.length = flowLimit then none
  let l := { l with outer := l.possible :: l.outer, possible := none, keyAllowed := true }
  let l := if t = .flowMappingStart then { l with braced := true } else { l with pairs := false :: l.pairs }
  return (← (l.at_ (l.cursor.advance 1)).skipComment?).push t

def closeFlow (t : Token) (l : Layout) : Option Layout := do
  let l ← l.dropKey
  let l := { l with possible := l.outer.head?.getD none, outer := l.outer.drop 1, keyAllowed := false }
  let l := if t = .flowSequenceEnd then { l.endPair with pairs := l.endPair.pairs.drop 1 } else l
  let l ← (l.at_ (l.cursor.advance 1)).skipComment?
  return { l with adjacent := if l.flow then some l.cursor.index else l.adjacent }.push t

def comma (l : Layout) : Option Layout := do
  let l ← l.dropKey
  let l := { l with keyAllowed := true }.endPair
  return (← (l.at_ (l.cursor.advance 1)).skipComment?).push .comma

/-! ## Blocks -/

/-- The newest token is the tag or the anchor of a node, at the beginning of its line. -/
def hasLooseMark (l : Layout) : Bool :=
  l.newest == 0 && match l.tokens.back? with
    | some (.anchor _) | some (.tag _) => true
    | _ => false

def entry (l : Layout) : Option Layout := do
  if l.flow ∨ ¬ l.keyAllowed ∨ l.hasLooseMark ∧ l.column = 0 ∧ -1 < l.indent then none
  let after := l.cursor.advance 1
  let tabs := (after.rest.takeWhile isBlank).contains '\t'
  let l := l.roll l.column l.tokens.size .sequenceStart
  let l ← (l.at_ after).skipComment?
  if tabs ∧ l.cursor.rest.head? = some '-' ∧ endsWord (l.cursor.rest.drop 1) then none
  let l := if startsFlowMark l.cursor.rest ∨ l.cursor.rest ≠ [] ∧ endsLine l.cursor.rest then l.rollOne else l
  let l ← l.dropKey
  return { l with keyAllowed := true }.push .entry

def key (l : Layout) : Option Layout := do
  if ¬ l.flow ∧ ¬ l.keyAllowed then none
  let l := if l.flow then { l with braced := true } else l.roll l.column l.tokens.size .mappingStart
  let l ← l.dropKey
  let after := { l with keyAllowed := !l.flow, cursor := l.cursor.advance 1 }
  let l := after.skipAfterKey after.cursor.rest.length
  if l.cursor.index = after.cursor.index ∨ l.cursor.rest.head? = some '\t' then none
  return l.push .key

/-- After a colon and tabs, without a space, no word of letters and no item may follow. -/
def afterColon? (c : Cursor) : Option Cursor :=
  let blanks := c.rest.takeWhile isBlank
  if blanks.head? = some '\t' then
    c.skipComment?.filter fun after =>
      blanks.contains ' ' || !((after.rest.head?.map isWordChar).getD false)
  else some c

/-- A value after its colon. Its key is the one that was possible, or came after its own mark. -/
def value (l : Layout) : Option Layout := do
  let lone := !l.pairs.isEmpty && !l.braced
  let l := if lone then { l with pairs := true :: l.pairs.drop 1 } else l
  let colon := l.cursor
  let l := l.at_ (← afterColon? (l.cursor.advance 1))
  match l.possible with
  | some k =>
    if lone ∧ k.place.line < colon.line then none
    let l := l.insert k.token .key
    let l := if lone then l.insert k.token .flowMappingStart else l
    let l := (l.roll k.place.column k.token .mappingStart).rollOne
    return { l with possible := none, keyAllowed := false }.push .value
  | none =>
    let l := if lone then l.push .flowMappingStart else l
    if ¬ l.flow ∧ ¬ l.keyAllowed then none
    let l := (l.roll colon.column l.tokens.size .mappingStart).rollOne
    return { l with keyAllowed := !l.flow }.push .value

/-! ## Nodes -/

def isAnchorChar (c : Char) : Bool := !isBlank c && !isBreak c && !isFlowMark c && c ≠ '\ufeff'

/-- An anchor, or a reference to one. -/
def name (t : String → Token) (l : Layout) : Option Layout :=
  let l := { l.noteKey with keyAllowed := false }
  match (l.cursor.rest.drop 1).takeWhile isAnchorChar with
  | [] => none
  | cs => some ((l.at_ (l.cursor.advance (1 + cs.length))).push (t (String.ofList cs)))

def tag (l : Layout) : Option Layout := do
  let l := { l.noteKey with keyAllowed := false }
  let (t, c) ← Tag.read l.flow l.cursor
  return (l.at_ c).push (.tag t)

def plain (l : Layout) : Option Layout := do
  let l := l.noteKey.unrollOnes
  let (text, c) ← Yaml.plain l.flow (l.indent + 1) l.cursor
  return { l with cursor := c, keyAllowed := c.fresh }.push (.scalar true (String.ofList text))

def quoted (quote : Char) (l : Layout) : Option Layout := do
  let l := { l.noteKey with keyAllowed := false }
  let (text, c) ← Yaml.quoted l.flow l.indent quote l.cursor
  let l ← (l.at_ c).skip
  return { l with adjacent := some l.cursor.index }.push (.scalar false (String.ofList text))

def block (literal : Bool) (l : Layout) : Option Layout := do
  let l := { l.noteKey.unrollOnes with keyAllowed := true }
  let (text, c) ← Yaml.block literal l.indent l.cursor
  return (l.at_ c).push (.scalar false (String.ofList text))

/-! ## Tokens -/

/-- The token at a cursor. -/
def node (l : Layout) (c : Char) (cs : List Char) : Option Layout :=
  match c with
  | '[' => l.openFlow .flowSequenceStart
  | '\x7b' => l.openFlow .flowMappingStart
  | ']' => l.closeFlow .flowSequenceEnd
  | '\x7d' => l.closeFlow .flowMappingEnd
  | ',' => l.comma
  | '*' => l.name .reference
  | '&' => l.name .anchor
  | '!' => l.tag
  | '\'' | '"' => l.quoted c
  | '%' | '@' | '\x60' => none
  | '-' => if endsWord cs then l.entry else l.plain
  | '?' => if endsWord cs then l.key else l.plain
  | ':' =>
    if endsWord cs ∨ l.flow ∧ (startsFlowMark cs ∨ l.adjacent = some l.cursor.index) then l.value else l.plain
  | '|' => if l.flow then l.plain else l.block true
  | '>' => if l.flow then l.plain else l.block false
  | _ => l.plain

/-- The next token, or the end of a text. -/
def step (l : Layout) : Option Layout := do
  let l ← (← l.skip).dropStale
  let l := l.unroll l.column
  match l.cursor.rest with
  | [] => (l.unroll (-1)).dropKey
  | c :: cs =>
    let next ←
      if l.column = 0 ∧ c = '%' then l.directive
      else if l.cursor.isAt '-' then l.hasMarks .documentStart
      else if l.cursor.isAt '.' then l.endDocument
      else if l.column < l.indent then none
      else l.node c cs
    return { next with newest := l.cursor.column }

/-- Token after token; `fuel` is more than the number of characters. -/
def run : Nat → Layout → Option Layout
  | 0, _ => none
  | fuel + 1, l => if l.cursor.rest = [] then l.step else l.step.bind (run fuel)

end Layout

/-- The tokens of a text; nothing if it is no YAML text. -/
def Token.ofText? (s : String) : Option (List Token) :=
  let l := Layout.start s
  (l.run (l.cursor.rest.length + 1)).map (·.tokens.toList)

end LinkedData.Yaml
