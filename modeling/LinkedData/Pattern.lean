/-
  LinkedData.Pattern — patterns of text, and which of them can be used.

  A pattern is made of characters, sets of characters and positions, one after another, one
  or another, or over and over. `Pattern.survey` goes through it in the order in which it is
  written, with the modes that hold there: whether case matters, and whether text is taken for
  characters or for bytes. What would need tables of all characters cannot be used in the mode
  of characters, what could match half a character cannot be used in the mode of bytes.
-/

namespace LinkedData

/-- A character, and whether it is written as a byte. -/
structure PatternChar where
  char : Char
  byte : Bool
  deriving DecidableEq, Repr

/-- A set of characters, as it is written between brackets. -/
inductive CharSet
  | char (c : PatternChar)
  | range (first last : PatternChar)
  /-- A class of ASCII characters, or of all that do not belong to it. -/
  | named (negated : Bool)
  /-- Digits, blanks or letters of words, or all that are none. -/
  | kind (negated : Bool)
  | property
  | nested (negated : Bool) (set : CharSet)
  | union (sets : List CharSet)
  /-- What belongs to both, to the first only, or to one of them only. -/
  | combined (a b : CharSet)

/-- A mode and whether it is switched on or off. -/
abbrev ModeChange := Char × Bool

inductive Pattern
  | empty
  | char (c : PatternChar)
  /-- Any character. -/
  | any
  | set (negated : Bool) (s : CharSet)
  | kind (negated : Bool)
  | property
  /-- The start or the end of a line or of the text. -/
  | position
  /-- The start or the end of a word, or neither. -/
  | wordEdge
  /-- Modes from here on, up to the end of the group around. -/
  | modes (changes : List ModeChange)
  | group (name : Option String) (changes : List ModeChange) (p : Pattern)
  | repeated (p : Pattern)
  | sequence (ps : List Pattern)
  | choice (ps : List Pattern)

/-! ## Depth -/

/-- How deep sets and patterns may be nested. -/
def Pattern.depthLimit : Nat := 250

namespace CharSet

/-- A union of one set is that set. -/
def ofItems : List CharSet → CharSet
  | [s] => s
  | ss => union ss

mutual

def depth : CharSet → Nat
  | nested _ s => s.depth + 1
  | union [] => 0
  | union ss => depths ss + 1
  | combined a b => max a.depth b.depth + 1
  | _ => 0

def depths : List CharSet → Nat
  | [] => 0
  | s :: ss => max s.depth (depths ss)

end

end CharSet

namespace Pattern

/-- A sequence of one pattern is that pattern. -/
def ofSequence : List Pattern → Pattern
  | [] => empty
  | [p] => p
  | ps => sequence ps

def ofChoice : List Pattern → Pattern
  | [p] => p
  | ps => choice ps

mutual

def depth : Pattern → Nat
  | set _ s => s.depth + 1
  | group _ _ p | repeated p => p.depth + 1
  | sequence ps | choice ps => depths ps + 1
  | _ => 0

def depths : List Pattern → Nat
  | [] => 0
  | p :: ps => max p.depth (depths ps)

end

/-! ## Names of groups -/

mutual

def names : Pattern → List String
  | group name _ p => name.toList ++ p.names
  | repeated p => p.names
  | sequence ps | choice ps => allNames ps
  | _ => []

def allNames : List Pattern → List String
  | [] => []
  | p :: ps => p.names ++ allNames ps

end

/-! ## Modes -/

structure Modes where
  ignoresCase : Bool
  /-- Text is characters, not bytes. -/
  characters : Bool

/-- The modes that hold at first. -/
def Modes.initial : Modes := ⟨false, true⟩

def Modes.change (m : Modes) (changes : List ModeChange) : Modes :=
  ⟨(changes.lookup 'i').getD m.ignoresCase, (changes.lookup 'u').getD m.characters⟩

/-- A character that is one byte, in the mode of bytes. -/
def isNarrow (c : PatternChar) : Bool := c.char.toNat < 0x80

mutual

/-- A set can be used. -/
def allowsSet (m : Modes) : CharSet → Bool
  | .char c => if m.characters then !m.ignoresCase else isNarrow c
  | .range a b => if m.characters then !m.ignoresCase else isNarrow a && isNarrow b
  | .named negated => if m.characters then !m.ignoresCase else !negated
  | .kind negated => !m.characters && !negated
  | .property => false
  | .nested negated s => (m.characters || !negated) && allowsSet m s
  | .union ss => allowsSets m ss
  | .combined a b => allowsSet m a && allowsSet m b

def allowsSets (m : Modes) : List CharSet → Bool
  | [] => true
  | s :: ss => allowsSet m s && allowsSets m ss

end

/-- What was met so far: the modes at this place, and whether there was the edge of a word in the mode
    of characters. -/
structure Survey where
  modes : Modes
  wordEdges : Bool

mutual

/-- Go through a pattern; nothing if it cannot be used. -/
def survey (s : Survey) : Pattern → Option Survey
  | empty | position => some s
  | char c =>
    if s.modes.characters then if s.modes.ignoresCase then none else some s
    else if c.byte ∧ ¬ isNarrow c then none else some s
  | any => if s.modes.characters then some s else none
  | set negated cs => if allowsSet s.modes (.nested negated cs) then some s else none
  | kind negated => if allowsSet s.modes (.kind negated) then some s else none
  | property => none
  | wordEdge => some { s with wordEdges := s.wordEdges || s.modes.characters }
  | modes changes => some { s with modes := s.modes.change changes }
  | group _ changes p => (survey { s with modes := s.modes.change changes } p).map fun t => { t with modes := s.modes }
  | repeated p => survey s p
  | sequence ps | choice ps => surveyAll s ps

def surveyAll (s : Survey) : List Pattern → Option Survey
  | [] => some s
  | p :: ps => (survey s p).bind (surveyAll · ps)

end

/-! ## Faults -/

inductive Fault
  /-- It is no pattern, or nothing is known of the characters that it names. -/
  | form
  /-- It asks for the edges of words in the mode of characters. -/
  | wordEdge
  deriving DecidableEq, Repr

def Fault.message : Fault → String
  | form => "error building NFA"
  | wordEdge => "unsupported regex feature for DFAs: cannot build DFAs for regexes with Unicode word boundaries; " ++
      "switch to ASCII word boundaries, or heuristically enable Unicode word boundaries or use a different regex engine"

/-- Why a pattern cannot be used, if it cannot. -/
def fault? (p : Pattern) : Option Fault :=
  if depthLimit < p.depth ∨ ¬ p.names.Nodup then some .form
  else match p.survey ⟨.initial, false⟩ with
    | none => some .form
    | some s => if s.wordEdges then some .wordEdge else none

end Pattern

end LinkedData
