/-
  LinkedData.Pattern.Reader — patterns, read.

  Some marks have a meaning, every other character stands for itself. In the mode of free
  writing, blanks and comments between the marks do not count. Every reader takes the
  characters that remain and gives back what it read with the rest, or nothing when the text
  is no pattern. The texts read here hold no closing brace, so whatever begins with an opening
  one is never finished.
-/

import LinkedData.Hex
import LinkedData.Pattern
import LinkedData.Text.Blank
import LinkedData.Text.Letter

namespace LinkedData.Pattern

/-- Blanks, and comments up to the end of their line. -/
def skipFree : Bool → List Char → List Char
  | _, [] => []
  | true, c :: cs => skipFree (c ≠ '\n') cs
  | false, c :: cs =>
    if Text.isBlank c then skipFree false cs
    else if c = '#' then skipFree true cs
    else c :: cs

/-- What does not count is skipped, if this is free writing. -/
def skip (free : Bool) (cs : List Char) : List Char := if free then skipFree false cs else cs

/-! ## Escapes -/

/-- Some hexadecimal digits, `count` of them. -/
def hexDigits? (free : Bool) : Nat → List Char → Option (List Char × List Char)
  | 0, cs => some ([], cs)
  | count + 1, cs =>
    match skip free cs with
    | c :: cs => if Hex.isDigit c then (hexDigits? free count cs).map fun r => (c :: r.1, r.2) else none
    | [] => none

def numbered? (free byte : Bool) (count : Nat) (cs : List Char) : Option (Pattern × List Char) := do
  let (ds, cs) ← hexDigits? free count cs
  let n ← Hex.value? ds
  if h : n.isValidChar then some (.char ⟨Char.ofNatAux n h, byte⟩, skip free cs) else none

/-- Characters that have names. -/
def specials : List (Char × Char) :=
  [('a', '\x07'), ('f', '\x0c'), ('t', '\t'), ('n', '\n'), ('r', '\r'), ('v', '\x0b')]

/-- ASCII characters that stand for themselves after a backslash. -/
def isPunctuation (c : Char) : Bool := c.toNat < 0x80 && !c.isAlphanum && c ≠ '<' && c ≠ '>'

/-- What a backslash and the characters after it stand for. -/
def escape (free : Bool) : List Char → Option (Pattern × List Char)
  | [] => none
  | c :: cs =>
    if isPunctuation c then some (.char ⟨c, false⟩, cs)
    else match specials.lookup c with
      | some x => some (.char ⟨x, false⟩, cs)
      | none =>
        if c = 'x' then numbered? free true 2 cs
        else if c = 'u' then numbered? free false 4 cs
        else if c = 'U' then numbered? free false 8 cs
        else if c = 'p' ∨ c = 'P' then
          match skip free cs with
          | x :: cs => if x = '\\' ∨ x = '\x7b' then none else some (.property, skip free cs)
          | [] => none
        else if ['d', 's', 'w'].contains c then some (.kind false, cs)
        else if ['D', 'S', 'W'].contains c then some (.kind true, cs)
        else if ['A', 'z'].contains c then some (.position, cs)
        else if ['b', 'B', '<', '>'].contains c then some (.wordEdge, cs)
        else none

/-! ## Sets -/

def classNames : List String :=
  ["alnum", "alpha", "ascii", "blank", "cntrl", "digit", "graph", "lower", "print", "punct", "space", "upper", "word",
    "xdigit"]

/-- A named class of ASCII characters, after its opening bracket: whether it is negated, and the rest. -/
def named? : List Char → Option (Bool × List Char)
  | ':' :: cs =>
    let (negated, cs) := match cs with
      | '^' :: cs => (true, cs)
      | cs => (false, cs)
    match cs.dropWhile (· ≠ ':') with
    | ':' :: ']' :: rest =>
      if classNames.contains (String.ofList (cs.takeWhile (· ≠ ':'))) then some (negated, rest) else none
    | _ => none
  | _ => none

/-- One character of a set, or what a backslash stands for. -/
def setItem (free : Bool) : List Char → Option (Pattern × List Char)
  | [] => none
  | '\\' :: cs => escape free cs
  | c :: cs => some (.char ⟨c, false⟩, cs)

/-- What can stand in a set on its own. -/
def setOf? : Pattern → Option CharSet
  | .char c => some (.char c)
  | .kind negated => some (.kind negated)
  | .property => some .property
  | _ => none

def rangeOf? : Pattern → Pattern → Option CharSet
  | .char a, .char b => if a.char ≤ b.char then some (.range a b) else none
  | _, _ => none

/-- An item of a set, or two with a dash between them. A dash before the closing bracket or before
    another dash stands for itself. -/
def setRange (free : Bool) (cs : List Char) : Option (CharSet × List Char) := do
  let (first, cs) ← setItem free cs
  let single := (setOf? first).map (·, skip free cs)
  match skip free cs with
  | '-' :: cs =>
    match skip free cs with
    | ']' :: _ | '-' :: _ => single
    | cs =>
      let (last, cs) ← setItem free cs
      (rangeOf? first last).map (·, cs)
  | _ => single

/-- Dashes at the beginning of a set stand for themselves, and so does a closing bracket there. The
    items come last one first; `fuel` is more than the number of characters. -/
def setStart (free : Bool) : Nat → List CharSet → List Char → List CharSet × List Char
  | 0, done, cs => (done, cs)
  | fuel + 1, done, cs =>
    match skip free cs with
    | '-' :: cs => setStart free fuel (.char ⟨'-', false⟩ :: done) cs
    | ']' :: cs => if done.isEmpty then ([.char ⟨']', false⟩], cs) else (done, ']' :: cs)
    | cs => (done, cs)

def withOperand (left : Option CharSet) (s : CharSet) : CharSet :=
  match left with
  | some l => .combined l s
  | none => s

mutual

/-- A set after its opening bracket; `fuel` is more than twice the number of characters. -/
def set_ (fuel : Nat) (free : Bool) (cs : List Char) : Option ((Bool × CharSet) × List Char) :=
  match fuel with
  | 0 => none
  | fuel + 1 =>
    let (negated, cs) := match skip free cs with
      | '^' :: cs => (true, skip free cs)
      | cs => (false, cs)
    let (done, cs) := setStart free (cs.length + 1) [] cs
    (setItems fuel free none done cs).map fun r => ((negated, r.1), r.2)

/-- The items of a set after those in `done`, last one first, and its closing bracket. What stands
    before an operation is in `left`. -/
def setItems (fuel : Nat) (free : Bool) (left : Option CharSet) (done : List CharSet) (cs : List Char) :
    Option (CharSet × List Char) :=
  match fuel with
  | 0 => none
  | fuel + 1 =>
    let soFar := withOperand left (.ofItems done.reverse)
    match skip free cs with
    | [] => none
    | ']' :: cs => some (soFar, cs)
    | '&' :: '&' :: cs | '-' :: '-' :: cs | '~' :: '~' :: cs => setItems fuel free (some soFar) [] cs
    | '[' :: cs =>
      match named? cs with
      | some (negated, cs) => setItems fuel free left (.named negated :: done) cs
      | none => do
        let ((negated, s), cs) ← set_ fuel free cs
        setItems fuel free left (.nested negated s :: done) cs
    | cs => do
      let (s, cs) ← setRange free cs
      setItems fuel free left (s :: done) cs

end

/-! ## Groups -/

/-- The name of a group begins with a letter or an underscore. -/
def startsName (c : Char) : Bool := c == '_' || Text.isLetterOrNumber c && !c.isDigit

def nameChar (c : Char) : Bool := ['_', '.', '[', ']'].contains c || Text.isLetterOrNumber c

/-- A name and the angle that closes it. -/
def groupName? (cs : List Char) : Option (String × List Char) :=
  let name := cs.takeWhile (· ≠ '>')
  match name, cs.dropWhile (· ≠ '>') with
  | c :: more, _ :: rest => if startsName c ∧ more.all nameChar then some (String.ofList name, rest) else none
  | _, _ => none

def modeNames : List Char := ['i', 'm', 's', 'U', 'u', 'R', 'x']

/-- Modes by their names, those after a dash switched off; none twice, and no dash without one. -/
def modeChanges? (cs : List Char) : Option (List ModeChange) :=
  let on := cs.takeWhile (· ≠ '-')
  let off := cs.dropWhile (· ≠ '-')
  if off ≠ ['-'] ∧ (on ++ off.drop 1).all modeNames.contains ∧ (on ++ off.drop 1).Nodup then
    some (on.map (·, true) ++ (off.drop 1).map (·, false))
  else none

/-- What a group begins with, after its opening parenthesis. -/
inductive Opening
  | modes (changes : List ModeChange)
  | group (name : Option String) (changes : List ModeChange)

def endsModes (c : Char) : Bool := c == ':' || c == ')'

def opening? : List Char → Option (Opening × List Char)
  | '?' :: 'P' :: '<' :: cs => (groupName? cs).map fun r => (.group (some r.1) [], r.2)
  | '?' :: '<' :: cs => (groupName? cs).map fun r => (.group (some r.1) [], r.2)
  | '?' :: cs => do
    let changes ← modeChanges? (cs.takeWhile (!endsModes ·))
    match cs.dropWhile (!endsModes ·) with
    | ':' :: rest => some (.group none changes, rest)
    | ')' :: rest => if changes = [] then none else some (.modes changes, rest)
    | _ => none
  | cs => some (.group none [], cs)

/-- Whether free writing goes on after some changes of modes. -/
def freeAfter (free : Bool) (changes : List ModeChange) : Bool := (changes.lookup 'x').getD free

/-! ## Patterns -/

/-- Only something that can match can be repeated. -/
def repeatLast : List Pattern → Option (List Pattern)
  | [] | .modes _ :: _ => none
  | p :: ps => some (.repeated p :: ps)

/-- A question mark after a repetition only changes which match is preferred. -/
def skipPreference : List Char → List Char
  | '?' :: cs => cs
  | cs => cs

/-- The parts of a pattern after those in `done`, last one first, up to the end or to a closing
    parenthesis. What stands before the last bar is in `branches`. -/
def parts : Nat → Bool → List Pattern → List Pattern → List Char → Option (Pattern × List Char)
  | 0, _, _, _, _ => none
  | fuel + 1, free, branches, done, cs =>
    let finish := Pattern.ofChoice (ofSequence done.reverse :: branches).reverse
    match skip free cs with
    | [] => some (finish, [])
    | ')' :: cs => some (finish, ')' :: cs)
    | '|' :: cs => parts fuel free (ofSequence done.reverse :: branches) [] cs
    | '(' :: cs => do
      match ← opening? (skip free cs) with
      | (.modes changes, cs) => parts fuel (freeAfter free changes) branches (.modes changes :: done) cs
      | (.group name changes, cs) =>
        match ← parts fuel (freeAfter free changes) [] [] cs with
        | (p, ')' :: cs) => parts fuel free branches (.group name changes p :: done) cs
        | _ => none
    | '[' :: cs => do
      let ((negated, s), cs) ← set_ fuel free cs
      parts fuel free branches (.set negated s :: done) cs
    | '?' :: cs | '*' :: cs | '+' :: cs => do parts fuel free branches (← repeatLast done) (skipPreference cs)
    | '\x7b' :: _ => none
    | '\\' :: cs => do
      let (p, cs) ← escape free cs
      parts fuel free branches (p :: done) cs
    | '.' :: cs => parts fuel free branches (.any :: done) cs
    | '^' :: cs | '$' :: cs => parts fuel free branches (.position :: done) cs
    | c :: cs => parts fuel free branches (.char ⟨c, false⟩ :: done) cs

/-- The pattern of a text; nothing when it is none. -/
def read? (cs : List Char) : Option Pattern :=
  match parts (2 * cs.length + 2) false [] [] cs with
  | some (p, []) => some p
  | _ => none

/-- Check that the text is a pattern that can be used. -/
def check (cs : List Char) : Except Fault Unit :=
  match (read? cs).map fault? with
  | none => .error .form
  | some (some f) => .error f
  | some none => .ok ()

end LinkedData.Pattern
