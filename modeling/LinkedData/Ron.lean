/-
  LinkedData.Ron — documents in object notation (RON), read into settings.

  The notation has lists in brackets, maps in braces, and structures in parentheses, with
  named fields or without names, perhaps after a name of their own, which does not count. An
  optional value is `Some` with the value in parentheses, or `None`. A character counts as a
  text of one character.
-/

import LinkedData.Decimal.Reader
import LinkedData.Hex
import LinkedData.Settings

namespace LinkedData.Ron

/-! ## Blanks -/

def isBlank (c : Char) : Bool := [' ', '\t', '\n', '\r'].contains c

/-- What follows a long comment, `level` comments being open around the innermost one. -/
def afterComment? : Nat → List Char → Option (List Char)
  | _, [] => none
  | level, '/' :: '*' :: cs => afterComment? (level + 1) cs
  | 0, '*' :: '/' :: cs => some cs
  | level + 1, '*' :: '/' :: cs => afterComment? level cs
  | level, _ :: cs => afterComment? level cs

/-- Blanks and comments; `fuel` is at least the number of characters. -/
def skip? : Nat → List Char → Option (List Char)
  | 0, cs => some cs
  | fuel + 1, cs =>
    match cs.dropWhile isBlank with
    | '/' :: '/' :: cs => skip? fuel (cs.dropWhile (· ≠ '\n'))
    | '/' :: '*' :: cs => (afterComment? 0 cs).bind (skip? fuel)
    | '/' :: _ => none
    | cs => some cs

def skip (cs : List Char) : Option (List Char) := skip? cs.length cs

/-- A comma with blanks around it, if there is one. -/
def comma? (cs : List Char) : Option (Bool × List Char) := do
  match ← skip cs with
  | ',' :: cs => some (true, ← skip cs)
  | cs => some (false, cs)

/-! ## Names -/

def startsName (c : Char) : Bool := c.isAlpha || c == '_'

def nameChar (c : Char) : Bool := c.isAlphanum || c == '_'

/-- What a raw name may have. -/
def rawNameChar (c : Char) : Bool := nameChar c || ['.', '+', '-'].contains c

def span (ok : Char → Bool) (cs : List Char) : String × List Char :=
  (String.ofList (cs.takeWhile ok), cs.dropWhile ok)

/-- A name; a raw one comes after a mark. The beginning of a raw string is no name. -/
def name? : List Char → Option (String × List Char)
  | ['r'] => none
  | 'r' :: '"' :: _ => none
  | 'r' :: '#' :: cs => if (cs.head?.map rawNameChar).getD false then some (span rawNameChar cs) else none
  | c :: cs => if startsName c then some (span nameChar (c :: cs)) else none
  | [] => none

/-- What follows a word that is there as a whole. -/
def afterWord? (word : String) (cs : List Char) : Option (List Char) :=
  let rest := cs.drop word.toList.length
  if word.toList.isPrefixOf cs ∧ (rest.head?.map nameChar).getD false = false then some rest else none

/-! ## Text -/

def specials : List (Char × Char) :=
  [('\'', '\''), ('"', '"'), ('\\', '\\'), ('n', '\n'), ('r', '\r'), ('t', '\t'), ('0', '\x00')]

/-- The character of a number in hexadecimal, which has up to six digits. -/
def numbered? (ds : List Char) : Option Char := do
  if ds = [] ∨ 6 < ds.length then none
  let n ← Hex.value? ds
  if h : n.isValidChar then some (Char.ofNatAux n h) else none

/-- The character that a backslash and what follows it stand for. -/
def escape : List Char → Option (Char × List Char)
  | 'x' :: a :: b :: cs => (Hex.value? [a, b]).map fun n => (Char.ofNat n, cs)
  | 'u' :: '\x7b' :: cs =>
    match cs.dropWhile (· ≠ '\x7d') with
    | _ :: rest => (numbered? (cs.takeWhile (· ≠ '\x7d'))).map (·, rest)
    | [] => none
  | c :: cs => (specials.lookup c).map (·, cs)
  | [] => none

/-- A string after its opening quote; `fuel` is more than the number of characters. -/
def quoted : Nat → List Char → Option (List Char × List Char)
  | 0, _ => none
  | _ + 1, [] => none
  | _ + 1, '"' :: cs => some ([], cs)
  | fuel + 1, '\\' :: cs => do
    let (c, cs) ← escape cs
    (quoted fuel cs).map fun r => (c :: r.1, r.2)
  | fuel + 1, c :: cs => (quoted fuel cs).map fun r => (c :: r.1, r.2)

/-- A raw string up to the mark that closes it. -/
def raw (closing : List Char) : List Char → Option (List Char × List Char)
  | [] => none
  | c :: cs =>
    if closing.isPrefixOf (c :: cs) then some ([], (c :: cs).drop closing.length)
    else (raw closing cs).map fun r => (c :: r.1, r.2)

def character : List Char → Option (Char × List Char)
  | '\\' :: cs => do
    let (c, cs) ← escape cs
    match cs with
    | '\'' :: cs => some (c, cs)
    | _ => none
  | c :: '\'' :: cs => if c = '\'' then none else some (c, cs)
  | _ => none

/-- A string of any kind, or a character. -/
def text? : List Char → Option (String × List Char)
  | '"' :: cs => (quoted (cs.length + 1) cs).map fun r => (String.ofList r.1, r.2)
  | '\'' :: cs => (character cs).map fun r => (r.1.toString, r.2)
  | 'r' :: cs =>
    let hashes := cs.takeWhile (· == '#')
    match cs.dropWhile (· == '#') with
    | '"' :: cs => (raw ('"' :: hashes) cs).map fun r => (String.ofList r.1, r.2)
    | _ => none
  | _ => none

/-! ## Numbers -/

def integerChar (c : Char) : Bool := Hex.isDigit c || c == '_'

def realChar (c : Char) : Bool := c.isDigit || ['e', 'E', '.', '+', '-', '_'].contains c

def baseOf : List Char → Nat × List Char
  | '0' :: 'x' :: cs => (16, cs)
  | '0' :: 'b' :: cs => (2, cs)
  | '0' :: 'o' :: cs => (8, cs)
  | cs => (10, cs)

/-- Digits, perhaps with underscores between and after them: their value, and the rest. -/
def magnitude? (cs : List Char) : Option (Nat × List Char) := do
  let (base, cs) := baseOf cs
  let ds := cs.takeWhile integerChar
  if ds = [] ∨ ds.head? = some '_' then none
  let values ← (ds.filter (· ≠ '_')).mapM Hex.digitValue?
  if values.all (· < base) then some (values.foldl (fun n d => base * n + d) 0, cs.dropWhile integerChar) else none

/-- An integer of 64 bits. Without a sign, it may go beyond those that have one, and is a real number
    then. -/
def integer? (cs : List Char) : Option (Setting × List Char) :=
  match cs with
  | '-' :: ds => do
    let (n, rest) ← magnitude? ds
    return (.integer (← Text.int64? (-(n : Int))), rest)
  | '+' :: ds => do
    let (n, rest) ← magnitude? ds
    return (.integer (← Text.int64? n), rest)
  | _ => do
    let (n, rest) ← magnitude? cs
    if 1 <<< 64 ≤ n then none
    match Text.int64? n with
    | some n => return (.integer n, rest)
    | none => return (.real (.ofNat n), rest)

def specialReals : List (String × Binary64) :=
  [("inf", .infinite false), ("+inf", .infinite false), ("-inf", .infinite true), ("NaN", .nan), ("+NaN", .nan),
    ("-NaN", .nan)]

def real? (cs : List Char) : Option (Setting × List Char) :=
  match specialReals.findSome? fun s => (afterWord? s.1 cs).map (s.2, ·) with
  | some (x, rest) => some (.real x, rest)
  | none =>
    let word := cs.takeWhile realChar
    if word.contains '_' then none else (Binary64.ofText? word).map (.real ·, cs.dropWhile realChar)

/-- A number that looks like an integer is one if it has the digits of one and is not too large. -/
def number? (cs : List Char) : Option (Setting × List Char) :=
  let (_, ds) := Text.unsigned cs
  if (ds.takeWhile integerChar).length < (ds.takeWhile realChar).length then real? cs
  else match integer? cs with
    | some r => some r
    | none => real? cs

/-! ## Values -/

/-- How deep values may be nested. A list, a map or a structure counts once, and what is in it once
    more; so does an optional value. -/
def depthLimit : Nat := 128

/-- Words that are values. -/
def words : List (String × Setting) :=
  [("true", .flag true), ("false", .flag false), ("None", .nothing), ("inf", .real (.infinite false)),
    ("-inf", .real (.infinite true)), ("NaN", .real .nan)]

def word? (cs : List Char) : Option (Setting × List Char) :=
  words.findSome? fun w => (afterWord? w.1 cs).map (w.2, ·)

/-- The fields of a structure have names. -/
def hasNames (cs : List Char) : Bool :=
  match name? cs with
  | none => false
  | some (_, rest) => (skip rest).bind (·.head?) == some ':'

/-- A key of a map, or the name of a field. -/
def key? (named : Bool) (cs : List Char) : Option (String × List Char) := if named then name? cs else text? cs

/-! Every reader below takes `fuel`, more than the number of characters that remain, and how much
    deeper `depth` values may be nested. -/

mutual

def value (fuel depth : Nat) (cs : List Char) : Option (Setting × List Char) :=
  match fuel with
  | 0 => none
  | fuel + 1 =>
    match word? cs, afterWord? "Some" cs, cs with
    | some r, _, _ => some r
    | none, some rest, _ => do
      match ← skip rest, depth with
      | '(' :: cs, depth + 1 =>
        let (v, cs) ← value fuel depth (← skip cs)
        match ← comma? cs with
        | (_, ')' :: cs) => some (v, cs)
        | _ => none
      | _, _ => none
    | none, none, '(' :: ')' :: cs => some (.nothing, cs)
    | none, none, cs =>
      match name? cs with
      | some (_, rest) => do
        match ← skip rest with
        | '(' :: cs => structure_ fuel depth (← skip cs)
        | cs => some (.nothing, cs)
      | none =>
        match cs with
        | '(' :: cs => do structure_ fuel depth (← skip cs)
        | '[' :: cs => items fuel depth ']' [] cs
        | '\x7b' :: cs => fields fuel depth false '\x7d' [] cs
        | '"' :: _ | '\'' :: _ | 'r' :: _ => (text? cs).map fun t => (.text t.1, t.2)
        | '.' :: _ => real? cs
        | c :: _ => if c.isDigit ∨ c = '+' ∨ c = '-' then number? cs else none
        | [] => none

/-- A structure after its opening parenthesis. -/
def structure_ (fuel depth : Nat) (cs : List Char) : Option (Setting × List Char) :=
  match fuel with
  | 0 => none
  | fuel + 1 =>
    if hasNames cs then fields fuel depth true ')' [] cs
    else items fuel depth ')' [] cs

/-- The items of a list after those in `done`, last one first, and what closes it. An item may come
    only at the beginning or after a comma. -/
def items (fuel depth : Nat) (closing : Char) (done : List Setting) (cs : List Char) : Option (Setting × List Char) :=
  match fuel with
  | 0 => none
  | fuel + 1 => do
    match ← skip cs with
    | [] => none
    | c :: cs =>
      if depth = 0 then none
      else if c = closing then some (.list done.reverse, cs)
      else if depth = 1 then none
      else
        let (v, cs) ← value fuel (depth - 2) (c :: cs)
        match ← comma? cs with
        | (true, cs) => items fuel depth closing (v :: done) cs
        | (false, c :: cs) => if c = closing then some (.list (v :: done).reverse, cs) else none
        | (false, []) => none

/-- The fields of a map or of a structure after those in `done`, and what closes it. -/
def fields (fuel depth : Nat) (named : Bool) (closing : Char) (done : List (String × Setting)) (cs : List Char) :
    Option (Setting × List Char) :=
  match fuel with
  | 0 => none
  | fuel + 1 => do
    match ← skip cs with
    | [] => none
    | c :: cs =>
      if depth = 0 then none
      else if c = closing then some (.table done, cs)
      else if depth = 1 then none
      else
        let (key, cs) ← key? named (c :: cs)
        match ← skip cs with
        | ':' :: cs =>
          let (v, cs) ← value fuel (depth - 2) (← skip cs)
          match ← comma? cs with
          | (true, cs) => fields fuel depth named closing (Setting.assign key v done) cs
          | (false, c :: cs) => if c = closing then some (.table (Setting.assign key v done), cs) else none
          | (false, []) => none
        | _ => none

end

/-! ## Documents -/

/-- Extensions that a document may ask for. They do not change what is read here. -/
def extensions : List String := ["unwrap_newtypes", "implicit_some", "unwrap_variant_newtypes"]

/-- Marks one after another, with blanks before each. -/
def marks? : List String → List Char → Option (List Char)
  | [], cs => some cs
  | m :: ms, cs => do
    let cs ← skip cs
    if m.toList.isPrefixOf cs then marks? ms (cs.drop m.toList.length) else none

/-- The names of extensions, with commas between them; `fuel` is more than the number of characters. -/
def extensionNames : Nat → List Char → Option (List Char)
  | 0, _ => none
  | fuel + 1, cs => do
    let (name, cs) ← name? cs
    if ¬ extensions.contains name then none
    match ← comma? cs with
    | (true, c :: cs) => if nameChar c then extensionNames fuel (c :: cs) else some (c :: cs)
    | (_, cs) => some cs

/-- What a document asks for before its value; `fuel` is more than the number of characters. -/
def skipAttributes : Nat → List Char → Option (List Char)
  | 0, _ => none
  | fuel + 1, cs =>
    match cs with
    | '#' :: _ => do
      let cs ← skip (← marks? ["#", "!", "[", "enable", "("] cs)
      let cs ← marks? [")", "]"] (← extensionNames (cs.length + 1) cs)
      skipAttributes fuel (← skip cs)
    | cs => some cs

/-- The settings of a document; nothing when it is none, or no table. -/
def parse (s : String) : Option (List (String × Setting)) := do
  let cs ← skip s.toList
  let cs ← skipAttributes (cs.length + 1) cs
  match ← value (3 * cs.length + 3) depthLimit cs with
  | (.table fs, rest) => if (← skip rest) = [] then some fs else none
  | _ => none

end LinkedData.Ron
