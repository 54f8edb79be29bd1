/-
  LinkedData.Json5 — JSON5 documents, read into settings.

  JSON5 is JSON with some freedom: comments, names without quotes, single quotes, strings over
  several lines, a comma after the last item, and more ways to write a number. A number is an
  integer if it has neither a point nor a power of ten.
-/

import LinkedData.Decimal.Reader
import LinkedData.Json.Reader
import LinkedData.Text.Blank
import LinkedData.Text.Name

namespace LinkedData.Json5

/-! ## Blanks -/

def isLineEnd (c : Char) : Bool := ['\n', '\r', '\u2028', '\u2029'].contains c

def isBlank (c : Char) : Bool := c == '\ufeff' || c ≠ '\u0085' && Text.isBlank c

/-- What follows a long comment, after its opening mark. -/
def afterComment? : List Char → Option (List Char)
  | [] => none
  | '*' :: '/' :: cs => some cs
  | _ :: cs => afterComment? cs

/-- Blanks and comments; `fuel` is at least the number of characters. -/
def skip? : Nat → List Char → Option (List Char)
  | 0, cs => some cs
  | fuel + 1, cs =>
    match cs.dropWhile isBlank with
    | '/' :: '*' :: cs => (afterComment? cs).bind (skip? fuel)
    | '/' :: '/' :: cs => skip? fuel (cs.dropWhile (!isLineEnd ·))
    | cs => some cs

def skip (cs : List Char) : Option (List Char) := skip? cs.length cs

/-! ## Text -/

def specials : List (Char × Char) :=
  [('b', '\x08'), ('f', '\x0c'), ('n', '\n'), ('r', '\r'), ('t', '\t'), ('v', '\x0b'), ('0', '\x00')]

/-- What a backslash and the characters after it stand for: one piece, or nothing at the end of a line. -/
def escape : List Char → Option (List Json.Reader.Piece × List Char)
  | '\r' :: '\n' :: cs => some ([], cs)
  | 'u' :: a :: b :: c :: d :: cs => (Hex.value? [a, b, c, d]).map fun n => ([.inr n], cs)
  | 'x' :: a :: b :: cs => (Hex.value? [a, b]).map fun n => ([.inl (Char.ofNat n)], cs)
  | c :: cs =>
    if isLineEnd c then some ([], cs)
    else if c = 'x' ∨ c = 'u' ∨ c.isDigit ∧ c ≠ '0' then none
    else some ([.inl ((specials.lookup c).getD c)], cs)
  | [] => none

/-- The pieces of a string up to its closing quote; `fuel` is more than the number of characters. -/
def pieces (quote : Char) : Nat → List Char → Option (List Json.Reader.Piece × List Char)
  | 0, _ => none
  | _ + 1, [] => none
  | fuel + 1, '\\' :: cs => do
    let (ps, cs) ← escape cs
    (pieces quote fuel cs).map fun r => (ps ++ r.1, r.2)
  | fuel + 1, c :: cs =>
    if c = quote then some ([], cs)
    else if c = '\n' ∨ c = '\r' then none
    else (pieces quote fuel cs).map fun r => (.inl c :: r.1, r.2)

def startsName (c : Char) : Bool := c == '$' || c == '_' || Text.isNameStart c

def nameChar (c : Char) : Bool := startsName c || Text.isNamePart c || c == '\u200c' || c == '\u200d'

/-- The pieces of a name without quotes; `ok` says what its first character may be. -/
def namePieces : Nat → (Char → Bool) → List Char → List Json.Reader.Piece × List Char
  | 0, _, cs => ([], cs)
  | fuel + 1, _, '\\' :: 'u' :: a :: b :: c :: d :: cs =>
    match Hex.value? [a, b, c, d] with
    | some n => let (ps, rest) := namePieces fuel nameChar cs; (.inr n :: ps, rest)
    | none => ([], '\\' :: 'u' :: a :: b :: c :: d :: cs)
  | fuel + 1, ok, c :: cs =>
    if ok c then let (ps, rest) := namePieces fuel nameChar cs; (.inl c :: ps, rest) else ([], c :: cs)
  | _, _, [] => ([], [])

def textOf (r : List Json.Reader.Piece × List Char) : Option (String × List Char) :=
  (Json.Reader.join r.1).map fun cs => (String.ofList cs, r.2)

def isQuote (c : Char) : Bool := c == '"' || c == '\''

/-- A name: in quotes, or one or more characters of a name. -/
def name : List Char → Option (String × List Char)
  | [] => none
  | c :: cs =>
    if isQuote c then (pieces c (cs.length + 1) cs).bind textOf
    else match namePieces (cs.length + 1) startsName (c :: cs) with
      | ([], _) => none
      | r => textOf r

/-! ## Numbers -/

/-- A power of ten with its mark, if there is one. -/
def exponent : List Char → List Char × List Char
  | [] => ([], [])
  | c :: cs =>
    let (sign, ds) := match cs with
      | '+' :: ds => (['+'], ds)
      | '-' :: ds => (['-'], ds)
      | ds => ([], ds)
    if Text.isExponentMark c ∧ ds.takeWhile Char.isDigit ≠ [] then
      (c :: sign ++ ds.takeWhile Char.isDigit, ds.dropWhile Char.isDigit)
    else ([], c :: cs)

/-- The digits before a point: a zero in front stands alone. -/
def whole : List Char → List Char × List Char
  | '0' :: cs => (['0'], cs)
  | cs => (cs.takeWhile Char.isDigit, cs.dropWhile Char.isDigit)

/-- The characters of a decimal, and what follows it. -/
def decimal? (cs : List Char) : Option (List Char × List Char) :=
  let (front, rest) := whole cs
  let (part, rest) := match rest with
    | '.' :: rest => ('.' :: rest.takeWhile Char.isDigit, rest.dropWhile Char.isDigit)
    | rest => ([], rest)
  if front = [] ∧ part.length ≤ 1 then none
  else
    let (power, rest) := exponent rest
    some (front ++ part ++ power, rest)

/-- Integers in hexadecimal have 32 bits. -/
def greatestHex : Nat := 1 <<< 32 - 1

/-- The value of a decimal; too large a number is none. -/
def decimalValue? (negative : Bool) (cs : List Char) : Option Setting :=
  let cs := if negative then '-' :: cs else cs
  if cs.any fun c => c == '.' || Text.isExponentMark c then
    match Binary64.ofText? cs with
    | some (.infinite _) | none => none
    | some x => some (.real x)
  else (Text.integer? cs).map .integer

def isPrefix? (word : String) (cs : List Char) : Option (List Char) :=
  if word.toList.isPrefixOf cs then some (cs.drop word.toList.length) else none

/-- A number without its sign. One in hexadecimal has none. -/
def number? (signed negative : Bool) (cs : List Char) : Option (Setting × List Char) :=
  match isPrefix? "Infinity" cs, isPrefix? "NaN" cs with
  | some rest, _ => some (.real (.infinite negative), rest)
  | none, some rest => some (.real .nan, rest)
  | none, none =>
    let digits := match cs with
      | '0' :: 'x' :: ds | '0' :: 'X' :: ds => ds.takeWhile Hex.isDigit
      | _ => []
    if digits ≠ [] then
      match signed, Hex.value? digits with
      | false, some n => if n ≤ greatestHex then some (.integer n, cs.drop (digits.length + 2)) else none
      | _, _ => none
    else (decimal? cs).bind fun r => (decimalValue? negative r.1).map (·, r.2)

/-! ## Values -/

/-- A word or a number. -/
def word? (cs : List Char) : Option (Setting × List Char) :=
  match isPrefix? "null" cs, isPrefix? "true" cs, isPrefix? "false" cs with
  | some rest, _, _ => some (.nothing, rest)
  | _, some rest, _ => some (.flag true, rest)
  | _, _, some rest => some (.flag false, rest)
  | none, none, none =>
    match cs with
    | '-' :: cs => number? true true cs
    | '+' :: cs => number? true false cs
    | cs => number? false false cs

/-! Every reader below takes `fuel`, more than the number of characters that remain. -/

mutual

def value (fuel : Nat) (cs : List Char) : Option (Setting × List Char) :=
  match fuel with
  | 0 => none
  | fuel + 1 =>
    match cs with
    | '[' :: cs => items fuel [] cs
    | '\x7b' :: cs => fields fuel [] cs
    | '"' :: _ | '\'' :: _ => (name cs).map fun t => (.text t.1, t.2)
    | cs => word? cs

/-- The items of a list after those in `done`, last one first, and its closing bracket. -/
def items (fuel : Nat) (done : List Setting) (cs : List Char) : Option (Setting × List Char) :=
  match fuel with
  | 0 => none
  | fuel + 1 => do
    match ← skip cs with
    | ']' :: cs => some (.list done.reverse, cs)
    | cs =>
      let (v, cs) ← value fuel cs
      match ← skip cs with
      | ',' :: cs => items fuel (v :: done) cs
      | ']' :: cs => some (.list (v :: done).reverse, cs)
      | _ => none

/-- The fields of an object after those in `done`, and its closing brace. -/
def fields (fuel : Nat) (done : List (String × Setting)) (cs : List Char) : Option (Setting × List Char) :=
  match fuel with
  | 0 => none
  | fuel + 1 => do
    match ← skip cs with
    | '\x7d' :: cs => some (.table done, cs)
    | cs =>
      let (key, cs) ← name cs
      match ← skip cs with
      | ':' :: cs =>
        let (v, cs) ← value fuel (← skip cs)
        match ← skip cs with
        | ',' :: cs => fields fuel (Setting.assign key v done) cs
        | '\x7d' :: cs => some (.table (Setting.assign key v done), cs)
        | _ => none
      | _ => none

end

/-- The settings of a document; nothing when it is no JSON5 document, or no object. -/
def parse (s : String) : Option (List (String × Setting)) := do
  match ← value (2 * s.toList.length + 2) (← skip s.toList) with
  | (.table fs, rest) => if (← skip rest) = [] then some fs else none
  | _ => none

end LinkedData.Json5
