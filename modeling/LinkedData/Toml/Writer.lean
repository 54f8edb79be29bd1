/-
  LinkedData.Toml.Writer — strings and keys of TOML documents, written.

  A string takes the simplest form that holds it as it is: double quotes, single quotes, three
  of the one, three of the other. Only when none of them does, characters are escaped. A tab
  counts as simple, but between double quotes it is escaped all the same.
-/

import LinkedData.Hex

namespace LinkedData.Toml

/-- The longest run of `c`. -/
def longestRun (c : Char) (cs : List Char) : Nat :=
  (cs.foldl (fun (run, longest) d => if d = c then (run + 1, max longest (run + 1)) else (0, longest)) (0, 0)).2

def isControl (c : Char) : Bool := c.toNat < 0x20 || c.toNat == 0x7F

/-- Control characters that only an escape can bring into a string. -/
def needsEscape (c : Char) : Bool := isControl c && c != '\t' && c != '\n'

/-- The four hexadecimal digits of a control character. -/
def controlCode (c : Char) : List Char :=
  '\\' :: 'u' :: '0' :: '0' :: (Hex.encodeChars [UInt8.ofNat c.toNat]).map Char.toUpper

def escapeChar (long : Bool) (c : Char) : List Char :=
  if c = '\x08' then ['\\', 'b']
  else if c = '\t' then ['\\', 't']
  else if c = '\n' then if long then [c] else ['\\', 'n']
  else if c = '\x0c' then ['\\', 'f']
  else if c = '\r' then ['\\', 'r']
  else if c = '\\' then ['\\', '\\']
  else if isControl c then controlCode c
  else [c]

/-- Characters between double quotes; `allowed` quotes may stand in a row as they are, and `run` do so
    already. -/
def escape (long : Bool) (allowed : Nat) : Nat → List Char → List Char
  | _, [] => []
  | run, '"' :: cs =>
    if allowed ≤ run then '\\' :: '"' :: escape long allowed 0 cs else '"' :: escape long allowed (run + 1) cs
  | _, c :: cs => escapeChar long c ++ escape long allowed 0 cs

def quote : List Char := ['"']

def longQuote : List Char := ['"', '"', '"']

def apostrophe : List Char := ['\'']

def longApostrophe : List Char := ['\'', '\'', '\'']

/-- Between marks of the long kind, a text of several lines starts on a line of its own. -/
def opening (mark cs : List Char) : List Char := mark ++ if cs.contains '\n' then ['\n'] else []

def writeString (s : String) : List Char :=
  let cs := s.toList
  let coded := cs.any needsEscape
  let quotes := longestRun '"' cs
  let apostrophes := longestRun '\'' cs
  let long := cs.contains '\n'
  let slashed := cs.contains '\\'
  if ¬ coded ∧ ¬ slashed ∧ quotes = 0 ∧ ¬ long then quote ++ escape false 0 0 cs ++ quote
  else if ¬ coded ∧ apostrophes = 0 ∧ ¬ long then apostrophe ++ cs ++ apostrophe
  else if ¬ coded ∧ ¬ slashed ∧ quotes ≤ 2 then opening longQuote cs ++ escape true 2 0 cs ++ longQuote
  else if ¬ coded ∧ apostrophes ≤ 2 then opening longApostrophe cs ++ cs ++ longApostrophe
  else if long then opening longQuote cs ++ escape true 2 0 cs ++ longQuote
  else quote ++ escape false 0 0 cs ++ quote

def isBareKey (cs : List Char) : Bool :=
  cs ≠ [] && cs.all fun c => c.isAlphanum || c == '_' || c == '-'

def writeKey (s : String) : List Char :=
  let cs := s.toList
  let coded := cs.any fun c => isControl c && c != '\t'
  if isBareKey cs then cs
  else if ¬ coded ∧ ¬ cs.contains '\\' ∧ ¬ cs.contains '"' then quote ++ escape false 0 0 cs ++ quote
  else if ¬ coded ∧ ¬ cs.contains '\'' then apostrophe ++ cs ++ apostrophe
  else quote ++ escape false 0 0 cs ++ quote

/-- The line of a key and a value. -/
def writePair (name : String) (value : List Char) : List Char :=
  writeKey name ++ [' ', '=', ' '] ++ value ++ ['\n']

end LinkedData.Toml
