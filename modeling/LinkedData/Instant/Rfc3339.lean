/-
  LinkedData.Instant.Rfc3339 — the RFC 3339 text of an instant, written and read.

  One writer, with the number of fraction digits and the spelling of UTC left to its
  caller: a `Style`. Two readers. `read?` wants the format as written, character for
  character, and says what is wrong. `readRelaxed` also takes years of any length, numbers
  without their leading zeros and blanks between the parts; stored times are read by it.
  Both take any offset and give the instant in UTC.
-/

import LinkedData.Instant
import LinkedData.Text.Blank
import LinkedData.Text.Digits

namespace LinkedData.Instant

open Text Calendar

/-! ## Writing -/

inductive Precision
  | milliseconds
  | nanoseconds
  /-- Nothing for a whole second, else 3, 6 or 9 digits: the fewest that lose nothing. -/
  | fewest
  deriving DecidableEq

structure Style where
  precision : Precision
  utc : List Char

/-- As times stand in audit graphs and listings. -/
def Style.full : Style := ⟨.nanoseconds, ['Z']⟩

/-- As times stand in notifications. -/
def Style.short : Style := ⟨.milliseconds, ['Z']⟩

/-- As times are stored. -/
def Style.stored : Style := ⟨.fewest, ['Z']⟩

/-- As a requested time is repeated to its asker. -/
def Style.offset : Style := ⟨.fewest, ['+', '0', '0', ':', '0', '0']⟩

/-- Four digits from year 0 to 9999; before and after, a sign and at least four. -/
def writeYear (y : Int) : List Char :=
  match y with
  | .ofNat n => if n ≤ 9999 then fixed 4 n else '+' :: padded 4 n
  | .negSucc n => '-' :: padded 4 (n + 1)

def writeFraction : Precision → Nat → List Char
  | .milliseconds, nano => '.' :: fixed 3 (nano / 1000000)
  | .nanoseconds, nano => '.' :: fixed 9 nano
  | .fewest, nano =>
    if nano = 0 then []
    else if nano % 1000000 = 0 then '.' :: fixed 3 (nano / 1000000)
    else if nano % 1000 = 0 then '.' :: fixed 6 (nano / 1000)
    else '.' :: fixed 9 nano

def writeDate (date : Date) : List Char :=
  writeYear date.year ++ '-' :: fixed 2 date.month ++ '-' :: fixed 2 date.day

/-- A leap second is second 60. -/
def writeChars (style : Style) (t : Instant) : List Char :=
  let date := Date.ofDays (t.second / 86400 + epoch)
  let clock := (t.second % 86400).toNat
  let leap := t.nano / 1000000000
  writeDate date ++ 'T' :: fixed 2 (clock / 3600) ++ ':' :: fixed 2 (clock / 60 % 60) ++
    ':' :: fixed 2 (clock % 60 + leap) ++ writeFraction style.precision (t.nano % 1000000000) ++ style.utc

def write (style : Style) (t : Instant) : String := String.ofList (writeChars style t)

/-! ## Reading -/

/-- What is wrong with a time. -/
inductive ReadFault
  | invalid
  | short
  | range
  | long
  deriving DecidableEq, Repr

def ReadFault.message : ReadFault → String
  | invalid => "input contains invalid characters"
  | short => "premature end of input"
  | range => "input is out of range"
  | long => "trailing input"

/-! Each step gives its value and the characters after it. -/

/-- One digit where the length of the text promised one. -/
def digitAt : List Char → Except ReadFault (Nat × List Char)
  | c :: rest => if c.isDigit then .ok (digitValue c, rest) else .error .invalid
  | [] => .error .invalid

/-- `count` digits, as a number. -/
def digitsAt : Nat → Nat → List Char → Except ReadFault (Nat × List Char)
  | 0, n, rest => .ok (n, rest)
  | count + 1, n, cs => do
    let (d, rest) ← digitAt cs
    digitsAt count (10 * n + d) rest

/-- The character `c`, where the length of the text promised one. -/
def markAt (ok : Char → Bool) : List Char → Except ReadFault (List Char)
  | c :: rest => if ok c then .ok rest else .error .invalid
  | [] => .error .invalid

/-- A colon that the text may be too short for. -/
def colon : List Char → Except ReadFault (List Char)
  | [] => .error .short
  | c :: rest => if c = ':' then .ok rest else .error .invalid

/-- The digits of a fraction: at least one; those after the ninth do not count. -/
def fraction (cs : List Char) : Except ReadFault (Nat × List Char) :=
  let digits := cs.takeWhile Char.isDigit
  let nine := digits.take 9
  match cs, digits with
  | [], _ => .error .short
  | _ :: _, [] => .error .invalid
  | _, _ => .ok (value (nine ++ List.replicate (9 - nine.length) '0'), cs.dropWhile Char.isDigit)

/-- Bytes that the text takes in UTF-8. -/
def width (cs : List Char) : Nat := (String.ofList cs).utf8ByteSize

/-- The sign and the four digits of an offset, in seconds. -/
def offset (separator : List Char → Except ReadFault (List Char)) : List Char → Except ReadFault (Int × List Char)
  | 'Z' :: rest | 'z' :: rest => .ok (0, rest)
  | [] => .error .short
  | sign :: rest => do
    if sign ≠ '+' ∧ sign ≠ '-' ∧ sign ≠ '−' then throw .invalid
    if width rest < 2 then throw .short
    let (hours, rest) ← digitsAt 2 0 rest
    let rest ← separator rest
    if width rest < 2 then throw .short
    let (minutes, rest) ← digitsAt 2 0 rest
    if 60 ≤ minutes then throw .range
    let seconds : Int := hours * 3600 + minutes * 60
    return (if sign = '+' then seconds else -seconds, rest)

/-- The instant of a date and a time of day that is `offset` seconds ahead of UTC. Second 60 is
    the leap second of its minute. The calendar must have the date as well as the instant. -/
def ofFields (date : Date) (hour minute second nano : Nat) (offset : Int) : Except ReadFault Instant :=
  let leap := second = 60
  let t : Instant :=
    ⟨(date.toDays - epoch) * 86400 + hour * 3600 + minute * 60 + (if leap then 59 else second) - offset,
      if leap then nano + 1000000000 else nano⟩
  if date.Exists ∧ firstYear ≤ date.year ∧ date.year ≤ lastYear ∧ hour < 24 ∧ minute < 60 ∧ second ≤ 60 ∧
      firstSecond ≤ t.second ∧ t.second ≤ lastSecond
  then .ok t else .error .range

/-- The format as written, and nothing after it. -/
def readChars (cs : List Char) : Except ReadFault Instant := do
  if width cs < 19 then throw .short
  let (year, cs) ← digitsAt 4 0 cs
  let cs ← markAt (· == '-') cs
  let (month, cs) ← digitsAt 2 0 cs
  let cs ← markAt (· == '-') cs
  let (day, cs) ← digitsAt 2 0 cs
  let date : Date := ⟨year, month, day⟩
  if ¬ date.Exists then throw .range
  let cs ← markAt (fun c => c == 'T' || c == 't' || c == ' ') cs
  let (hour, cs) ← digitsAt 2 0 cs
  let cs ← markAt (· == ':') cs
  let (minute, cs) ← digitsAt 2 0 cs
  let cs ← markAt (· == ':') cs
  let (second, cs) ← digitsAt 2 0 cs
  let (nano, cs) ← match cs with
    | '.' :: rest => fraction rest
    | _ => .ok (0, cs)
  if 24 ≤ hour ∨ 60 ≤ minute ∨ 60 < second then throw .range
  let (ahead, cs) ← offset colon cs
  if cs ≠ [] then throw .long
  if 86400 ≤ ahead.natAbs then throw .range
  ofFields date hour minute second nano ahead

def read (s : String) : Except ReadFault Instant := readChars s.toList

/-! ## Reading with leeway -/

/-- Blanks, then at least one digit and at most `most`. -/
def numberAt (most : Nat) (cs : List Char) : Option (Nat × List Char) :=
  let cs := trimLeft cs
  let digits := (cs.takeWhile Char.isDigit).take most
  if digits = [] then none else some (value digits, cs.drop digits.length)

/-- A year: signed and of any length, or of at most four digits. -/
def yearAt (cs : List Char) : Option (Int × List Char) :=
  match trimLeft cs with
  | '-' :: rest => (anyNumber rest).map fun r => (-(r.1 : Int), r.2)
  | '+' :: rest => (anyNumber rest).map fun r => ((r.1 : Int), r.2)
  | cs => (numberAt 4 cs).map fun r => ((r.1 : Int), r.2)
where
  anyNumber (cs : List Char) : Option (Nat × List Char) :=
    let digits := cs.takeWhile Char.isDigit
    if digits = [] then none else some (value digits, cs.drop digits.length)

/-- Blanks, then the character `c`. -/
def separatorAt (c : Char) (cs : List Char) : Option (List Char) :=
  match trimLeft cs with
  | d :: rest => if d = c then some rest else none
  | [] => none

/-- Colons and blanks, as many as there are. -/
def colonsOrBlanks (cs : List Char) : Except ReadFault (List Char) :=
  .ok (cs.dropWhile fun c => c == ':' || isBlank c)

def readRelaxedChars (cs : List Char) : Option Instant := do
  let (year, cs) ← yearAt cs
  let cs ← separatorAt '-' cs
  let (month, cs) ← numberAt 2 cs
  let cs ← separatorAt '-' cs
  let (day, cs) ← numberAt 2 cs
  let cs ← match cs with
    | c :: rest => if c == 'T' || c == 't' || c == ' ' then some rest else none
    | [] => none
  let (hour, cs) ← numberAt 2 cs
  let cs ← separatorAt ':' cs
  let (minute, cs) ← numberAt 2 cs
  let cs ← separatorAt ':' cs
  let (second, cs) ← numberAt 2 cs
  let (nano, cs) ← match cs with
    | '.' :: rest => (fraction rest).toOption
    | _ => some (0, cs)
  let cs := trimLeft cs
  let (ahead, cs) ←
    if (cs.take 3).map Char.toUpper = ['U', 'T', 'C'] then some ((0 : Int), cs.drop 3)
    else (offset colonsOrBlanks cs).toOption
  if trimLeft cs ≠ [] ∨ 86400 ≤ ahead.natAbs then none
  else (ofFields ⟨year, month, day⟩ hour minute second nano ahead).toOption

def readRelaxed (s : String) : Option Instant := readRelaxedChars s.toList

end LinkedData.Instant
