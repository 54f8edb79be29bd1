/-
  LinkedData.Toml.Time — times of TOML documents, read.

  A time is a date, a time of day, or both with an offset from UTC. It is kept as text, in one
  spelling: a `T` before the time of day, no fraction of zero, no zeros at a fraction's end.
  A time that stands in quotes is read with less care than one that does not: `TimeForm` says
  where the two differ.
-/

import LinkedData.Instant.Calendar
import LinkedData.Text.Digits

namespace LinkedData.Toml

open LinkedData.Text Calendar

/-- What is taken for a time. -/
structure TimeForm where
  greatestHour : Nat
  /-- What may stand between a date and a time of day. -/
  separators : List Char
  /-- An offset may have these hours and minutes. -/
  offset : Nat → Nat → Bool

namespace TimeForm

/-- A time as a word of its own. -/
def bare : TimeForm := ⟨23, ['T', 't'], fun hours minutes => hours ≤ 23 && minutes ≤ 59⟩

/-- A time as the text of a string. -/
def quoted : TimeForm := ⟨24, ['T', 't', ' '], fun hours minutes => 60 * hours + minutes ≤ 24 * 60⟩

end TimeForm

/-- Two digits, up to `most`. -/
def two? (most : Nat) : List Char → Option (Nat × List Char)
  | a :: b :: cs => if a.isDigit ∧ b.isDigit ∧ value [a, b] ≤ most then some (value [a, b], cs) else none
  | _ => none

def mark? (c : Char) : List Char → Option (List Char)
  | d :: cs => if c = d then some cs else none
  | [] => none

def date? (cs : List Char) : Option (List Char × List Char) := do
  let year := cs.take 4
  if year.length ≠ 4 ∨ ¬ year.all Char.isDigit then none
  let rest ← mark? '-' (cs.drop 4)
  let (month, rest) ← two? 12 rest
  let rest ← mark? '-' rest
  let (day, rest) ← two? 31 rest
  if (⟨value year, month, day⟩ : Date).Exists then some (cs.take 10, rest) else none

/-- Nine digits of a fraction at most, without zeros at the end; none at all for a fraction of zero. -/
def fractionText (ds : List Char) : List Char :=
  match ((ds.take 9).reverse.dropWhile (· == '0')).reverse with
  | [] => []
  | ds => '.' :: ds

namespace TimeForm

def clock? (f : TimeForm) (cs : List Char) : Option (List Char × List Char) := do
  let (_, rest) ← two? f.greatestHour cs
  let rest ← mark? ':' rest
  let (_, rest) ← two? 59 rest
  let rest ← mark? ':' rest
  let (_, rest) ← two? 60 rest
  match rest with
  | '.' :: rest =>
    let ds := rest.takeWhile Char.isDigit
    if ds = [] then none else some (cs.take 8 ++ fractionText ds, rest.dropWhile Char.isDigit)
  | rest => some (cs.take 8, rest)

/-- The offset from UTC and nothing else. No offset at all is one way to have none. -/
def offset? (f : TimeForm) : List Char → Option (List Char)
  | [] => some []
  | ['Z'] | ['z'] => some ['Z']
  | sign :: cs => do
    if sign ≠ '+' ∧ sign ≠ '-' then none
    let (hours, rest) ← two? 99 cs
    let rest ← mark? ':' rest
    let (minutes, rest) ← two? 99 rest
    if rest ≠ [] ∨ ¬ f.offset hours minutes then none
    let all := 60 * hours + minutes
    some ((if all = 0 then '+' else sign) :: fixed 2 (all / 60) ++ ':' :: fixed 2 (all % 60))

def clockAndOffset? (f : TimeForm) (cs : List Char) : Option (List Char) := do
  let (clock, rest) ← f.clock? cs
  let offset ← f.offset? rest
  some (clock ++ offset)

/-- A date, a time of day, or both. -/
def time? (f : TimeForm) (cs : List Char) : Option (List Char) :=
  match date? cs with
  | some (date, []) => some date
  | some (date, c :: rest) =>
    if f.separators.contains c then (f.clockAndOffset? rest).map (date ++ 'T' :: ·) else none
  | none =>
    match f.clock? cs with
    | some (clock, []) => some clock
    | _ => none

end TimeForm

end LinkedData.Toml
