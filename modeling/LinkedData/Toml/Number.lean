/-
  LinkedData.Toml.Number — the values of TOML documents that are words: numbers, flags and times.

  A word is a run of letters, digits and a few marks. A number may have underscores between
  its digits.
-/

import LinkedData.Hex
import LinkedData.Settings
import LinkedData.Toml.Time

namespace LinkedData.Toml

open LinkedData.Text

/-! ## Numbers -/

/-- Digits with single underscores between them: the digits. -/
def grouped? (ok : Char → Bool) : List Char → Option (List Char)
  | [] => none
  | [c] => if ok c then some [c] else none
  | c :: '_' :: cs => if ok c then (grouped? ok cs).map (c :: ·) else none
  | c :: cs => if ok c then (grouped? ok cs).map (c :: ·) else none

/-- Digits of a decimal number: a zero in front stands alone. -/
def decimal? (cs : List Char) : Option (List Char) := do
  let ds ← grouped? Char.isDigit cs
  if ds.head? = some '0' ∧ ds.length ≠ 1 then none else some ds

def baseValue? (base : Nat) (cs : List Char) : Option Int := do
  let ds ← grouped? (fun c => (Hex.digitValue? c).any (· < base)) cs
  int64? (ds.foldl (fun n c => base * n + (Hex.digitValue? c).getD 0) 0 : Nat)

def integer? : List Char → Option Int
  | '0' :: 'x' :: cs => baseValue? 16 cs
  | '0' :: 'o' :: cs => baseValue? 8 cs
  | '0' :: 'b' :: cs => baseValue? 2 cs
  | cs => do
    let (negative, cs) := unsigned cs
    let ds ← decimal? cs
    int64? (if negative then -(value ds : Int) else value ds)

/-- A power of ten after its mark, or nothing. -/
def exponent? : List Char → Option Int
  | [] => some 0
  | _ :: cs => do
    let (negative, cs) := unsigned cs
    let ds ← grouped? Char.isDigit cs
    some (if negative then -(value ds : Int) else value ds)

/-- A number with a fraction, an exponent or both; too large a number is none. -/
def real? (cs : List Char) : Option Binary64 := do
  let (negative, cs) := unsigned cs
  if cs = ['i', 'n', 'f'] then return .infinite negative
  if cs = ['n', 'a', 'n'] then return .nan
  let mantissa := cs.takeWhile (!isExponentMark ·)
  let power ← exponent? (cs.dropWhile (!isExponentMark ·))
  let whole ← decimal? (mantissa.takeWhile (· ≠ '.'))
  let part ← match mantissa.dropWhile (· ≠ '.') with
    | [] => some []
    | _ :: cs => grouped? Char.isDigit cs
  if part = [] ∧ ¬ cs.any isExponentMark then none
  let x := Binary64.ofDecimal negative (value (whole ++ part)) (whole ++ part).length (power - part.length)
  if x = .infinite false then none else some x

/-! ## Words -/

def wordChar (c : Char) : Bool := c.isAlphanum || ['+', '-', '_', '.', ':'].contains c

def word? (cs : List Char) : Option Setting :=
  if cs = "true".toList then some (.flag true)
  else if cs = "false".toList then some (.flag false)
  else match TimeForm.bare.time? cs with
    | some t => some (.text (String.ofList t))
    | none =>
      match integer? cs with
      | some n => some (.integer n)
      | none => (real? cs).map .real

/-- A word and the value it has. A date may have its time of day after a blank. -/
def word (cs : List Char) : Option (Setting × List Char) :=
  let first := cs.takeWhile wordChar
  let rest := cs.dropWhile wordChar
  let joined := match date? first, rest with
    | some (date, []), ' ' :: more =>
      (TimeForm.bare.clockAndOffset? (more.takeWhile wordChar)).map fun c => (date ++ 'T' :: c, more)
    | _, _ => none
  match joined with
  | some (t, more) => some (.text (String.ofList t), more.dropWhile wordChar)
  | none => (word? first).map (·, rest)

end LinkedData.Toml
