/-
  LinkedData.Json.Number — the numbers of JSON documents, read.

  A whole number of 64 bits is an integer. Any other is made a floating-point number in two
  steps, each of them rounded: its digits as far as they fit into 64 bits, and those times or
  by a power of ten. So it is close to the decimal that is written, but it need not be the
  closest there is.
-/

import LinkedData.Settings

namespace LinkedData.Json

/-! ## Digits -/

/-- Digits added to a number as long as it has room for them in 64 bits: the number, and how many
    digits are left. -/
def accumulate (n : Nat) : List Char → Nat × Nat
  | [] => (n, 0)
  | c :: cs =>
    let more := 10 * n + Text.digitValue c
    if more < 1 <<< 64 then accumulate more cs else (n, cs.length + 1)

/-- The digits before and after a point, as a number and a power of ten. Digits that are left over
    count before the point, as if they were zeros. -/
def significand (whole part : List Char) : Nat × Int :=
  let (n, left) := accumulate 0 whole
  let (n, dropped) := accumulate n part
  (n, left - (part.length - dropped : Nat))

/-! ## Powers of ten -/

/-- The greatest power of ten that is a number. -/
def greatestPower : Int := 308

def power (k : Nat) : Binary64 := .ofDecimal false 1 1 k

/-- `x * 10^k`, if that is in range. -/
def scale (x : Binary64) (k : Int) : Option Binary64 :=
  if x.isNonzero = false then some x
  else if _h : k < -greatestPower then scale (x.div (power greatestPower.toNat)) (k + greatestPower)
  else if k < 0 then some (x.div (power k.natAbs))
  else if greatestPower < k then none
  else match x.mul (power k.toNat) with
    | .infinite _ => none
    | y => some y
termination_by (-k).toNat
decreasing_by simp only [greatestPower] at *; omega

/-! ## Numbers -/

/-- A whole number without needless zeros. -/
def whole? (cs : List Char) : Option (List Char) :=
  if cs = [] ∨ ¬ cs.all Char.isDigit ∨ (cs.head? = some '0' ∧ cs.length ≠ 1) then none else some cs

/-- The power of ten after its mark, or nothing. -/
def exponent? : List Char → Option Int
  | [] => some 0
  | _ :: cs => Text.signed? cs

/-- A power of ten from here on is not worked out. -/
def endlessExponent : Int := 1 <<< 31

/-- A number that has a fraction or a power of ten or is very long. -/
def real? (cs : List Char) : Option Binary64 := do
  let mantissa := cs.takeWhile (!Text.isExponentMark ·)
  let exponent ← exponent? (cs.dropWhile (!Text.isExponentMark ·))
  let whole ← whole? (mantissa.takeWhile (· ≠ '.'))
  let part ← match mantissa.dropWhile (· ≠ '.') with
    | [] => some []
    | _ :: cs => Text.digits? cs
  let (n, k) := significand whole part
  if exponent ≤ -endlessExponent then some (.zero false)
  else if endlessExponent ≤ exponent ∧ n ≠ 0 then none
  else scale (.ofNat n) (k + exponent)

/-- A zero with a minus sign is a real number. -/
def number? (cs : List Char) : Option Setting :=
  let (negative, ds) := match cs with
    | '-' :: ds => (true, ds)
    | ds => (false, ds)
  let signed (n : Nat) : Int := if negative then -(n : Int) else n
  let integer := (whole? ds).bind fun ds =>
    if negative ∧ Text.value ds = 0 then none else Text.int64? (signed (Text.value ds))
  match integer with
  | some n => some (.integer n)
  | none => (real? ds).map fun x => .real (if negative then x.neg else x)

end LinkedData.Json
