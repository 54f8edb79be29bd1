/-
  LinkedData.Decimal.Shortest — the shortest decimal that reads back as a given number.

  The decimals that read back as a number lie between the middles to its neighbours, the
  middles included when it is even. For one digit, two digits and so on, the two decimals of
  that many digits next to the number are tried; the first count with a hit wins, and of two
  hits the nearer, or the greater of two as near. The text is positional, however large or
  small the number.
-/

import LinkedData.Decimal.Binary64

namespace LinkedData.Binary64

/-- A number between two bounds, as numerators of one denominator. -/
structure Interval where
  low : Nat
  value : Nat
  high : Nat
  den : Nat
  /-- The bounds belong to it. -/
  closed : Bool

/-- The decimals that read back as `m * 2^e`, in quarters of a unit. The neighbour below a power of
    two is nearer than the one above. -/
def interval (m : Nat) (e : Int) : Interval :=
  let below := if m = 1 <<< 52 ∧ leastExponent < e then 1 else 2
  let scale (n : Nat) : Nat × Nat := fractionOf 2 n (e - 2)
  ⟨(scale (4 * m - below)).1, (scale (4 * m)).1, (scale (4 * m + 2)).1, (scale 1).2, m % 2 = 0⟩

/-- `n * 10^k` is in the interval. -/
def Interval.holds (i : Interval) (n : Nat) (k : Int) : Bool :=
  let (num, den) := fractionOf 10 n k
  let a := num * i.den
  if i.closed then i.low * den ≤ a && a ≤ i.high * den else i.low * den < a && a < i.high * den

/-- The greatest `p` with `10^p` at most the number. -/
def Interval.magnitude (i : Interval) : Int :=
  let guess : Int := ((i.value.log2 : Int) - i.den.log2) * 30103 / 100000
  let fits (p : Int) : Bool :=
    let (num, den) := fractionOf 10 1 p
    num * i.den ≤ i.value * den
  if fits (guess + 1) then guess + 1 else if fits guess then guess else guess - 1

/-- The decimal with `count` digits that is in the interval and nearest to the number, if one is. -/
def Interval.withDigits (i : Interval) (count : Nat) : Option (Nat × Int) :=
  let k := i.magnitude + 1 - count
  let (num, den) := fractionOf 10 1 k
  let unit := num * i.den
  let q := i.value * den / unit
  let r := i.value * den % unit
  match i.holds q k, i.holds (q + 1) k with
  | true, true => some (if 2 * r < unit then (q, k) else (q + 1, k))
  | true, false => some (q, k)
  | false, true => some (q + 1, k)
  | false, false => none

/-- The shortest decimal of `m * 2^e`: its digits, and the power of ten of the last one. Seventeen
    digits are always enough. -/
def shortest (m : Nat) (e : Int) : Nat × Int :=
  ((List.range 17).findSome? fun n => (interval m e).withDigits (n + 1)).getD (m, e)

/-- The digits of `n` with the last one at `10^k`. -/
def positional (n : Nat) (k : Int) : List Char :=
  let digits := Text.natural n
  match k with
  | .ofNat k => digits ++ List.replicate k '0'
  | .negSucc k =>
    let digits := List.replicate (k + 2 - digits.length) '0' ++ digits
    digits.take (digits.length - (k + 1)) ++ '.' :: digits.drop (digits.length - (k + 1))

def signed (negative : Bool) (cs : List Char) : String := String.ofList (if negative then '-' :: cs else cs)

/-- Trailing zeros moved into the power of ten. -/
def trimZeros (n : Nat) (k : Int) : Nat × Int :=
  if h : n ≠ 0 ∧ n % 10 = 0 then trimZeros (n / 10) (k + 1) else (n, k)
termination_by n

def text : Binary64 → String
  | .nan => "NaN"
  | .infinite negative => signed negative ['i', 'n', 'f']
  | .finite negative 0 _ => signed negative ['0']
  | .finite negative m e =>
    let (n, k) := shortest m e
    let (n, k) := trimZeros n k
    signed negative (positional n k)

end LinkedData.Binary64
