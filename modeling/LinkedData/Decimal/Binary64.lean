/-
  LinkedData.Decimal.Binary64 — floating-point numbers of 64 bits, read from decimal digits.

  A finite number is a natural number times a power of two, at most 53 bits long and with an
  exponent of at least -1074. `ofDecimal` gives the one nearest to a decimal, and of two
  equally near the even one; so do `mul` and `div` with a product and a quotient. All of it is
  integer arithmetic.
-/

import LinkedData.Text.Digits

namespace LinkedData

inductive Binary64
  | nan
  | infinite (negative : Bool)
  /-- `m * 2^e`. -/
  | finite (negative : Bool) (m : Nat) (e : Int)
  deriving DecidableEq, Repr

namespace Binary64

def leastExponent : Int := -1074

def greatestExponent : Int := 971

/-- The numerator and the denominator of `n * base^k`. -/
def fractionOf (base n : Nat) (k : Int) : Nat × Nat :=
  match k with
  | .ofNat k => (n * Nat.pow base k, 1)
  | .negSucc k => (n, Nat.pow base (k + 1))

/-- The quotient to the nearest natural number, a tie to the even one. -/
def roundDiv (num den : Nat) : Nat :=
  let q := num / den
  let r := num % den
  if den < 2 * r ∨ (2 * r = den ∧ q % 2 = 1) then q + 1 else q

/-- `num / den` in units of `2^e`, as a numerator and a denominator. -/
def inUnits (num den : Nat) (e : Int) : Nat × Nat :=
  match e with
  | .ofNat e => (num, den <<< e)
  | .negSucc e => (num <<< (e + 1), den)

/-- The exponent for which `num / den` has 53 bits before the point, or the least one. -/
def exponentFor (num den : Nat) : Int :=
  let e : Int := num.log2 - den.log2 - 52
  let (a, b) := inUnits num den e
  max leastExponent (if b <<< 52 ≤ a then e else e - 1)

def zero (negative : Bool) : Binary64 := .finite negative 0 leastExponent

/-- The number nearest to `num / den`. -/
def ofFraction (negative : Bool) (num den : Nat) : Binary64 :=
  if num = 0 then zero negative
  else
    let e := exponentFor num den
    let (a, b) := inUnits num den e
    let m := roundDiv a b
    let (m, e) := if m = 1 <<< 53 then (1 <<< 52, e + 1) else (m, e)
    if greatestExponent < e then .infinite negative else .finite negative m e

/-- The number nearest to `n * 10^k`, `n` having `digits` digits. What is far out of range is not
    worked out. -/
def ofDecimal (negative : Bool) (n digits : Nat) (k : Int) : Binary64 :=
  if n = 0 ∨ digits + k < -330 then zero negative
  else if 310 < k then .infinite negative
  else
    let (num, den) := fractionOf 10 n k
    ofFraction negative num den

def ofNat (n : Nat) : Binary64 := ofFraction false n 1

def neg : Binary64 → Binary64
  | .nan => .nan
  | .infinite negative => .infinite (!negative)
  | .finite negative m e => .finite (!negative) m e

/-- `num / den * 2^e`, to the nearest number. -/
def ofScaled (negative : Bool) (num den : Nat) (e : Int) : Binary64 :=
  match e with
  | .ofNat k => ofFraction negative (num <<< k) den
  | .negSucc k => ofFraction negative num (den <<< (k + 1))

def mul : Binary64 → Binary64 → Binary64
  | .finite s m e, .finite s' m' e' => ofScaled (s != s') (m * m') 1 (e + e')
  | .nan, _ | _, .nan => .nan
  | .infinite s, .infinite s' => .infinite (s != s')
  | .infinite s, .finite s' m _ | .finite s' m _, .infinite s => if m = 0 then .nan else .infinite (s != s')

def div : Binary64 → Binary64 → Binary64
  | .finite s m e, .finite s' m' e' =>
    if m' ≠ 0 then ofScaled (s != s') m m' (e - e') else if m = 0 then .nan else .infinite (s != s')
  | .nan, _ | _, .nan | .infinite _, .infinite _ => .nan
  | .infinite s, .finite s' _ _ => .infinite (s != s')
  | .finite s _ _, .infinite s' => zero (s != s')

/-- Not zero; what is no number is not zero either. -/
def isNonzero : Binary64 → Bool
  | .finite _ m _ => m ≠ 0
  | _ => true

/-- The nearest natural number up to `most`, a half going up; what is negative or no number is zero. -/
def toNat (most : Nat) : Binary64 → Nat
  | .nan | .infinite true | .finite true .. => 0
  | .infinite false => most
  | .finite false m e =>
    match e with
    | .ofNat e => min most (m <<< e)
    | .negSucc e => min most ((m + 1 <<< e) >>> (e + 1))

end Binary64

end LinkedData
