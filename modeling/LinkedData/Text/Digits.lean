/-
  LinkedData.Text.Digits — decimal digits: numbers of a fixed width, numbers padded to
  a least width, and the value of a run of digits, with a sign or without one.

  `value_fixed`: a fixed width keeps the number modulo the power of ten it has room for.
-/

namespace LinkedData.Text

def digitValue (c : Char) : Nat := c.toNat - '0'.toNat

/-- The number a run of digits denotes, most significant digit first. -/
def value (cs : List Char) : Nat := cs.foldl (fun n c => 10 * n + digitValue c) 0

/-- The last `width` digits of `n`. -/
def fixed : Nat → Nat → List Char
  | 0, _ => []
  | width + 1, n => fixed width (n / 10) ++ [Nat.digitChar (n % 10)]

/-- The integers of 64 bits. -/
def int64? (n : Int) : Option Int := if -(1 <<< 63 : Nat) ≤ n ∧ n < (1 <<< 63 : Nat) then some n else none

/-- What follows a sign, if there is one, and whether that is a minus sign. -/
def unsigned : List Char → Bool × List Char
  | '-' :: cs => (true, cs)
  | '+' :: cs => (false, cs)
  | cs => (false, cs)

/-- One digit or more, and nothing else. -/
def digits? (cs : List Char) : Option (List Char) := if cs = [] ∨ ¬ cs.all Char.isDigit then none else some cs

/-- Digits after a sign, or without one. -/
def signed? (cs : List Char) : Option Int :=
  let (negative, cs) := unsigned cs
  (digits? cs).map fun ds => if negative then -(value ds : Int) else value ds

/-- An integer of 64 bits, with or without a sign. -/
def integer? (cs : List Char) : Option Int := (signed? cs).bind int64?

def isExponentMark (c : Char) : Bool := c == 'e' || c == 'E'

def natural (n : Nat) : List Char := Nat.toDigits 10 n

/-- At least `width` digits: zeros in front of a shorter number. -/
def padded (width n : Nat) : List Char :=
  List.replicate (width - (natural n).length) '0' ++ natural n

/-- At least `width` characters, a minus sign counted among them. -/
def paddedInt (width : Nat) : Int → List Char
  | .ofNat n => padded width n
  | .negSucc n => '-' :: padded (width - 1) (n + 1)

@[simp] theorem length_fixed (width n : Nat) : (fixed width n).length = width := by
  induction width generalizing n with
  | zero => rfl
  | succ w ih => simp [fixed, ih]

theorem digitValue_digitChar {n : Nat} (h : n < 10) : digitValue (Nat.digitChar n) = n := by
  match n, h with
  | 0, _ | 1, _ | 2, _ | 3, _ | 4, _ | 5, _ | 6, _ | 7, _ | 8, _ | 9, _ => rfl

theorem value_append (cs : List Char) (c : Char) : value (cs ++ [c]) = 10 * value cs + digitValue c := by
  simp [value]

theorem value_fixed (width n : Nat) : value (fixed width n) = n % Nat.pow 10 width := by
  induction width generalizing n with
  | zero => simp [fixed, value, Nat.mod_one]
  | succ w ih =>
    rw [fixed, value_append, ih, digitValue_digitChar (Nat.mod_lt _ (by decide))]
    show 10 * (n / 10 % Nat.pow 10 w) + n % 10 = n % (Nat.pow 10 w * 10)
    rw [Nat.mul_comm _ 10, Nat.mod_mul, Nat.add_comm]

end LinkedData.Text
