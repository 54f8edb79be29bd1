/-
  LinkedData.Hex — bytes as pairs of hexadecimal digits.

  Written in lower case, read in either. `decodeFrom_encodeChars`: what is written is read back.
-/

import LinkedData.Text.Quoted

namespace LinkedData

abbrev Bytes := List UInt8

namespace Hex

/-- Why a text is no bytes. -/
inductive Fault
  | odd
  | character (c : Char) (at_ : Nat)
  deriving DecidableEq, Repr

def Fault.message : Fault → String
  | odd => "Odd number of digits"
  | character c i => "Invalid character " ++ Text.quotedChar c ++ " at position " ++ toString i

def digit (n : Nat) : Char := Nat.digitChar n

def byte (b : UInt8) : List Char := [digit (b.toNat / 16), digit (b.toNat % 16)]

def encodeChars (bs : Bytes) : List Char := bs.flatMap byte

def encode (bs : Bytes) : String := String.ofList (encodeChars bs)

def digitValue? (c : Char) : Option Nat :=
  if '0' ≤ c ∧ c ≤ '9' then some (c.toNat - 48)
  else if 'a' ≤ c ∧ c ≤ 'f' then some (c.toNat - 87)
  else if 'A' ≤ c ∧ c ≤ 'F' then some (c.toNat - 55)
  else none

/-- The number that some digits stand for. -/
def value? (cs : List Char) : Option Nat := cs.foldlM (fun n c => (digitValue? c).map (16 * n + ·)) 0

def isDigit (c : Char) : Bool := (digitValue? c).isSome

def decodeFrom : Nat → List Char → Except Fault Bytes
  | _, [] => .ok []
  | _, [_] => .error .odd
  | i, a :: b :: rest =>
    match digitValue? a, digitValue? b with
    | some x, some y => (decodeFrom (i + 2) rest).map (UInt8.ofNat (16 * x + y) :: ·)
    | none, _ => .error (.character a i)
    | some _, none => .error (.character b (i + 1))

theorem digitValue?_digit {n : Nat} (h : n < 16) : digitValue? (digit n) = some n := by
  have all : ∀ n : Fin 16, digitValue? (digit n) = some n.val := by decide
  exact all ⟨n, h⟩

theorem decodeFrom_encodeChars (i : Nat) (bs : Bytes) : decodeFrom i (encodeChars bs) = .ok bs := by
  induction bs generalizing i with
  | nil => rfl
  | cons b bs ih =>
    have hb : b.toNat < 256 := b.toNat_lt
    simp only [encodeChars, List.flatMap_cons, byte, List.cons_append, List.nil_append, decodeFrom,
      digitValue?_digit (show b.toNat / 16 < 16 by omega), digitValue?_digit (show b.toNat % 16 < 16 by omega)]
    rw [show List.flatMap byte bs = encodeChars bs from rfl, ih]
    simp only [Except.map, Except.ok.injEq, List.cons.injEq, and_true]
    rw [show 16 * (b.toNat / 16) + b.toNat % 16 = b.toNat by omega]
    exact UInt8.ofNat_toNat

theorem length_encodeChars (bs : Bytes) : (encodeChars bs).length = 2 * bs.length := by
  induction bs with
  | nil => rfl
  | cons b bs ih => simp only [encodeChars, List.flatMap_cons, List.length_append, byte, List.length_cons,
      List.length_nil] at ih ⊢; omega

/-- The text byte by byte, each byte as the character of its number. -/
def byteChars (s : String) : List Char := s.toUTF8.data.toList.map fun b => Char.ofNat b.toNat

/-- An odd length is noticed first, then the first character that is no digit. -/
def decode (s : String) : Except Fault Bytes :=
  let cs := byteChars s
  if cs.length % 2 = 1 then .error .odd else decodeFrom 0 cs

end Hex

end LinkedData
