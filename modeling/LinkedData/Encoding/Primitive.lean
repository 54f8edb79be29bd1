/-
  LinkedData.Encoding.Primitive — numbers, text and sequences as bytes.

  Numbers have a fixed width, least byte first. Whatever has a length has it in front, as a
  number of eight bytes. A decoder answers with a value and the bytes after it.
-/

import LinkedData.Hex

namespace LinkedData.Encoding

/-- The last `width` bytes of `n`, the least first. -/
def number : Nat → Nat → Bytes
  | 0, _ => []
  | width + 1, n => UInt8.ofNat n :: number width (n / 256)

def decodeNumber : Nat → Bytes → Option (Nat × Bytes)
  | 0, bs => some (0, bs)
  | _ + 1, [] => none
  | width + 1, b :: bs => do
    let (high, rest) ← decodeNumber width bs
    some (b.toNat + 256 * high, rest)

/-- A length, or the number of an alternative. -/
def size (n : Nat) : Bytes := number 8 n

def tag (n : Nat) : Bytes := number 4 n

/-- The first `n` bytes, if there are so many. -/
def takeBytes (n : Nat) (bs : Bytes) : Option (Bytes × Bytes) :=
  if n ≤ bs.length then some (bs.take n, bs.drop n) else none

def utf8 (s : String) : Bytes := s.toUTF8.data.toList

def ofUtf8? (bs : Bytes) : Option String := String.fromUTF8? ⟨bs.toArray⟩

def text (s : String) : Bytes := size (utf8 s).length ++ utf8 s

def decodeText (bs : Bytes) : Option (String × Bytes) := do
  let (n, bs) ← decodeNumber 8 bs
  let (content, rest) ← takeBytes n bs
  let s ← ofUtf8? content
  some (s, rest)

def option {α : Type} (f : α → Bytes) : Option α → Bytes
  | none => [0]
  | some a => 1 :: f a

def decodeOption {α : Type} (f : Bytes → Option (α × Bytes)) : Bytes → Option (Option α × Bytes)
  | 0 :: bs => some (none, bs)
  | 1 :: bs => do
    let (a, rest) ← f bs
    some (some a, rest)
  | _ => none

def list {α : Type} (f : α → Bytes) (as : List α) : Bytes := size as.length ++ as.flatMap f

def decodeMany {α : Type} (f : Bytes → Option (α × Bytes)) : Nat → Bytes → Option (List α × Bytes)
  | 0, bs => some ([], bs)
  | n + 1, bs => do
    let (a, bs) ← f bs
    let (as, rest) ← decodeMany f n bs
    some (a :: as, rest)

def decodeList {α : Type} (f : Bytes → Option (α × Bytes)) (bs : Bytes) : Option (List α × Bytes) := do
  let (n, bs) ← decodeNumber 8 bs
  decodeMany f n bs

end LinkedData.Encoding
