/-
  LinkedData.Text.Quoted — text between quotes, for people to read.

  The quote and the backslash are escaped; NUL, tab, line feed and carriage return have short
  escapes; hidden and extending characters stand as their number, in hexadecimal, in braces.
-/

import LinkedData.Text.Printable

namespace LinkedData.Text

/-- `\u`, and the code point in braces. -/
def numbered (c : Char) : List Char := '\\' :: 'u' :: '\x7b' :: Nat.toDigits 16 c.toNat ++ ['\x7d']

def quoteChar (mark c : Char) : List Char :=
  if c = '\x00' then ['\\', '0']
  else if c = '\t' then ['\\', 't']
  else if c = '\n' then ['\\', 'n']
  else if c = '\r' then ['\\', 'r']
  else if c = '\\' ∨ c = mark then ['\\', c]
  else if isExtending c || isHidden c then numbered c
  else [c]

/-- Text between double quotes. -/
def quoted (s : String) : String := String.ofList ('"' :: s.toList.flatMap (quoteChar '"') ++ ['"'])

/-- One character between single quotes. -/
def quotedChar (c : Char) : String := String.ofList ('\'' :: quoteChar '\'' c ++ ['\''])

end LinkedData.Text
