/-
  LinkedData.Decimal.Reader — decimals read as floating-point numbers.

  A decimal has digits with a point among them or beside them, and perhaps a power of ten
  after a mark; the special values have names, in any case. What is read is the number
  nearest to the decimal.
-/

import LinkedData.Decimal.Binary64

namespace LinkedData.Binary64

/-- The digits of a decimal, before and after its point, and its power of ten. -/
def parts? (cs : List Char) : Option (List Char × List Char × Int) := do
  let whole := cs.takeWhile Char.isDigit
  let rest := cs.dropWhile Char.isDigit
  let (part, rest) := match rest with
    | '.' :: rest => (rest.takeWhile Char.isDigit, rest.dropWhile Char.isDigit)
    | rest => ([], rest)
  if whole ++ part = [] then none
  match rest with
  | [] => some (whole, part, 0)
  | mark :: rest => if Text.isExponentMark mark then (Text.signed? rest).map (whole, part, ·) else none

def ofText? (cs : List Char) : Option Binary64 :=
  let (negative, cs) := Text.unsigned cs
  let word := String.ofList (cs.map Char.toLower)
  if word = "inf" ∨ word = "infinity" then some (.infinite negative)
  else if word = "nan" then some .nan
  else (parts? cs).map fun (whole, part, power) =>
    .ofDecimal negative (Text.value (whole ++ part)) (whole ++ part).length (power - part.length)

end LinkedData.Binary64
