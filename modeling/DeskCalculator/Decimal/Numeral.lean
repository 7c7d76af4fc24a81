import DeskCalculator.Binary64.Arithmetic
import DeskCalculator.Decimal.Shortest

/-!
How numbers are written and read.

A number is written with its shortest digits. From a millionth up to, but not
including, `10^21` the digits are written out; beyond that there is one digit before
the point and an exponent that always has a sign. Both zeros are written `0`.

A literal is a run of digits with at most one point and at least one digit, and it
stands for the nearest double.

* `Decimal.text`: the layout of the digits.
* `Binary64.numeral`: the text of a double.
* `readLiteral?`: the double of a literal.
-/

namespace DeskCalculator

/-! ### Writing -/

/-- The decimal exponents of numbers written out in full. -/
def writtenOut (exponent : Int) : Bool := -6 ≤ exponent && exponent ≤ 20

/-- The decimal digits of a number, most significant first. -/
def decimalDigits (n : Nat) : List Char := Nat.toDigits 10 n

/-- A run of zeros. -/
def zeros (n : Nat) : List Char := List.replicate n '0'

namespace Decimal

/-- The exponent of the leading digit. -/
def leadingExponent (d : Decimal) : Int :=
  (decimalDigits d.digits).length - 1 + d.exponent

/-- Digits written out in full, with zeros up to the point on whichever side needs them. -/
def positional (d : Decimal) : List Char :=
  let ds := decimalDigits d.digits
  if 0 ≤ d.exponent then ds ++ zeros d.exponent.toNat
  else
    let places := (-d.exponent).toNat
    if places < ds.length then
      ds.take (ds.length - places) ++ '.' :: ds.drop (ds.length - places)
    else
      '0' :: '.' :: (zeros (places - ds.length) ++ ds)

/-- The leading digit, a point before any others. -/
def mantissa : List Char → List Char
  | [] => []
  | [d] => [d]
  | d :: ds => d :: '.' :: ds

/-- An exponent with its sign. -/
def exponentText (e : Int) : List Char :=
  (if e < 0 then '-' else '+') :: decimalDigits e.natAbs

/-- One digit before the point, and the exponent. -/
def scientific (d : Decimal) : List Char :=
  mantissa (decimalDigits d.digits) ++ 'e' :: exponentText d.leadingExponent

/-- The layout that the size of the number calls for. -/
def text (d : Decimal) : List Char :=
  if writtenOut d.leadingExponent then d.positional else d.scientific

end Decimal

/-- The sign of a negative number. -/
def signText (negative : Bool) : List Char := if negative then ['-'] else []

/-- The characters of a double: its shortest digits, `0` for both zeros. -/
def Binary64.numeralChars : Binary64 → List Char
  | nan => ['N', 'a', 'N']
  | infinite s => signText s ++ ['i', 'n', 'f']
  | finite s n _ =>
    if n = 0 then ['0'] else signText s ++ (Decimal.shortest n).text

/-- The text of a double. -/
def Binary64.numeral (x : Binary64) : String := .ofList x.numeralChars

/-! ### Reading -/

/-- A run of digits and points is a literal when it has a digit and at most one point. -/
def isLiteral (run : List Char) : Bool :=
  run.any Char.isDigit && run.count '.' ≤ 1

/-- The number of characters after the point. -/
def placesAfterPoint (run : List Char) : Nat := (run.dropWhile (· ≠ '.')).length - 1

/-- The double nearest a literal. -/
def readLiteral? (run : List Char) : Option Binary64 :=
  if isLiteral run then
    some (.ofDecimal (Nat.ofDigitChars 10 (run.filter Char.isDigit) 0) (placesAfterPoint run))
  else none

end DeskCalculator
