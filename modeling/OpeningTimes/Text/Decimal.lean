/-! Natural numbers written in decimal digits and read back. -/

namespace OpeningTimes

/-- The value of a run of decimal digits, the most significant digit first. -/
def digitsValue (digits : List Char) : Nat :=
  digits.foldl (fun value digit => 10 * value + (digit.toNat - '0'.toNat)) 0

/-- A nonempty text of decimal digits denotes its value, and any other text denotes nothing. -/
def readDecimal? (text : List Char) : Option Nat :=
  if text ≠ [] ∧ text.all Char.isDigit then some (digitsValue text) else none

/-- The number below 256 that a text of decimal digits denotes, if it denotes such a number. -/
def readByte? (text : List Char) : Option Nat :=
  (readDecimal? text).filter (· < 256)

/-- The last `width` decimal digits of a number. -/
def lastDigits : Nat → Nat → List Char
  -- The last digit is written after the ones in front of it.
  | 0, _ => []
  | width + 1, number => lastDigits width (number / 10) ++ [Nat.digitChar (number % 10)]

/-- A number in decimal digits, with zeros in front where it has fewer digits than `width`. -/
def padded (width number : Nat) : List Char :=
  -- A number that needs more room keeps all of its digits.
  if number < Nat.pow 10 width then lastDigits width number else Nat.toDigits 10 number

end OpeningTimes
