import OpeningTimes.Calendar.Date
import OpeningTimes.Text.Blank

/-! Dates read from a year, a month and a day in numbers. -/

namespace OpeningTimes

/-- The decimal digits that a text begins with, at most `limit` of them, and what follows them. -/
def splitDigits (limit : Nat) (text : List Char) : List Char × List Char :=
  let digits := (text.take limit).takeWhile Char.isDigit
  (digits, text.drop digits.length)

/-- A number of at most `limit` digits in front of a text, and what follows it. -/
def leadingNumber? (limit : Nat) (text : List Char) : Option (Nat × List Char) :=
  let (digits, rest) := splitDigits limit text
  (readDecimal? digits).map fun number => (number, rest)

/-- A year in front of a text: four digits at most, or any number of them behind a sign. -/
def leadingYear? (text : List Char) : Option (Int × List Char) :=
  match text.dropWhile isBlank with
  | '+' :: rest => (leadingNumber? rest.length rest).map fun (year, rest) => ((year : Int), rest)
  | '-' :: rest => (leadingNumber? rest.length rest).map fun (year, rest) => (-(year : Int), rest)
  | rest => (leadingNumber? 4 rest).map fun (year, rest) => ((year : Int), rest)

/-- A month or a day in front of a text: two digits at most, blanks allowed before them. -/
def leadingShort? (text : List Char) : Option (Nat × List Char) :=
  leadingNumber? 2 (text.dropWhile isBlank)

/-- What follows a dash in front of a text. -/
def afterDash? : List Char → Option (List Char)
  | '-' :: rest => some rest
  | _ => none

/-- The date that a text names by its year, month and day, with blanks allowed at both ends. -/
def Date.read? (text : List Char) : Option Date := do
  let (year, rest) ← leadingYear? (trimBlanks text)
  let (number, rest) ← leadingShort? (← afterDash? rest)
  let (day, rest) ← leadingShort? (← afterDash? rest)
  -- Nothing may follow the day, and the date must exist.
  if rest = [] then ofYearMonthDay? year (← Month.ofNumber? number) day else none

end OpeningTimes
