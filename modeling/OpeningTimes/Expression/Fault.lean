import OpeningTimes.Expression.Token

/-! The reasons why a text is no opening hours expression. -/

namespace OpeningTimes

/-- What could have stood in the place of an unexpected token. -/
inductive Expectation where
  /-- Anything that an expression starts with. -/
  | selector
  /-- The end of an expression. -/
  | ending
  /-- A year that does not precede the beginning of its range. -/
  | laterYear
  /-- The abbreviation of a month. -/
  | month
  /-- The number of a day after its month. -/
  | dayNumber
  /-- The other end of a range of days. -/
  | day
  /-- The code of a weekday, or of public holidays. -/
  | dayCode
  /-- A weekday, as ranges do not extend to public holidays. -/
  | weekdayRange
  /-- A time of day. -/
  | time
  /-- The sign between the ends of a range. -/
  | dash
  deriving DecidableEq

/-- The wording of an expectation. -/
def Expectation.text : Expectation → String
  | selector => "a year, a month, a day or a time"
  | ending => "`;` or end of input"
  | laterYear => "a year after the start of the range"
  | month => "a month"
  | dayNumber => "a day number"
  | day => "a day"
  | dayCode => "a day code"
  | weekdayRange => "a range between two weekdays"
  | time => "a time"
  | dash => "`-`"

/-- The range that a number has left. -/
inductive Limit where
  /-- The years that a range can name. -/
  | year
  /-- The days of a year. -/
  | dayOfYear
  /-- The times of a day. -/
  | timeOfDay
  deriving DecidableEq

/-- The wording of a limit. -/
def Limit.text : Limit → String
  | year => "a year"
  | dayOfYear => "a day of the year"
  | timeOfDay => "a time between 00:00 and 24:00"

/-- Why a text is no expression. -/
inductive Fault where
  /-- No token starts at a character. -/
  | character (position : Nat) (found : Char)
  /-- A token stands where something else is needed. -/
  | token (expected : Expectation) (found : Token)
  /-- A number exceeds what it stands for. -/
  | tooLarge (value : List Char) (limit : Limit)
  deriving DecidableEq

namespace Fault

/-- The number of bytes in front of the offending place, where the fault has one. -/
def position? : Fault → Option Nat
  | character position _ => some position
  | token _ found => some found.position
  | tooLarge _ _ => none

/-- The wording of a fault. -/
def message : Fault → String
  | character position found => s!"unexpected character `{found}` at position {position}"
  | token expected found =>
    s!"expected {expected.text} at position {found.position}, found {found.display}"
  | tooLarge value limit => s!"{String.ofList value} is too large: expected {limit.text}"

end Fault

end OpeningTimes
