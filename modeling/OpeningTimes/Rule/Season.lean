import OpeningTimes.Calendar.Date
import OpeningTimes.Rule.Window

/-! Stretches of days that come back every year. -/

namespace OpeningTimes

/-- The days from one day of the year to another, going past the new year where needed. -/
abbrev Season := Window AnnualDay

namespace Season

/-- The season from the first day of one month to the last day of another. -/
def ofMonths (first last : Month) : Season :=
  ⟨.firstOf first, .lastOf last⟩

/-- The dates at which the season that begins in a given year starts and ends, if it takes place. -/
def occurrence? (season : Season) (year : Int) : Option (Date × Date) :=
  -- A season past the new year ends in the following year, and one of missing days alone never starts.
  match Date.firstFrom? year season.first,
      Date.lastUntil? (if season.wraps then year + 1 else year) season.last with
  | some first, some last => if first ≤ last then some (first, last) else none
  | _, _ => none

/-- A season as a rule writes it, such as `Aug 01 - Oct 31`. -/
def text (season : Season) : List Char :=
  season.first.text ++ [' ', '-', ' '] ++ season.last.text

end Season

end OpeningTimes
