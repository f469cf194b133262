import OpeningTimes.Calendar.DayTime
import OpeningTimes.Rule.Window

/-! Opening hours within a day. -/

namespace OpeningTimes

/-- Hours of a day, which go on in the early morning of the same day when they run past midnight. -/
abbrev Hours := Window DayTime

namespace Hours

/-- The hours of a day that is open all along. -/
def wholeDay : Hours := ⟨.dayStart, .dayEnd⟩

/-- The earliest open time of the day that is not before a given one. -/
def openingFrom? (hours : Hours) (time : DayTime) : Option DayTime :=
  -- Outside of the hours, an opening later that day can only be their beginning.
  if hours.contains time then some time
  else if time < hours.first then some hours.first
  else none

/-- Hours as a rule writes them, such as `10:00-18:00`. -/
def text (hours : Hours) : List Char :=
  hours.first.text ++ ['-'] ++ hours.last.text

end Hours

end OpeningTimes
