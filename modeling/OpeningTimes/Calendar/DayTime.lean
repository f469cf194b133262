import OpeningTimes.Text.Decimal

/-! Times of a day in whole minutes, up to the midnight that ends it. -/

namespace OpeningTimes

/-- A time of day in minutes since it began, where 24:00 is the end of the day. -/
structure DayTime where
  /-- The number of minutes since the day began. -/
  minutes : Nat
  /-- A day ends after 24 hours. -/
  minutes_le : minutes ≤ 1440
  deriving DecidableEq

namespace DayTime

instance : LE DayTime := ⟨fun left right => left.minutes ≤ right.minutes⟩

instance : LT DayTime := ⟨fun left right => left.minutes < right.minutes⟩

instance (left right : DayTime) : Decidable (left ≤ right) :=
  inferInstanceAs (Decidable (left.minutes ≤ right.minutes))

instance (left right : DayTime) : Decidable (left < right) :=
  inferInstanceAs (Decidable (left.minutes < right.minutes))

/-- Times are compared by their minutes. -/
theorem le_iff_minutes {left right : DayTime} : left ≤ right ↔ left.minutes ≤ right.minutes := Iff.rfl

/-- Times are compared strictly by their minutes. -/
theorem lt_iff_minutes {left right : DayTime} : left < right ↔ left.minutes < right.minutes := Iff.rfl

/-- A time of day is determined by its minutes. -/
theorem eq_of_minutes {left right : DayTime} (same : left.minutes = right.minutes) :
    left = right := by
  cases left
  cases right
  simpa using same

/-- The beginning of the day, 00:00. -/
def dayStart : DayTime := ⟨0, by decide⟩

/-- The end of the day, 24:00. -/
def dayEnd : DayTime := ⟨1440, by decide⟩

/-- The time a number of minutes after the day began, if the day lasts that long. -/
def ofMinutes? (minutes : Nat) : Option DayTime :=
  if within : minutes ≤ 1440 then some ⟨minutes, within⟩ else none

/-- The time at a full hour and a minute of it, where 24 is an hour at its minute 0 only. -/
def ofHourMinute? (hour minute : Nat) : Option DayTime :=
  if minute < 60 then ofMinutes? (60 * hour + minute) else none

/-- The full hours of a time. -/
def hour (time : DayTime) : Nat :=
  time.minutes / 60

/-- The minutes of a time beyond its full hours. -/
def minute (time : DayTime) : Nat :=
  time.minutes % 60

/-- A time on the clock, such as `09:30`. -/
def text (time : DayTime) : List Char :=
  padded 2 time.hour ++ [':'] ++ padded 2 time.minute

end DayTime

end OpeningTimes
