import OpeningTimes.Calendar.ClockTime
import OpeningTimes.Calendar.Date

/-! Dates with clock readings, as a wall clock and a calendar beside it show them. -/

namespace OpeningTimes

/-- A date and a reading of the clock. -/
structure LocalTime where
  /-- The date on the calendar. -/
  date : Date
  /-- The reading of the clock. -/
  clock : ClockTime
  deriving DecidableEq

namespace LocalTime

/-- The number of seconds since the first day of year 1 began. -/
def seconds (time : LocalTime) : Int :=
  secondsPerDay * time.date.number + time.clock.second

/-- The place of a local time in the order of time, leap seconds included. -/
def rank (time : LocalTime) : Int :=
  2 * nanosPerSecond * time.seconds + time.clock.nanosecond

instance : LE LocalTime := ⟨fun left right => left.rank ≤ right.rank⟩

instance : LT LocalTime := ⟨fun left right => left.rank < right.rank⟩

instance (left right : LocalTime) : Decidable (left ≤ right) :=
  inferInstanceAs (Decidable (left.rank ≤ right.rank))

instance (left right : LocalTime) : Decidable (left < right) :=
  inferInstanceAs (Decidable (left.rank < right.rank))

instance : Min LocalTime := ⟨fun left right => if left ≤ right then left else right⟩

/-- Local times are compared by their places in time. -/
theorem le_iff_rank {left right : LocalTime} : left ≤ right ↔ left.rank ≤ right.rank := Iff.rfl

/-- Local times are compared strictly by their places in time. -/
theorem lt_iff_rank {left right : LocalTime} : left < right ↔ left.rank < right.rank := Iff.rfl

/-- The local time without its seconds. -/
def startOfMinute (time : LocalTime) : LocalTime :=
  ⟨time.date, time.clock.startOfMinute⟩

/-- The local time of a time of day on a date, where 24:00 is midnight of the next date. -/
def at? (date : Date) (time : DayTime) : Option LocalTime :=
  match time.clock? with
  | some clock => some ⟨date, clock⟩
  | none => (date.addDays? 1).map fun next => ⟨next, .midnight⟩

/-- The local time a number of seconds on, with the same fraction of a second. -/
def shift? (time : LocalTime) (seconds : Int) : Option LocalTime :=
  -- Whole days move the date, the rest moves the clock.
  let total := time.clock.second + seconds
  (time.date.addDays? (total / secondsPerDay)).map fun date =>
    ⟨date, (total % secondsPerDay).toNat, time.clock.nanosecond, by unfold secondsPerDay; omega,
      time.clock.nanosecond_lt⟩

/--
The local time after some seconds have passed.

A leap second takes part in this: the first second that passes from within it is its own end.
-/
def addSeconds? (time : LocalTime) (seconds : Int) : Option LocalTime :=
  let plain : LocalTime :=
    { time with clock := { time.clock with
        nanosecond := time.clock.nanosecond % nanosPerSecond
        nanosecond_lt := by unfold nanosPerSecond; omega } }
  if time.clock.nanosecond < nanosPerSecond ∨ seconds = 0 then time.shift? seconds
  else if 0 < seconds then plain.shift? seconds
  else plain.shift? (seconds + 1)

/-- The beginning of 1970, from which timestamps count. -/
def epoch : LocalTime :=
  ⟨⟨719162, by decide, by decide⟩, .midnight⟩

/-- The number of seconds since 1970 began. -/
def timestamp (time : LocalTime) : Int :=
  time.seconds - epoch.seconds

/-- The local time a number of seconds after 1970 began, if its date is supported. -/
def ofTimestamp? (timestamp : Int) : Option LocalTime :=
  epoch.shift? timestamp

/-- A local time with a sign between its date and its clock reading. -/
def textWith (separator : Char) (time : LocalTime) : List Char :=
  time.date.text ++ [separator] ++ time.clock.text

/-- A local time such as `2020-06-01 18:30:00`. -/
def text (time : LocalTime) : List Char :=
  time.textWith ' '

end LocalTime

end OpeningTimes
