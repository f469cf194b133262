import OpeningTimes.Calendar.AnnualDay
import OpeningTimes.Calendar.Weekday

/-! Dates of the Gregorian calendar, extended to all supported years, as consecutive day numbers. -/

namespace OpeningTimes

/-- Leap years are the multiples of four, except the full centuries that are no multiple of 400. -/
def isLeapYear (year : Int) : Bool :=
  year % 4 == 0 && (year % 100 != 0 || year % 400 == 0)

/-- The number of days from 1 January of year 1 to 1 January of a year. -/
def daysBeforeYear (year : Int) : Int :=
  -- Every year has 365 days, and each leap year in between adds one.
  365 * (year - 1) + (year - 1) / 4 - (year - 1) / 100 + (year - 1) / 400

/-- The year that holds the day a number of days after 1 January of year 1. -/
def yearOfDays (days : Int) : Int :=
  -- 400 years have 146097 days, so the mean year is at most one off.
  let guess := 400 * days / 146097 + 1
  if daysBeforeYear (guess + 1) ≤ days then guess + 1
  else if days < daysBeforeYear guess then guess - 1
  else guess

/-- The year of a day has begun by that day. -/
theorem daysBeforeYear_yearOfDays_le (days : Int) : daysBeforeYear (yearOfDays days) ≤ days := by
  unfold yearOfDays
  dsimp only
  split
  · assumption
  · split
    · unfold daysBeforeYear at *
      omega
    · omega

/-- The year of a day is not over on that day. -/
theorem lt_daysBeforeYear_succ_yearOfDays (days : Int) :
    days < daysBeforeYear (yearOfDays days + 1) := by
  unfold yearOfDays
  dsimp only
  split
  · unfold daysBeforeYear at *
    omega
  · split
    · simpa using by assumption
    · omega

/-- A year is a common or a leap year long. -/
theorem daysBeforeYear_succ (year : Int) :
    daysBeforeYear (year + 1) = daysBeforeYear year + 365 + (isLeapYear year).toNat := by
  -- The three quotients grow together exactly in a leap year.
  have counted : (isLeapYear year).toNat =
      if year % 4 = 0 ∧ (year % 100 ≠ 0 ∨ year % 400 = 0) then 1 else 0 := by
    unfold isLeapYear
    split <;> simp_all
  rw [counted]
  unfold daysBeforeYear
  split <;> omega

/-- The first supported day, 1 January of year -262143. -/
def earliestDay : Int := -95746130

/-- The last supported day, 31 December of year 262142. -/
def latestDay : Int := 95745398

/-- A date, as the number of days since 1 January of year 1, within the supported years. -/
structure Date where
  /-- The number of days since 1 January of year 1. -/
  number : Int
  /-- No date precedes the first supported day. -/
  earliest_le : earliestDay ≤ number
  /-- No date follows the last supported day. -/
  le_latest : number ≤ latestDay
  deriving DecidableEq

namespace Date

instance : LE Date := ⟨fun left right => left.number ≤ right.number⟩

instance : LT Date := ⟨fun left right => left.number < right.number⟩

instance (left right : Date) : Decidable (left ≤ right) :=
  inferInstanceAs (Decidable (left.number ≤ right.number))

instance (left right : Date) : Decidable (left < right) :=
  inferInstanceAs (Decidable (left.number < right.number))

/-- Dates are compared by their day numbers. -/
theorem le_iff_number {left right : Date} : left ≤ right ↔ left.number ≤ right.number := Iff.rfl

/-- Dates are compared strictly by their day numbers. -/
theorem lt_iff_number {left right : Date} : left < right ↔ left.number < right.number := Iff.rfl

/-- A date is determined by its day number. -/
theorem eq_of_number {left right : Date} (same : left.number = right.number) : left = right := by
  cases left
  cases right
  simpa using same

/-- The date with a given day number, if it is supported. -/
def ofNumber? (number : Int) : Option Date :=
  if bounds : earliestDay ≤ number ∧ number ≤ latestDay then some ⟨number, bounds.1, bounds.2⟩ else none

/-- A date is found by its own day number and by no other. -/
theorem ofNumber?_eq_some_iff {number : Int} {date : Date} :
    ofNumber? number = some date ↔ date.number = number := by
  unfold ofNumber?
  split
  · -- A supported number gives the date that has it.
    rw [Option.some.injEq]
    exact ⟨fun same => same ▸ rfl, fun same => eq_of_number same.symm⟩
  · -- The number of a date is supported, so another number is meant.
    rename_i outside
    have earliest := date.earliest_le
    have latest := date.le_latest
    constructor
    · intro impossible
      cases impossible
    · intro same
      exact absurd ⟨same ▸ earliest, same ▸ latest⟩ outside

/-- The date a number of days later, if it is supported. -/
def addDays? (date : Date) (days : Int) : Option Date :=
  ofNumber? (date.number + days)

/-- Adding days adds to the day number. -/
theorem addDays?_eq_some_iff {date later : Date} {days : Int} :
    date.addDays? days = some later ↔ later.number = date.number + days :=
  ofNumber?_eq_some_iff

/-- The year of a date. -/
def year (date : Date) : Int :=
  yearOfDays date.number

/-- The year of a date is a leap year. -/
def inLeapYear (date : Date) : Bool :=
  isLeapYear date.year

/-- The number of days between 1 January and a date of the same year. -/
def dayOfYear (date : Date) : Nat :=
  (date.number - daysBeforeYear date.year).toNat

/-- The day of the year stays below the length of the year. -/
theorem dayOfYear_lt (date : Date) : date.dayOfYear < 365 + date.inLeapYear.toNat := by
  -- The year of a date has begun and is not over.
  have begun := daysBeforeYear_yearOfDays_le date.number
  have running := lt_daysBeforeYear_succ_yearOfDays date.number
  rw [daysBeforeYear_succ] at running
  unfold dayOfYear inLeapYear year
  omega

/-- The month of a date. -/
def month (date : Date) : Month :=
  Month.ofDayOfYear date.inLeapYear date.dayOfYear

/-- The number of a date within its month. -/
def day (date : Date) : Nat :=
  date.dayOfYear - date.month.daysBefore date.inLeapYear + 1

/-- A date never exceeds the length of its month. -/
theorem day_le_length (date : Date) : date.day ≤ date.month.length date.inLeapYear := by
  have bounds := Month.ofDayOfYear_bounds date.inLeapYear date.dayOfYear_lt
  unfold day month
  omega

/-- The day of the year that a date falls on. -/
def annualDay (date : Date) : AnnualDay :=
  ⟨date.month, date.day, Nat.le_add_left _ _, Nat.le_trans date.day_le_length (Month.length_le _ _)⟩

/-- The weekday of a date. -/
def weekday (date : Date) : Weekday :=
  -- The first day of year 1 is a Monday.
  Weekday.ofIndex (date.number % 7).toNat

/-- The date of a year, month and day, if it exists and is supported. -/
def ofYearMonthDay? (year : Int) (month : Month) (day : Nat) : Option Date :=
  if 1 ≤ day ∧ day ≤ month.length (isLeapYear year) then
    ofNumber? (daysBeforeYear year + month.daysBefore (isLeapYear year) + day - 1)
  else none

/-- A date is made up of the days before its year, before its month and before itself. -/
theorem number_eq (date : Date) :
    date.number = daysBeforeYear date.year + date.month.daysBefore date.inLeapYear + date.day - 1 := by
  -- Neither the day of the year nor the day of the month is cut off at zero.
  have begun : daysBeforeYear date.year ≤ date.number := daysBeforeYear_yearOfDays_le date.number
  have bounds := (Month.ofDayOfYear_bounds date.inLeapYear date.dayOfYear_lt).1
  have counted : (date.dayOfYear : Int) = date.number - daysBeforeYear date.year := by
    unfold dayOfYear
    omega
  unfold day month
  omega

/-- Every date is found by its own year, month and day. -/
theorem ofYearMonthDay?_self (date : Date) :
    ofYearMonthDay? date.year date.month date.day = some date := by
  -- The day exists in its month, and it leads back to the same day number.
  have inMonth : 1 ≤ date.day ∧ date.day ≤ date.month.length (isLeapYear date.year) :=
    ⟨Nat.le_add_left _ _, date.day_le_length⟩
  unfold ofYearMonthDay?
  rw [if_pos inMonth, ofNumber?_eq_some_iff]
  exact date.number_eq

/-- The date with another number in the same month, if that month has such a day. -/
def withDay? (date : Date) (day : Nat) : Option Date :=
  ofYearMonthDay? date.year date.month day

/-- The date a number of months later, no later in its month than that month lasts. -/
def addMonths? (date : Date) (months : Int) : Option Date :=
  -- All months are counted through, twelve of them to a year.
  let count := 12 * date.year + date.month.number - 1 + months
  let year := count / 12
  (Month.ofNumber? (count % 12 + 1)).bind fun month =>
    ofYearMonthDay? year month (min date.day (month.length (isLeapYear year)))

/-- The number of days in the month of a date, as the next month begins so many days after it. -/
def daysInMonth (date : Date) : Nat :=
  match date.addMonths? 1 with
  | none => 31 -- No month is supported behind the last December.
  | some later =>
    match date.withDay? 1, later.withDay? 1 with
    | some first, some next =>
      let days := next.number - first.number
      if 0 ≤ days ∧ days < 256 then days.toNat else 31
    | _, _ => 31

/-- The first date of a year that is not before a given day, the next month starting where the day is missing. -/
def firstFrom? (year : Int) (annual : AnnualDay) : Option Date :=
  (ofYearMonthDay? year annual.month 1).bind fun first =>
    -- A day beyond the end of its month leads to the month behind it.
    if annual.day ≤ first.daysInMonth then first.withDay? annual.day else first.addMonths? 1

/-- The last date of a year that is not after a given day, the end of the month where the day is missing. -/
def lastUntil? (year : Int) (annual : AnnualDay) : Option Date :=
  (ofYearMonthDay? year annual.month 1).bind fun first =>
    first.withDay? (min annual.day first.daysInMonth)

/-- The first date from a given one on that falls on a weekday, if the calendar goes on until then. -/
def nextOn? (date : Date) (weekday : Weekday) : Option Date :=
  date.addDays? (date.weekday.daysUntil weekday).toNat

/-- The date a week later, if the calendar goes on until then. -/
def weekLater? (date : Date) : Option Date :=
  date.addDays? 7

/-- The dates from one on that are weeks apart, until the calendar ends or a last date is passed. -/
def weeklyUntil (last : Date) : Option Date → List Date
  | none => []
  | some date => if date ≤ last then date :: weeklyUntil last date.weekLater? else []
termination_by next => next.elim 0 fun date => (latestDay + 1 - date.number).toNat
decreasing_by
  -- Each step comes closer to the end of the calendar, or it leaves the calendar and is the last.
  have latest := date.le_latest
  cases found : date.weekLater? with
  | none =>
    dsimp only [Option.elim]
    omega
  | some later =>
    have number := addDays?_eq_some_iff.mp found
    dsimp only [Option.elim]
    omega

/-- The dates of one weekday from a first date to a last one, both included. -/
def onWeekday (weekday : Weekday) (first last : Date) : List Date :=
  weeklyUntil last (first.nextOn? weekday)

/-- A year in four digits, with a sign where it is negative or needs more of them. -/
def yearText (year : Int) : List Char :=
  if year < 0 then '-' :: padded 4 year.natAbs
  else if year ≤ 9999 then padded 4 year.natAbs
  else '+' :: padded 4 year.natAbs

/-- A date in numbers, such as `2020-12-25`. -/
def text (date : Date) : List Char :=
  yearText date.year ++ ['-'] ++ padded 2 date.month.number ++ ['-'] ++ padded 2 date.day

end Date

end OpeningTimes
