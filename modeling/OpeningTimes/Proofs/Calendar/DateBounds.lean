import OpeningTimes.Proofs.Calendar.MonthLength
import Mathlib.Data.Prod.Lex
import Mathlib.Order.Bounds.Defs

/-!
Days of the year bound the dates of every year, also where they are missing there.

A missing day gives way to the month behind it or to the end of its own month, as the counted days of that month tell.
-/

namespace OpeningTimes

/-- Days of the year are ordered by month first, and by number within a month. -/
theorem AnnualDay.le_iff_toLex {left right : AnnualDay} : left ≤ right ↔
    toLex (left.month.number, left.day) ≤ toLex (right.month.number, right.day) := by
  rw [le_iff, Prod.Lex.toLex_le_toLex]

namespace Date

/-- A date is found in supported years only. -/
theorem supported_of_found {year : Int} {month : Month} {day : Nat} {date : Date}
    (found : ofYearMonthDay? year month day = some date) : -262143 ≤ year ∧ year ≤ 262142 := by
  rw [← (ofYearMonthDay?_eq_some_iff.mp found).1]
  exact date.year_bounds

/-- Every month of a supported year begins with a date. -/
theorem exists_monthBegin {year : Int} (earliest : -262143 ≤ year) (latest : year ≤ 262142)
    (month : Month) : ∃ begin, ofYearMonthDay? year month 1 = some begin ∧
      begin.year = year ∧ begin.month = month ∧ begin.day = 1 := by
  have someDay := month.le_length (isLeapYear year)
  obtain ⟨begin, found⟩ :=
    exists_ofYearMonthDay? earliest latest month (Nat.le_refl 1) (by omega)
  exact ⟨begin, found, ofYearMonthDay?_eq_some_iff.mp found⟩

/-- No date of a year lies between a day that its month misses and the first day of the month behind. -/
theorem le_iff_of_missing {next date : Date} {annual : AnnualDay} (sameYear : next.year = date.year)
    (behind : next.month.number = annual.month.number + 1) (begins : next.day = 1)
    (missing : annual.month.length (isLeapYear date.year) < annual.day) :
    next ≤ date ↔ annual ≤ date.annualDay := by
  have within := date.day_le_length
  have positive : 1 ≤ date.day := date.annualDay.one_le_day
  unfold inLeapYear at within
  rw [le_iff_annualDay sameYear, AnnualDay.le_iff, AnnualDay.le_iff]
  simp only [annualDay_month, annualDay_day]
  by_cases same : date.month.number = annual.month.number
  · -- Within the month no date exceeds its length, and so none reaches the missing day.
    rw [Month.eq_of_number same] at within
    omega
  · omega

/-- A day of the year splits the dates of a year at the first date that is found for it. -/
theorem exists_firstFrom? {year : Int} (earliest : -262143 ≤ year) (latest : year ≤ 262142)
    (annual : AnnualDay) : ∃ first, firstFrom? year annual = some first ∧ first.year = year ∧
      ∀ date : Date, date.year = year → (first ≤ date ↔ annual ≤ date.annualDay) := by
  -- The month begins in that year, and its counted days are its length.
  obtain ⟨start, begins, startYear, startMonth, startDay⟩ :=
    exists_monthBegin earliest latest annual.month
  have counted : start.daysInMonth = annual.month.length (isLeapYear year) := by
    rw [daysInMonth_eq, startMonth, inLeapYear, startYear]
  unfold firstFrom?
  rw [begins, Option.bind_some, counted]
  split
  · -- The day exists in that year, so its date is the one to compare with.
    rename_i within
    obtain ⟨first, found⟩ :=
      exists_ofYearMonthDay? earliest latest annual.month annual.one_le_day within
    obtain ⟨sameYear, sameMonth, sameDay⟩ := ofYearMonthDay?_eq_some_iff.mp found
    refine ⟨first, ?_, sameYear, fun date inYear => ?_⟩
    · rw [withDay?, startYear, startMonth]
      exact found
    · rw [le_iff_annualDay (sameYear.trans inYear.symm), AnnualDay.le_iff, AnnualDay.le_iff]
      rw [annualDay_month first, annualDay_day first, sameMonth, sameDay]
  · -- The day is missing, so its month is not the last one and the month behind takes its place.
    rename_i missing
    have bounded := annual.day_le
    have early : annual.month.number < 12 :=
      Month.number_lt_december (show annual.month.length (isLeapYear year) < 31 by omega)
    rw [← startMonth] at early
    obtain ⟨next, found, sameYear, behind, nextDay⟩ := exists_monthBehind startDay early
    rw [startYear] at sameYear
    rw [startMonth] at behind
    refine ⟨next, found, sameYear, fun date inYear => ?_⟩
    exact le_iff_of_missing (sameYear.trans inYear.symm) behind nextDay (by rw [inYear]; omega)

/-- A day of the year splits the dates of a year behind the last date that is found for it. -/
theorem exists_lastUntil? {year : Int} (earliest : -262143 ≤ year) (latest : year ≤ 262142)
    (annual : AnnualDay) : ∃ last, lastUntil? year annual = some last ∧ last.year = year ∧
      ∀ date : Date, date.year = year → (date ≤ last ↔ date.annualDay ≤ annual) := by
  obtain ⟨start, begins, startYear, startMonth, -⟩ :=
    exists_monthBegin earliest latest annual.month
  -- A day that is missing is cut down to the end of its month, which exists in every year.
  have someDay := annual.month.le_length (isLeapYear year)
  have positive := annual.one_le_day
  obtain ⟨last, found⟩ := exists_ofYearMonthDay? earliest latest annual.month
    (show 1 ≤ min annual.day (annual.month.length (isLeapYear year)) by omega)
    (Nat.min_le_right _ _)
  obtain ⟨sameYear, sameMonth, sameDay⟩ := ofYearMonthDay?_eq_some_iff.mp found
  refine ⟨last, ?_, sameYear, fun date inYear => ?_⟩
  · unfold lastUntil?
    rw [begins, Option.bind_some, daysInMonth_eq, withDay?, inLeapYear, startMonth, startYear]
    exact found
  · have within := date.day_le_length
    unfold inLeapYear at within
    rw [inYear] at within
    rw [le_iff_annualDay (inYear.trans sameYear.symm), AnnualDay.le_iff, AnnualDay.le_iff]
    simp only [annualDay_month, annualDay_day, sameMonth, sameDay]
    by_cases same : date.month.number = annual.month.number
    · -- Within the month no date exceeds its length, so cutting the day down changes nothing.
      rw [Month.eq_of_number same] at within
      omega
    · omega

/-- The first date found for a day of the year is in that year, which it splits at that day. -/
theorem firstFrom?_spec {year : Int} {annual : AnnualDay} {first : Date}
    (found : firstFrom? year annual = some first) :
    first.year = year ∧ ∀ date : Date, date.year = year →
      (first ≤ date ↔ annual ≤ date.annualDay) := by
  -- The year is a supported one, since its month begins with a date.
  obtain ⟨_, begins, -⟩ := Option.bind_eq_some_iff.mp found
  obtain ⟨earliest, latest⟩ := supported_of_found begins
  obtain ⟨start, foundStart, inYear, splits⟩ := exists_firstFrom? earliest latest annual
  cases foundStart.symm.trans found
  exact ⟨inYear, splits⟩

/-- The last date found for a day of the year is in that year, which it splits behind that day. -/
theorem lastUntil?_spec {year : Int} {annual : AnnualDay} {last : Date}
    (found : lastUntil? year annual = some last) :
    last.year = year ∧ ∀ date : Date, date.year = year →
      (date ≤ last ↔ date.annualDay ≤ annual) := by
  obtain ⟨_, begins, -⟩ := Option.bind_eq_some_iff.mp found
  obtain ⟨earliest, latest⟩ := supported_of_found begins
  obtain ⟨stop, foundStop, inYear, splits⟩ := exists_lastUntil? earliest latest annual
  cases foundStop.symm.trans found
  exact ⟨inYear, splits⟩

/-- The dates of a year from a day on, by month first and then by number. -/
def datesFrom (year : Int) (annual : AnnualDay) : Set Date :=
  {date | date.year = year ∧
    toLex (annual.month.number, annual.day) ≤ toLex (date.month.number, date.day)}

/-- The dates of a year up to a day, by month first and then by number. -/
def datesUntil (year : Int) (annual : AnnualDay) : Set Date :=
  {date | date.year = year ∧
    toLex (date.month.number, date.day) ≤ toLex (annual.month.number, annual.day)}

/-- The dates from a day on are those that do not fall on earlier days of the year. -/
theorem mem_datesFrom {year : Int} {annual : AnnualDay} {date : Date} :
    date ∈ datesFrom year annual ↔ date.year = year ∧ annual ≤ date.annualDay := by
  rw [AnnualDay.le_iff_toLex]
  exact Iff.rfl

/-- The dates up to a day are those that do not fall on later days of the year. -/
theorem mem_datesUntil {year : Int} {annual : AnnualDay} {date : Date} :
    date ∈ datesUntil year annual ↔ date.year = year ∧ date.annualDay ≤ annual := by
  rw [AnnualDay.le_iff_toLex]
  exact Iff.rfl

/--
A day bounds the dates of every supported year, whether that year has the day or not.

The smallest date from the day on is found and the greatest one up to it, and in other years none.
-/
theorem annualBounds_exact (year : Int) (annual : AnnualDay) :
    ((-262143 ≤ year ∧ year ≤ 262142) ∧
      (∃ first, firstFrom? year annual = some first ∧ IsLeast (datesFrom year annual) first) ∧
      ∃ last, lastUntil? year annual = some last ∧ IsGreatest (datesUntil year annual) last) ∨
    ((year < -262143 ∨ 262142 < year) ∧
      firstFrom? year annual = none ∧ lastUntil? year annual = none) := by
  by_cases supported : -262143 ≤ year ∧ year ≤ 262142
  · obtain ⟨first, found, firstYear, fromFirst⟩ :=
      exists_firstFrom? supported.1 supported.2 annual
    obtain ⟨last, foundLast, lastYear, untilLast⟩ :=
      exists_lastUntil? supported.1 supported.2 annual
    refine .inl ⟨supported, ⟨first, found, ?_, ?_⟩, last, foundLast, ?_, ?_⟩
    · -- The first date is not before itself, and so it is not before the day.
      exact mem_datesFrom.mpr ⟨firstYear, (fromFirst first firstYear).mp (Int.le_refl _)⟩
    · intro date listed
      obtain ⟨inYear, notBefore⟩ := mem_datesFrom.mp listed
      exact (fromFirst date inYear).mpr notBefore
    · exact mem_datesUntil.mpr ⟨lastYear, (untilLast last lastYear).mp (Int.le_refl _)⟩
    · intro date listed
      obtain ⟨inYear, notAfter⟩ := mem_datesUntil.mp listed
      exact (untilLast date inYear).mpr notAfter
  · -- A date that is found is in the year, which would then be a supported one.
    refine .inr ⟨by omega, ?_, ?_⟩
    · rw [Option.eq_none_iff_forall_ne_some]
      intro first found
      exact supported ((firstFrom?_spec found).1 ▸ first.year_bounds)
    · rw [Option.eq_none_iff_forall_ne_some]
      intro last found
      exact supported ((lastUntil?_spec found).1 ▸ last.year_bounds)

/-- The leap day of a common year gives way to the days around it. -/
example : let leapDay : AnnualDay := ⟨.february, 29, by decide, by decide⟩
    (firstFrom? 2021 leapDay).map text = some "2021-03-01".toList ∧
      (lastUntil? 2021 leapDay).map text = some "2021-02-28".toList ∧
        firstFrom? 262143 leapDay = none := by
  decide +kernel

/-- The dates from a new year on are those of its year and of the later ones. -/
theorem newYear_le_iff {year : Int} {first date : Date}
    (found : ofYearMonthDay? year .january 1 = some first) : first ≤ date ↔ year ≤ date.year := by
  obtain ⟨sameYear, sameMonth, sameDay⟩ := ofYearMonthDay?_eq_some_iff.mp found
  have number := first.number_eq
  -- No day of the year precedes the new year.
  have begins : Month.january.daysBefore first.inLeapYear = 0 := rfl
  rw [sameMonth, sameDay, sameYear, begins] at number
  have bounds := date.number_bounds
  rw [le_iff_number]
  constructor
  · -- The dates of an earlier year are over by then.
    intro after
    by_cases before : date.year < year
    · have := daysBeforeYear_add_le (show date.year + 1 ≤ year by omega)
      omega
    · omega
  · intro inYear
    have := daysBeforeYear_add_le inYear
    omega

/-- The dates up to the end of a year are those of its year and of the earlier ones. -/
theorem le_yearEnd_iff {year : Int} {last date : Date}
    (found : ofYearMonthDay? year .december 31 = some last) : date ≤ last ↔ date.year ≤ year := by
  obtain ⟨sameYear, sameMonth, sameDay⟩ := ofYearMonthDay?_eq_some_iff.mp found
  have number := last.number_eq
  -- The end of December is the last day in front of the next new year.
  have longYear := daysBeforeYear_succ year
  have untilEnd := Month.daysBefore_december (isLeapYear year)
  unfold inLeapYear at number
  rw [sameMonth, sameDay, sameYear] at number
  rw [show Month.december.length (isLeapYear year) = 31 from rfl] at untilEnd
  have bounds := date.number_bounds
  rw [le_iff_number]
  constructor
  · -- The dates of a later year have not begun by then.
    intro before
    by_cases after : year < date.year
    · have := daysBeforeYear_add_le (show year + 1 ≤ date.year by omega)
      omega
    · omega
  · intro inYear
    have := daysBeforeYear_add_le (show date.year + 1 ≤ year + 1 by omega)
    omega

end Date

end OpeningTimes
