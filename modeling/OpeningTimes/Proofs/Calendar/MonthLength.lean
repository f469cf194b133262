import OpeningTimes.Proofs.Calendar.YearMonthDay

/-!
Months follow each other without a gap, so that counting from one to the next gives their lengths.

The last supported month has no next one and is long enough all the same.
-/

namespace OpeningTimes

namespace Month

/-- Months are numbered from one to twelve. -/
theorem number_range (month : Month) : 1 ≤ month.number ∧ month.number ≤ 12 := by
  cases month <;> decide

/-- A month begins where the month in front of it ends. -/
theorem daysBefore_next (leap : Bool) {month next : Month}
    (follows : next.number = month.number + 1) :
    next.daysBefore leap = month.daysBefore leap + month.length leap := by
  revert leap follows
  cases month <;> cases next <;> decide

/-- Every month of a year is followed by another one, up to December. -/
theorem exists_next {month : Month} (early : month.number < december.number) :
    ∃ next : Month, next.number = month.number + 1 := by
  -- Only the numbers from two to twelve are asked for, and each of them names a month.
  have named : (ofNumber? (month.number + 1)).isSome := by
    revert early
    cases month <;> decide
  obtain ⟨next, found⟩ := Option.isSome_iff_exists.mp named
  have number := ofNumber?_eq_some_iff.mp found
  exact ⟨next, by omega⟩

end Month

/-- The number of days from 1 January of year 1 to the beginning of a month. -/
def monthStart (year : Int) (month : Month) : Int :=
  daysBeforeYear year + month.daysBefore (isLeapYear year)

/-- The next month begins when a month is over, be it in the same year or in the following one. -/
theorem monthStart_next {year nextYear : Int} {month next : Month}
    (follows : 12 * nextYear + next.number = 12 * year + month.number + 1) :
    monthStart nextYear next = monthStart year month + month.length (isLeapYear year) := by
  have range := month.number_range
  have nextRange := next.number_range
  unfold monthStart
  by_cases last : month.number = 12
  · -- December ends with its year, and the next month is the first one of the following year.
    have isDecember : month = .december := Month.eq_of_number last
    have isJanuary : next = .january := Month.eq_of_number (show next.number = 1 by omega)
    have following : nextYear = year + 1 := by omega
    have untilEnd := Month.daysBefore_december (isLeapYear year)
    have begins : Month.january.daysBefore (isLeapYear (year + 1)) = 0 := rfl
    rw [isDecember, isJanuary, following, daysBeforeYear_succ, begins]
    omega
  · -- Any other month has its next one in the same year.
    have sameYear : nextYear = year := by omega
    rw [sameYear, Month.daysBefore_next _ (show next.number = month.number + 1 by omega)]
    omega

namespace Date

/-- A day of the month of a date is found when that month is long enough. -/
theorem exists_withDay? (date : Date) {day : Nat} (positive : 1 ≤ day)
    (within : day ≤ date.month.length date.inLeapYear) :
    ∃ found, date.withDay? day = some found := by
  -- The year of a date is supported, and with it all of its days.
  obtain ⟨earliest, latest⟩ := date.year_bounds
  exact exists_ofYearMonthDay? earliest latest date.month positive within

/-- The first day of the month of a date stands where that month begins. -/
theorem number_of_withDay?_one {date first : Date} (found : date.withDay? 1 = some first) :
    first.number = monthStart date.year date.month := by
  obtain ⟨sameYear, sameMonth, sameDay⟩ := ofYearMonthDay?_eq_some_iff.mp found
  have number := first.number_eq
  unfold inLeapYear at number
  rw [sameYear, sameMonth, sameDay] at number
  unfold monthStart
  omega

/-- Adding months counts them through, and a day that is missing then gives way to the last one. -/
theorem addMonths?_eq_some_iff {date later : Date} {months : Int} :
    date.addMonths? months = some later ↔
      12 * later.year + later.month.number = 12 * date.year + date.month.number + months ∧
        later.day = min date.day (later.month.length later.inLeapYear) := by
  have range := later.month.number_range
  unfold addMonths? inLeapYear
  simp only [Option.bind_eq_some_iff, Month.ofNumber?_eq_some_iff, ofYearMonthDay?_eq_some_iff]
  constructor
  · -- The year and the month are the quotient and the remainder of the count.
    rintro ⟨month, counted, sameYear, sameMonth, sameDay⟩
    rw [← sameMonth] at counted sameDay
    rw [← sameYear] at sameDay
    exact ⟨by omega, sameDay⟩
  · -- Numbers of months run up to twelve, so the count tells the year and the month apart.
    rintro ⟨counted, sameDay⟩
    have sameYear : later.year = (12 * date.year + date.month.number - 1 + months) / 12 := by omega
    refine ⟨later.month, by omega, sameYear, rfl, ?_⟩
    rw [← sameYear]
    exact sameDay

/-- A month later there is a date again, except behind the last supported month. -/
theorem exists_addMonths?_one {date : Date}
    (early : date.year < 262142 ∨ date.month.number < 12) :
    ∃ later, date.addMonths? 1 = some later := by
  have range := date.month.number_range
  have positive : 1 ≤ date.day := date.annualDay.one_le_day
  obtain ⟨earliest, latest⟩ := date.year_bounds
  -- The month behind December begins the next year, and the others are followed within theirs.
  obtain ⟨year, month, supported, counted⟩ : ∃ (year : Int) (month : Month),
      (-262143 ≤ year ∧ year ≤ 262142) ∧
        12 * year + month.number = 12 * date.year + date.month.number + 1 := by
    by_cases last : date.month.number = 12
    · exact ⟨date.year + 1, .january, by omega, by rw [last]; simp only [Month.number]; omega⟩
    · obtain ⟨next, number⟩ := Month.exists_next (show date.month.number < 12 by omega)
      exact ⟨date.year, next, ⟨earliest, latest⟩, by omega⟩
  have someDay := month.le_length (isLeapYear year)
  obtain ⟨later, found⟩ := exists_ofYearMonthDay? supported.1 supported.2 month
    (show 1 ≤ min date.day (month.length (isLeapYear year)) by omega) (Nat.min_le_right _ _)
  obtain ⟨sameYear, sameMonth, sameDay⟩ := ofYearMonthDay?_eq_some_iff.mp found
  refine ⟨later, addMonths?_eq_some_iff.mpr ⟨by rw [sameYear, sameMonth]; exact counted, ?_⟩⟩
  rw [sameDay, inLeapYear, sameYear, sameMonth]

/-- A month after the first day of a month, the next month of that year begins, up to December. -/
theorem exists_monthBehind {date : Date} (begins : date.day = 1) (early : date.month.number < 12) :
    ∃ next, date.addMonths? 1 = some next ∧ next.year = date.year ∧
      next.month.number = date.month.number + 1 ∧ next.day = 1 := by
  obtain ⟨next, found⟩ := exists_addMonths?_one (.inr early)
  obtain ⟨following, sameDay⟩ := addMonths?_eq_some_iff.mp found
  -- The next number is one of a month, so the count stays in the year.
  have range := next.month.number_range
  have sameYear : next.year = date.year := by omega
  have someDay := next.month.le_length next.inLeapYear
  exact ⟨next, found, sameYear, by omega, by omega⟩

/-- The days counted from a month to the next one are those of the month, in every supported month. -/
theorem daysInMonth_eq (date : Date) :
    date.daysInMonth = date.month.length date.inLeapYear := by
  have someDay := date.month.le_length date.inLeapYear
  have atMost := Month.length_le date.inLeapYear date.month
  unfold daysInMonth
  cases following : date.addMonths? 1 with
  | none =>
    -- Only the last December has no month behind it.
    have range := date.month.number_range
    have ends : ¬ (date.year < 262142 ∨ date.month.number < 12) := by
      intro early
      obtain ⟨later, found⟩ := exists_addMonths?_one early
      rw [found] at following
      contradiction
    have isDecember : date.month = .december :=
      Month.eq_of_number (show date.month.number = 12 by omega)
    rw [isDecember]
    rfl
  | some later =>
    -- Both months begin with a first day, and one begins where the other ends.
    have laterDay := later.month.le_length later.inLeapYear
    obtain ⟨first, begins⟩ := date.exists_withDay? (Nat.le_refl 1) (by omega)
    obtain ⟨next, nextBegins⟩ := later.exists_withDay? (Nat.le_refl 1) (by omega)
    have number := number_of_withDay?_one begins
    have nextNumber := number_of_withDay?_one nextBegins
    rw [monthStart_next (addMonths?_eq_some_iff.mp following).1] at nextNumber
    have counted : next.number - first.number = date.month.length date.inLeapYear := by
      unfold inLeapYear
      omega
    simp only [begins, nextBegins, counted]
    rw [if_pos (by omega), Int.toNat_natCast]

/-- The last supported month has no month behind it to count to, and the one in front of it has. -/
example : (ofNumber? latestDay).map (fun last => (last.addMonths? 1, last.daysInMonth)) =
      some (none, 31) ∧
    ((ofNumber? latestDay).bind (·.addMonths? (-1))).map daysInMonth = some 30 := by
  decide +kernel

end Date

end OpeningTimes
