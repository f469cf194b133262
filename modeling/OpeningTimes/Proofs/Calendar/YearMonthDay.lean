import OpeningTimes.Calendar.Date

/-!
Dates follow each other by year, then by month, then by day, and these three name one date at most.
-/

namespace OpeningTimes

/-- The years before a later year have at least 365 days each. -/
theorem daysBeforeYear_add_le {year later : Int} (ordered : year ≤ later) :
    daysBeforeYear year + 365 * (later - year) ≤ daysBeforeYear later := by
  -- The leap days counted by the quotients never decrease in total.
  unfold daysBeforeYear
  omega

/-- The first supported day begins a year. -/
theorem daysBeforeYear_earliest : daysBeforeYear (-262143) = earliestDay := by decide

/-- The last supported day ends a year. -/
theorem daysBeforeYear_latest : daysBeforeYear 262143 = latestDay + 1 := by decide

/-- A day between two successive new years is in the year that the first of them begins. -/
theorem yearOfDays_eq {year days : Int} (begun : daysBeforeYear year ≤ days)
    (running : days < daysBeforeYear (year + 1)) : yearOfDays days = year := by
  have foundBegun := daysBeforeYear_yearOfDays_le days
  have foundRunning := lt_daysBeforeYear_succ_yearOfDays days
  -- Any other year has ended before the day or begins after it.
  rcases Int.lt_trichotomy (yearOfDays days) year with before | same | after
  · have := daysBeforeYear_add_le (show yearOfDays days + 1 ≤ year by omega)
    omega
  · exact same
  · have := daysBeforeYear_add_le (show year + 1 ≤ yearOfDays days by omega)
    omega

namespace Month

/-- Every month has its 28th. -/
theorem le_length (leap : Bool) (month : Month) : 28 ≤ month.length leap := by
  revert leap
  cases month <;> decide

/-- A leap year puts at most one more day in front of a month. -/
theorem daysBefore_leap_bounds (month : Month) :
    month.daysBefore false ≤ month.daysBefore true ∧
      month.daysBefore true ≤ month.daysBefore false + 1 := by
  cases month <;> decide

/-- A month ends before any later month begins. -/
theorem daysBefore_add_length_le (leap : Bool) {month later : Month}
    (ordered : month.number < later.number) :
    month.daysBefore leap + month.length leap ≤ later.daysBefore leap := by
  revert leap ordered
  cases month <;> cases later <;> decide

/-- Every month ends within the year. -/
theorem daysBefore_add_length_le_year (leap : Bool) (month : Month) :
    month.daysBefore leap + month.length leap ≤ 365 + leap.toNat := by
  revert leap
  cases month <;> decide

/-- December ends with the year. -/
theorem daysBefore_december (leap : Bool) :
    december.daysBefore leap + december.length leap = 365 + leap.toNat := by
  revert leap
  decide

/-- A month is found by its number. -/
theorem ofNumber?_number (month : Month) : ofNumber? month.number = some month := by
  cases month <;> rfl

/-- A month is found by its own number and by no other. -/
theorem ofNumber?_eq_some_iff {number : Int} {month : Month} :
    ofNumber? number = some month ↔ (month.number : Int) = number := by
  constructor
  · intro found
    exact eq_of_beq (List.find?_some
      (p := fun month : Month => (month.number : Int) == number) found)
  · rintro rfl
    exact ofNumber?_number month

/-- A month is determined by its number. -/
theorem eq_of_number {left right : Month} (same : left.number = right.number) : left = right := by
  -- Both are what is found by the one number.
  have found := ofNumber?_number left
  rw [same, ofNumber?_number right] at found
  exact (Option.some.inj found).symm

/-- A month that misses one of the first 31 days is not the last one. -/
theorem number_lt_december {leap : Bool} {month : Month} (short : month.length leap < 31) :
    month.number < december.number := by
  revert leap short
  cases month <;> decide

/--
An earlier day of a year has fewer days in front of it than a later day of another year.

Where only the first of these years has a leap day, that day is not counted.
-/
theorem daysBefore_add_lt {leap : Bool} (laterLeap : Bool) {month later : Month}
    {day laterDay : Nat} (within : day ≤ month.length leap) (positive : 1 ≤ laterDay)
    (ordered : month.number < later.number ∨ month.number = later.number ∧ day < laterDay) :
    month.daysBefore leap + day < later.daysBefore laterLeap + laterDay + leap.toNat := by
  have months := month.daysBefore_leap_bounds
  have laterMonths := later.daysBefore_leap_bounds
  -- The other year has at least as many days in front of a month as a common one.
  have common : later.daysBefore false ≤ later.daysBefore laterLeap := by
    cases laterLeap
    · exact Nat.le_refl _
    · exact laterMonths.1
  rcases ordered with before | ⟨same, before⟩
  · -- The earlier month is over before the later one begins in the same year.
    have ended := daysBefore_add_length_le leap before
    cases leap
    · simp only [Bool.toNat_false]
      omega
    · simp only [Bool.toNat_true]
      omega
  · -- In the same month the days themselves decide.
    rw [eq_of_number same] at months ⊢
    cases leap
    · simp only [Bool.toNat_false]
      omega
    · simp only [Bool.toNat_true]
      omega

/-- A day of the year within a month is found in that month. -/
theorem ofDayOfYear_eq (leap : Bool) {month : Month} {day : Nat}
    (begun : month.daysBefore leap ≤ day)
    (running : day < month.daysBefore leap + month.length leap) : ofDayOfYear leap day = month := by
  have within := daysBefore_add_length_le_year leap month
  obtain ⟨foundBegun, foundRunning⟩ :=
    ofDayOfYear_bounds leap (show day < 365 + leap.toNat by omega)
  -- Two different months do not share a day.
  rcases Nat.lt_trichotomy (ofDayOfYear leap day).number month.number with before | same | after
  · have := daysBefore_add_length_le leap before
    omega
  · exact eq_of_number same
  · have := daysBefore_add_length_le leap after
    omega

end Month

namespace AnnualDay

/--
A day of the year comes before another one if its month does, or its number within the same month.
-/
theorem lt_iff {left right : AnnualDay} :
    left < right ↔ left.month.number < right.month.number ∨
      left.month.number = right.month.number ∧ left.day < right.day := by
  have := left.one_le_day
  have := left.day_le
  have := right.one_le_day
  have := right.day_le
  -- The rank counts months first, and has room for all days of a month.
  rw [lt_iff_rank]
  unfold rank
  omega

/--
A day of the year comes no later than another one if its month is earlier, or its number no later
within the same month.
-/
theorem le_iff {left right : AnnualDay} :
    left ≤ right ↔ left.month.number < right.month.number ∨
      left.month.number = right.month.number ∧ left.day ≤ right.day := by
  -- It comes no later unless the other day comes first.
  have strict : right < left ↔ _ := lt_iff
  rw [lt_iff_rank] at strict
  rw [le_iff_rank]
  omega

end AnnualDay

namespace Date

/-- A date is within the year that it belongs to. -/
theorem number_bounds (date : Date) :
    daysBeforeYear date.year ≤ date.number ∧ date.number < daysBeforeYear (date.year + 1) :=
  ⟨daysBeforeYear_yearOfDays_le date.number, lt_daysBeforeYear_succ_yearOfDays date.number⟩

/-- The year of a date is a supported one. -/
theorem year_bounds (date : Date) : -262143 ≤ date.year ∧ date.year ≤ 262142 := by
  obtain ⟨begun, running⟩ := date.number_bounds
  have earliest := date.earliest_le
  have latest := date.le_latest
  -- The supported days are those from one new year up to another.
  rw [← daysBeforeYear_earliest] at earliest
  have lastDay := daysBeforeYear_latest
  constructor
  · by_cases before : date.year < -262143
    · have := daysBeforeYear_add_le (show date.year + 1 ≤ -262143 by omega)
      omega
    · omega
  · by_cases after : 262142 < date.year
    · have := daysBeforeYear_add_le (show 262143 ≤ date.year by omega)
      omega
    · omega

/-- Later dates are not in earlier years. -/
theorem year_le_of_le {left right : Date} (ordered : left ≤ right) : left.year ≤ right.year := by
  have leftBounds := left.number_bounds
  have rightBounds := right.number_bounds
  rw [le_iff_number] at ordered
  -- Otherwise the whole of the later date's year precedes the earlier date.
  by_cases before : right.year < left.year
  · have := daysBeforeYear_add_le (show right.year + 1 ≤ left.year by omega)
    omega
  · omega

/-- Dates of an earlier year come first. -/
theorem lt_of_year_lt {left right : Date} (ordered : left.year < right.year) : left < right := by
  have leftBounds := left.number_bounds
  have rightBounds := right.number_bounds
  have := daysBeforeYear_add_le (show left.year + 1 ≤ right.year by omega)
  rw [lt_iff_number]
  omega

/-- A year, a month and a day name the one date that has them. -/
theorem ofYearMonthDay?_eq_some_iff {year : Int} {month : Month} {day : Nat} {date : Date} :
    ofYearMonthDay? year month day = some date ↔
      date.year = year ∧ date.month = month ∧ date.day = day := by
  constructor
  · -- What is found has the number that the three of them count up to.
    intro found
    unfold ofYearMonthDay? at found
    split at found
    · rename_i inMonth
      rw [ofNumber?_eq_some_iff] at found
      have within := month.daysBefore_add_length_le_year (isLeapYear year)
      -- That number lies between the beginning of the year and the next one, hence in that year.
      have sameYear : date.year = year :=
        yearOfDays_eq (by omega) (by rw [daysBeforeYear_succ]; omega)
      have counted : date.dayOfYear = month.daysBefore (isLeapYear year) + day - 1 := by
        unfold dayOfYear
        rw [sameYear]
        omega
      -- Within the year it lies in the month, and within the month it is the day.
      have sameMonth : date.month = month := by
        unfold Date.month inLeapYear
        rw [sameYear, counted]
        exact Month.ofDayOfYear_eq _ (by omega) (by omega)
      refine ⟨sameYear, sameMonth, ?_⟩
      unfold Date.day inLeapYear
      rw [sameMonth, sameYear, counted]
      omega
    · contradiction
  · -- And a date is found by its own year, month and day.
    rintro ⟨rfl, rfl, rfl⟩
    exact date.ofYearMonthDay?_self

/-- An existing day of a supported year has a date. -/
theorem exists_ofYearMonthDay? {year : Int} (earliest : -262143 ≤ year) (latest : year ≤ 262142)
    (month : Month) {day : Nat} (positive : 1 ≤ day)
    (within : day ≤ month.length (isLeapYear year)) :
    ∃ date, ofYearMonthDay? year month day = some date := by
  -- The supported days go from the beginning of the first year to the end of the last one.
  have beforeEnd := month.daysBefore_add_length_le_year (isLeapYear year)
  have longYear := daysBeforeYear_succ year
  have low := daysBeforeYear_add_le earliest
  have high := daysBeforeYear_add_le (show year + 1 ≤ 262143 by omega)
  have first := daysBeforeYear_earliest
  have last := daysBeforeYear_latest
  unfold ofYearMonthDay? ofNumber?
  rw [if_pos ⟨positive, within⟩, dif_pos (by constructor <;> omega)]
  exact ⟨_, rfl⟩

/-- The day of the year that a date falls on is in the month of the date. -/
@[simp] theorem annualDay_month (date : Date) : date.annualDay.month = date.month := rfl

/-- The day of the year that a date falls on has the number of the date within its month. -/
@[simp] theorem annualDay_day (date : Date) : date.annualDay.day = date.day := rfl

/-- Within a year the dates follow each other like the days that they fall on. -/
theorem lt_iff_annualDay {left right : Date} (sameYear : left.year = right.year) :
    left < right ↔ left.annualDay < right.annualDay := by
  have leftNumber := left.number_eq
  have rightNumber := right.number_eq
  have leftDay := left.day_le_length
  have rightDay := right.day_le_length
  have leftPositive : 1 ≤ left.day := left.annualDay.one_le_day
  have rightPositive : 1 ≤ right.day := right.annualDay.one_le_day
  unfold inLeapYear at *
  rw [sameYear] at leftNumber leftDay
  rw [lt_iff_number, AnnualDay.lt_iff, annualDay_month, annualDay_month, annualDay_day,
    annualDay_day]
  rcases Nat.lt_trichotomy left.month.number right.month.number with before | same | after
  · -- An earlier month is over before a later one begins.
    have := Month.daysBefore_add_length_le (isLeapYear right.year) before
    omega
  · -- In the same month the numbers of the days decide.
    rw [Month.eq_of_number same] at leftNumber
    omega
  · have := Month.daysBefore_add_length_le (isLeapYear right.year) after
    omega

/-- Within a year the dates are ordered like the days that they fall on. -/
theorem le_iff_annualDay {left right : Date} (sameYear : left.year = right.year) :
    left ≤ right ↔ left.annualDay ≤ right.annualDay := by
  have reversed := lt_iff_annualDay sameYear.symm
  rw [lt_iff_number, AnnualDay.lt_iff_rank] at reversed
  rw [le_iff_number, AnnualDay.le_iff_rank]
  omega

/-- Within 365 days at most one new year passes. -/
theorem year_le_add_one {date later : Date} (near : later.number ≤ date.number + 365) :
    later.year ≤ date.year + 1 := by
  have bounds := date.number_bounds
  have laterBounds := later.number_bounds
  -- Two new years would have a whole year between them.
  by_cases further : date.year + 1 < later.year
  · have := daysBeforeYear_add_le (show date.year + 1 + 1 ≤ later.year by omega)
    have := daysBeforeYear_succ (date.year + 1)
    omega
  · omega

/-- A later day of the following year is more than 365 days ahead. -/
theorem lt_of_annualDay_lt {date later : Date} (nextYear : later.year = date.year + 1)
    (ordered : date.annualDay < later.annualDay) : date.number + 365 < later.number := by
  have number := date.number_eq
  have laterNumber := later.number_eq
  have longYear := daysBeforeYear_succ date.year
  have withinMonth := date.day_le_length
  have positive : 1 ≤ later.day := later.annualDay.one_le_day
  unfold inLeapYear at *
  rw [nextYear] at laterNumber
  -- A longer year makes up for a leap day that is missing in front of the later date.
  have counted : date.month.daysBefore (isLeapYear date.year) + date.day <
      later.month.daysBefore (isLeapYear (date.year + 1)) + later.day +
        (isLeapYear date.year).toNat :=
    Month.daysBefore_add_lt _ withinMonth positive (AnnualDay.lt_iff.mp ordered)
  omega

end Date

end OpeningTimes
