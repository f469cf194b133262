import OpeningTimes.Proofs.Timetable.DayOpening
import OpeningTimes.Proofs.Timetable.SearchRange

/-! The openings of hours on a date: where they stand in time, and which open times they precede. -/

namespace OpeningTimes

/-- A clock shows the minutes of one day, the end of the day left out. -/
theorem ClockTime.minutes_dayTime_lt (clock : ClockTime) : clock.dayTime.minutes < 1440 := by
  have running := clock.second_lt
  unfold secondsPerDay at running
  show clock.second / 60 < 1440
  omega

namespace LocalTime

/-- Local times at the same place in time are the same. -/
theorem eq_of_rank {left right : LocalTime} (same : left.rank = right.rank) : left = right := by
  obtain ⟨leftDate, leftSecond, leftNano, leftRunning, leftShort⟩ := left
  obtain ⟨rightDate, rightSecond, rightNano, rightRunning, rightShort⟩ := right
  unfold rank seconds at same
  simp only [nanosPerSecond, secondsPerDay] at same leftRunning leftShort rightRunning rightShort
  -- The nanoseconds, the seconds and the date are the digits of the place.
  have sameNano : leftNano = rightNano := by omega
  have sameSecond : leftSecond = rightSecond := by omega
  have sameDate : leftDate = rightDate := Date.eq_of_number (by omega)
  subst sameNano sameSecond sameDate
  rfl

instance : Std.IsLinearOrder LocalTime where
  le_refl time := Int.le_refl time.rank
  le_trans _ _ _ := Int.le_trans
  le_antisymm _ _ forth back := eq_of_rank (Int.le_antisymm forth back)
  le_total left right := Int.le_total left.rank right.rank

instance : Std.LawfulOrderMin LocalTime where
  min_eq_or left right := by
    -- The smaller one is chosen, the left one of equal ones.
    show (if left ≤ right then left else right) = left ∨
      (if left ≤ right then left else right) = right
    split
    · exact .inl rfl
    · exact .inr rfl
  le_min_iff time left right := by
    show time ≤ (if left ≤ right then left else right) ↔ _
    split
    · rename_i ordered
      exact ⟨fun before => ⟨before, Int.le_trans before ordered⟩, And.left⟩
    · rename_i reversed
      have ordered : right ≤ left := Int.le_of_lt (Int.not_le.mp reversed)
      exact ⟨fun before => ⟨Int.le_trans before ordered, before⟩, And.right⟩

/-- The place of the minute of a local time in the order of time. -/
def minuteRank (time : LocalTime) : Int :=
  1440 * time.date.number + time.clock.dayTime.minutes

/-- A local time is a whole minute when it has no seconds. -/
def IsWholeMinute (time : LocalTime) : Prop :=
  time.startOfMinute = time

instance (time : LocalTime) : Decidable time.IsWholeMinute :=
  inferInstanceAs (Decidable (time.startOfMinute = time))

/-- Without its seconds a local time is a whole minute. -/
theorem isWholeMinute_startOfMinute (time : LocalTime) : time.startOfMinute.IsWholeMinute := by
  unfold IsWholeMinute startOfMinute ClockTime.startOfMinute
  simp

/-- Leaving out the seconds keeps the place of the minute. -/
@[simp] theorem minuteRank_startOfMinute (time : LocalTime) :
    time.startOfMinute.minuteRank = time.minuteRank := by
  unfold minuteRank startOfMinute
  simp

/-- The minute of a local time is the quotient of its seconds. -/
theorem seconds_ediv_sixty (time : LocalTime) : time.seconds / 60 = time.minuteRank := by
  unfold seconds minuteRank ClockTime.dayTime
  simp only [secondsPerDay]
  omega

/-- A whole minute has neither seconds beyond its minute nor nanoseconds. -/
theorem isWholeMinute_iff {time : LocalTime} :
    time.IsWholeMinute ↔ time.seconds = 60 * time.minuteRank ∧ time.clock.nanosecond = 0 := by
  obtain ⟨date, second, nanosecond, running, short⟩ := time
  unfold IsWholeMinute startOfMinute ClockTime.startOfMinute seconds minuteRank ClockTime.dayTime
  simp only [LocalTime.mk.injEq, ClockTime.mk.injEq, true_and, secondsPerDay]
  omega

/-- No leap second begins a minute, so minutes can be counted from there. -/
theorem IsWholeMinute.nanosecond_lt {time : LocalTime} (whole : time.IsWholeMinute) :
    time.clock.nanosecond < nanosPerSecond := by
  rw [(isWholeMinute_iff.mp whole).2]
  decide

/-- A whole minute has no seconds that would count for its place in time. -/
theorem rank_of_isWholeMinute {time : LocalTime} (whole : time.IsWholeMinute) :
    time.rank = 120 * nanosPerSecond * time.minuteRank := by
  obtain ⟨minutes, noNanos⟩ := isWholeMinute_iff.mp whole
  rw [rank, minutes, noNanos]
  unfold nanosPerSecond
  omega

/-- A whole minute has come when its minute has. -/
theorem le_iff_minuteRank {minute time : LocalTime} (whole : minute.IsWholeMinute) :
    minute ≤ time ↔ minute.minuteRank ≤ time.minuteRank := by
  have running := time.clock.second_lt
  have short := time.clock.nanosecond_lt
  -- What the other time has beyond its minute is less than a minute.
  rw [le_iff_rank, rank_of_isWholeMinute whole]
  unfold rank seconds minuteRank ClockTime.dayTime
  simp only [nanosPerSecond, secondsPerDay] at *
  omega

/-- A whole minute is still to come when its minute is. -/
theorem lt_iff_minuteRank {minute time : LocalTime} (whole : minute.IsWholeMinute) :
    time < minute ↔ time.minuteRank < minute.minuteRank := by
  have notYet : minute ≤ time ↔ minute.minuteRank ≤ time.minuteRank := le_iff_minuteRank whole
  rw [le_iff_rank] at notYet
  rw [lt_iff_rank]
  omega

/-- The date of a later minute is not an earlier one. -/
theorem date_le_of_minuteRank_le {left right : LocalTime}
    (ordered : left.minuteRank ≤ right.minuteRank) : left.date ≤ right.date := by
  have running := left.clock.minutes_dayTime_lt
  have runningToo := right.clock.minutes_dayTime_lt
  unfold minuteRank at ordered
  rw [Date.le_iff_number]
  omega

/-- A local time does not precede the beginning of its minute. -/
theorem startOfMinute_le (time : LocalTime) : time.startOfMinute ≤ time := by
  have same : time.startOfMinute.minuteRank = time.minuteRank := minuteRank_startOfMinute time
  exact (le_iff_minuteRank time.isWholeMinute_startOfMinute).mpr (Int.le_of_eq same)

/-- Local times of the same minute have the same date and the same time of day. -/
theorem eq_of_minuteRank {left right : LocalTime} (same : left.minuteRank = right.minuteRank) :
    left.date = right.date ∧ left.clock.dayTime = right.clock.dayTime := by
  have running := left.clock.minutes_dayTime_lt
  have runningToo := right.clock.minutes_dayTime_lt
  unfold minuteRank at same
  -- The date and the minutes of the day are the digits of the place.
  have sameMinutes : left.clock.dayTime.minutes = right.clock.dayTime.minutes := by omega
  exact ⟨Date.eq_of_number (by omega), DayTime.eq_of_minutes sameMinutes⟩

/-- A local time that precedes another one is not in a later minute. -/
theorem minuteRank_le_of_le {left right : LocalTime} (ordered : left ≤ right) :
    left.minuteRank ≤ right.minuteRank := by
  rw [← minuteRank_startOfMinute left]
  exact (le_iff_minuteRank left.isWholeMinute_startOfMinute).mp
    (Std.le_trans left.startOfMinute_le ordered)

/-- The date of a later local time is not an earlier one. -/
theorem date_le_of_le {left right : LocalTime} (ordered : left ≤ right) : left.date ≤ right.date :=
  date_le_of_minuteRank_le (minuteRank_le_of_le ordered)

/-- A strictly later local time is a later one. -/
theorem le_of_lt {left right : LocalTime} (ordered : left < right) : left ≤ right :=
  Int.le_of_lt ordered

/-- A time of day on a date is the whole minute that the two make together. -/
theorem at?_spec {date : Date} {time : DayTime} {opening : LocalTime}
    (found : at? date time = some opening) :
    opening.IsWholeMinute ∧ opening.minuteRank = 1440 * date.number + time.minutes := by
  rw [isWholeMinute_iff]
  unfold seconds minuteRank ClockTime.dayTime
  simp only [secondsPerDay]
  cases at?_eq_some_iff.mp found with
  | running second whole =>
    -- A time that a clock shows stays on its date.
    dsimp only
    omega
  | ending follows =>
    -- The end of a day is the beginning of the next one.
    unfold ClockTime.midnight DayTime.dayEnd
    dsimp only
    omega

/-- A time in front of the end of the day is on the clock of that date. -/
theorem at?_of_lt (date : Date) {time : DayTime} (running : time.minutes < 1440) :
    ∃ opening, at? date time = some opening ∧
      opening.date = date ∧ opening.clock.dayTime = time := by
  -- The clock that shows the time marks it on the date.
  have withinDay : 60 * time.minutes < secondsPerDay := by
    unfold secondsPerDay
    omega
  let clock : ClockTime := ⟨60 * time.minutes, 0, withinDay, by decide⟩
  have minutes : clock.dayTime.minutes = time.minutes := by
    show 60 * time.minutes / 60 = time.minutes
    omega
  have marks : Marks date time ⟨date, clock⟩ := .running rfl rfl
  exact ⟨⟨date, clock⟩, at?_eq_some_iff.mpr marks, rfl, DayTime.eq_of_minutes minutes⟩

end LocalTime

namespace Hours

/-- An opening found for a date is a whole minute. -/
theorem openingAfter?_isWholeMinute {hours : Hours} {now opening : LocalTime} {date : Date}
    (found : hours.openingAfter? now date = some opening) : opening.IsWholeMinute := by
  unfold openingAfter? openingOn? at found
  obtain ⟨time, -, placed⟩ := Option.bind_eq_some_iff.mp found
  exact (LocalTime.at?_spec placed).1

/-- An opening found for a date is not in front of that date. -/
theorem date_le_of_openingAfter? {hours : Hours} {now opening : LocalTime} {date : Date}
    (found : hours.openingAfter? now date = some opening) : date ≤ opening.date := by
  unfold openingAfter? openingOn? at found
  obtain ⟨time, -, placed⟩ := Option.bind_eq_some_iff.mp found
  have rank := (LocalTime.at?_spec placed).2
  have running := opening.clock.minutes_dayTime_lt
  unfold LocalTime.minuteRank at rank
  rw [Date.le_iff_number]
  omega

/-- The search for an opening on a date starts no later than any time of it that is not over. -/
theorem searchStart_le {now time : LocalTime} (after : now.minuteRank ≤ time.minuteRank) :
    (if time.date = now.date then now.clock.dayTime else .dayStart) ≤ time.clock.dayTime := by
  rw [DayTime.le_iff_minutes]
  unfold LocalTime.minuteRank at after
  split
  · -- Today it starts with the present time.
    rename_i today
    rw [today] at after
    omega
  · exact Nat.zero_le _

/-- The search for an opening on a date does not start in the past. -/
theorem minuteRank_le_of_searchStart_le {now : LocalTime} {date : Date} {time : DayTime}
    (notOver : now.date ≤ date)
    (later : (if date = now.date then now.clock.dayTime else .dayStart) ≤ time) :
    now.minuteRank ≤ 1440 * date.number + time.minutes := by
  rw [DayTime.le_iff_minutes] at later
  unfold LocalTime.minuteRank
  split at later
  · rename_i today
    rw [today]
    omega
  · -- A later date leaves all times of the present one behind.
    rename_i notToday
    have different : now.date.number ≠ date.number := by
      intro same
      exact notToday (Date.eq_of_number same.symm)
    have clock := now.clock.dayTime.minutes_le
    rw [Date.le_iff_number] at notOver
    omega

/-- Hours that are open at a time have an opening on its date in front of it, not in the past. -/
theorem exists_openingAfter? {hours : Hours} {now time : LocalTime}
    (after : now.minuteRank ≤ time.minuteRank) (opens : hours.contains time.clock.dayTime = true) :
    ∃ opening, hours.openingAfter? now time.date = some opening ∧ opening.date = time.date ∧
      hours.contains opening.clock.dayTime = true ∧
        now.minuteRank ≤ opening.minuteRank ∧ opening ≤ time := by
  have notLater := searchStart_le after
  obtain ⟨dayTime, found⟩ := exists_openingFrom? notLater opens
  obtain ⟨fromStart, contained, first⟩ := openingFrom?_spec found
  have notAfter := first _ notLater opens
  -- The opening is no later than a time of the clock, so it does not end the day.
  have running : dayTime.minutes < 1440 :=
    Nat.lt_of_le_of_lt notAfter time.clock.minutes_dayTime_lt
  obtain ⟨opening, placed, sameDate, sameTime⟩ := LocalTime.at?_of_lt time.date running
  obtain ⟨whole, rank⟩ := LocalTime.at?_spec placed
  refine ⟨opening, ?_, sameDate, sameTime ▸ contained, ?_, ?_⟩
  · unfold openingAfter? openingOn?
    rw [found]
    exact placed
  · rw [rank]
    exact minuteRank_le_of_searchStart_le (LocalTime.date_le_of_minuteRank_le after) fromStart
  · rw [LocalTime.le_iff_minuteRank whole, rank]
    rw [DayTime.le_iff_minutes] at notAfter
    unfold LocalTime.minuteRank
    omega

end Hours

end OpeningTimes
