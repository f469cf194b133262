import OpeningTimes.Proofs.Timetable.Candidate
import OpeningTimes.Zone.Basic

/-! Local times shifted by seconds: where they lead to, and when they lead to a supported date. -/

namespace OpeningTimes

/-- A number of seconds since year 1 began lies on a supported date. -/
def WithinCalendar (seconds : Int) : Prop :=
  earliestDay ≤ seconds / secondsPerDay ∧ seconds / secondsPerDay ≤ latestDay

/-- What lies between two supported numbers of seconds is supported too. -/
theorem WithinCalendar.between {first last seconds : Int} (begun : WithinCalendar first)
    (ended : WithinCalendar last) (after : first ≤ seconds) (before : seconds ≤ last) :
    WithinCalendar seconds := by
  unfold WithinCalendar at *
  simp only [secondsPerDay] at *
  omega

namespace LocalTime

/-- The day of a local time is the quotient of its seconds. -/
theorem seconds_ediv (time : LocalTime) : time.seconds / secondsPerDay = time.date.number := by
  have running := time.clock.second_lt
  unfold seconds
  simp only [secondsPerDay] at running ⊢
  omega

/-- Local times at the same second with the same nanoseconds are the same. -/
theorem eq_of_seconds {left right : LocalTime} (same : left.seconds = right.seconds)
    (alsoSame : left.clock.nanosecond = right.clock.nanosecond) : left = right := by
  refine eq_of_rank ?_
  rw [rank, rank, same, alsoSame]

/-- Shifting leads to the seconds that are added to, and keeps the nanoseconds. -/
theorem shift?_spec {time later : LocalTime} {seconds : Int}
    (shifted : time.shift? seconds = some later) :
    later.seconds = time.seconds + seconds ∧ later.clock.nanosecond = time.clock.nanosecond := by
  unfold shift? at shifted
  obtain ⟨date, moved, rfl⟩ := Option.map_eq_some_iff.mp shifted
  have number := Date.addDays?_eq_some_iff.mp moved
  refine ⟨?_, rfl⟩
  -- The quotient and the remainder make up the total again.
  unfold LocalTime.seconds
  simp only [secondsPerDay] at number ⊢
  omega

/-- Shifting leads to a local time exactly when its seconds are within the calendar. -/
theorem exists_shift?_iff {time : LocalTime} {seconds : Int} :
    (∃ later, time.shift? seconds = some later) ↔ WithinCalendar (time.seconds + seconds) := by
  constructor
  · rintro ⟨later, shifted⟩
    -- The date that is reached is a supported one.
    unfold WithinCalendar
    rw [← (shift?_spec shifted).1, seconds_ediv]
    exact ⟨later.date.earliest_le, later.date.le_latest⟩
  · rintro ⟨earliest, latest⟩
    unfold shift?
    have moved : time.date.addDays? ((time.clock.second + seconds) / secondsPerDay) =
        some ⟨(time.seconds + seconds) / secondsPerDay, earliest, latest⟩ := by
      rw [Date.addDays?_eq_some_iff]
      unfold LocalTime.seconds
      simp only [secondsPerDay]
      omega
    dsimp only
    rw [moved]
    exact ⟨_, rfl⟩

/-- Shifting leads to exactly the local time with the seconds added and the same nanoseconds. -/
theorem shift?_eq_some_iff {time later : LocalTime} {seconds : Int} :
    time.shift? seconds = some later ↔
      later.seconds = time.seconds + seconds ∧ later.clock.nanosecond = time.clock.nanosecond := by
  refine ⟨shift?_spec, fun ⟨placed, fraction⟩ => ?_⟩
  -- The later time is a supported one, so shifting leads somewhere, and that is the only place.
  have within : WithinCalendar (time.seconds + seconds) := by
    unfold WithinCalendar
    rw [← placed, seconds_ediv]
    exact ⟨later.date.earliest_le, later.date.le_latest⟩
  obtain ⟨found, shifted⟩ := exists_shift?_iff.mpr within
  obtain ⟨foundPlaced, foundFraction⟩ := shift?_spec shifted
  rw [shifted, eq_of_seconds (foundPlaced.trans placed.symm) (foundFraction.trans fraction.symm)]

/-- Shifting twice is shifting by both amounts at once. -/
theorem shift?_of_shift? {time between : LocalTime} {first : Int}
    (shifted : time.shift? first = some between) (second : Int) :
    between.shift? second = time.shift? (first + second) := by
  obtain ⟨placed, fraction⟩ := shift?_spec shifted
  ext later
  rw [shift?_eq_some_iff, shift?_eq_some_iff, placed, fraction, Int.add_assoc]

/-- A timestamp has a local time exactly when its seconds are within the calendar. -/
theorem exists_ofTimestamp?_iff {timestamp : Int} :
    (∃ time, ofTimestamp? timestamp = some time) ↔ WithinCalendar (epoch.seconds + timestamp) :=
  exists_shift?_iff

/-- Local times with equal nanoseconds are ordered by their seconds. -/
theorem le_iff_seconds {left right : LocalTime}
    (same : left.clock.nanosecond = right.clock.nanosecond) :
    left ≤ right ↔ left.seconds ≤ right.seconds := by
  rw [le_iff_rank, rank, rank, same]
  simp only [nanosPerSecond]
  omega

/-- Without a leap second, passing seconds are added one by one. -/
theorem addSeconds?_eq_shift? {time : LocalTime} (plain : time.clock.nanosecond < nanosPerSecond)
    (seconds : Int) : time.addSeconds? seconds = time.shift? seconds :=
  if_pos (.inl plain)

/-- Counting on by minutes leads to the whole minutes behind one. -/
theorem addSeconds?_minutes_iff {time later : LocalTime} (whole : time.IsWholeMinute)
    (minutes : Nat) : time.addSeconds? (60 * (minutes : Int)) = some later ↔
      later.IsWholeMinute ∧ later.minuteRank = time.minuteRank + minutes := by
  obtain ⟨seconds, noNanos⟩ := isWholeMinute_iff.mp whole
  have minute := later.seconds_ediv_sixty
  rw [addSeconds?_eq_shift? whole.nanosecond_lt, shift?_eq_some_iff, isWholeMinute_iff, seconds,
    noNanos]
  constructor
  · rintro ⟨placed, noNanosToo⟩
    exact ⟨⟨by omega, noNanosToo⟩, by omega⟩
  · rintro ⟨⟨secondsToo, noNanosToo⟩, counted⟩
    exact ⟨by omega, noNanosToo⟩

/-- A local time that precedes another one is not in a later second. -/
theorem seconds_le_of_le {left right : LocalTime} (ordered : left ≤ right) :
    left.seconds ≤ right.seconds := by
  have short := right.clock.nanosecond_lt
  rw [le_iff_rank] at ordered
  -- The nanoseconds, also those of a leap second, count for less than a second does.
  unfold rank at ordered
  simp only [nanosPerSecond] at *
  omega

/-- The beginning of a minute is at a multiple of sixty seconds. -/
theorem seconds_startOfMinute (time : LocalTime) :
    time.startOfMinute.seconds = time.seconds - time.seconds % 60 := by
  have start := (isWholeMinute_iff.mp time.isWholeMinute_startOfMinute).1
  have minute := time.seconds_ediv_sixty
  rw [minuteRank_startOfMinute] at start
  omega

/-- Timestamps count from a whole minute, so they are multiples of sixty there as well. -/
theorem timestamp_startOfMinute (time : LocalTime) :
    time.startOfMinute.timestamp = time.timestamp - time.timestamp % 60 := by
  have start := time.seconds_startOfMinute
  -- The year 1970 began at a whole minute.
  have epoch : epoch.seconds = 60 * 1035593280 := rfl
  unfold timestamp
  omega

/-- Counting on by minutes from a whole minute leads to that of any later local time. -/
theorem exists_addSeconds?_startOfMinute {time later : LocalTime} (whole : time.IsWholeMinute)
    (after : time ≤ later) : ∃ minutes : Nat, later.minuteRank = time.minuteRank + minutes ∧
      time.addSeconds? (60 * (minutes : Int)) = some later.startOfMinute := by
  have ordered := minuteRank_le_of_le after
  obtain ⟨minutes, distance⟩ := Int.eq_ofNat_of_zero_le (Int.sub_nonneg.mpr ordered)
  have counted : later.minuteRank = time.minuteRank + minutes := by omega
  refine ⟨minutes, counted, ?_⟩
  rw [addSeconds?_minutes_iff whole, minuteRank_startOfMinute]
  exact ⟨later.isWholeMinute_startOfMinute, counted⟩

end LocalTime

end OpeningTimes
