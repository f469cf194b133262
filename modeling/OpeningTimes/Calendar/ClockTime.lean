import OpeningTimes.Calendar.DayTime

/-! Readings of a clock, with leap seconds. -/

namespace OpeningTimes

/-- A second has this many nanoseconds. -/
def nanosPerSecond : Nat := 1000000000

/-- A day has this many seconds. -/
def secondsPerDay : Nat := 86400

/--
A reading of a clock.

During a leap second the clock stays at the second before it and counts the nanoseconds on, past one second.
-/
structure ClockTime where
  /-- The number of seconds since the day began. -/
  second : Nat
  /-- The number of nanoseconds since the second began, with those of a leap second behind it. -/
  nanosecond : Nat
  /-- The clock starts again after a day. -/
  second_lt : second < secondsPerDay
  /-- A leap second is one second long. -/
  nanosecond_lt : nanosecond < 2 * nanosPerSecond
  deriving DecidableEq

namespace ClockTime

/-- Midnight at the beginning of a day. -/
def midnight : ClockTime := ⟨0, 0, by decide, by decide⟩

/-- The reading at an hour, a minute, a second and a nanosecond, if a clock can show it. -/
def of? (hour minute second nanosecond : Nat) : Option ClockTime :=
  if bounds : hour < 24 ∧ minute < 60 ∧ second < 60 ∧ nanosecond < 2 * nanosPerSecond then
    some ⟨3600 * hour + 60 * minute + second, nanosecond, by unfold secondsPerDay; omega, bounds.2.2.2⟩
  else none

/-- The reading without its seconds. -/
def startOfMinute (clock : ClockTime) : ClockTime :=
  ⟨clock.second / 60 * 60, 0, by have := clock.second_lt; omega, by decide⟩

/-- The time of day in whole minutes. -/
def dayTime (clock : ClockTime) : DayTime :=
  ⟨clock.second / 60, by have := clock.second_lt; unfold secondsPerDay at this; omega⟩

/-- Leaving out the seconds stays in the same minute. -/
@[simp] theorem dayTime_startOfMinute (clock : ClockTime) : clock.startOfMinute.dayTime = clock.dayTime := by
  unfold startOfMinute dayTime
  simp

/-- The fraction of a second in three, six or nine digits, as many as it needs. -/
def fractionText (nanos : Nat) : List Char :=
  if nanos = 0 then []
  else if nanos % 1000000 = 0 then '.' :: padded 3 (nanos / 1000000)
  else if nanos % 1000 = 0 then '.' :: padded 6 (nanos / 1000)
  else '.' :: padded 9 nanos

/-- A reading such as `09:30:00.500`, where a leap second is the one after the 59th. -/
def text (clock : ClockTime) : List Char :=
  let leap := clock.nanosecond / nanosPerSecond
  padded 2 (clock.second / 3600) ++ [':'] ++ padded 2 (clock.second / 60 % 60) ++ [':'] ++
    padded 2 (clock.second % 60 + leap) ++ fractionText (clock.nanosecond % nanosPerSecond)

end ClockTime

/-- The reading of a clock at a time of day, where none shows 24:00. -/
def DayTime.clock? (time : DayTime) : Option ClockTime :=
  if running : time.minutes < 1440 then
    some ⟨60 * time.minutes, 0, by unfold secondsPerDay; omega, by decide⟩
  else none

end OpeningTimes
