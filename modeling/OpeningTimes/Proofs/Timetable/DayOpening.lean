import OpeningTimes.Timetable.Search
import Mathlib.Order.Bounds.Defs

/-!
The first opening of hours on a date marks the smallest open time that is left of the day.

The end of a day is one of its times, marked by midnight of the next date.
-/

namespace OpeningTimes

/-- Every date has a next one, except the last supported date. -/
theorem Date.addDays?_one_eq_none_iff {date : Date} :
    date.addDays? 1 = none ↔ latestDay < date.number + 1 := by
  -- The next day number is not in front of the first one, so only the last one can refuse it.
  have supported := date.earliest_le
  unfold addDays? ofNumber?
  split
  · rename_i within
    constructor
    · intro refused
      contradiction
    · intro beyond
      omega
  · rename_i outside
    constructor
    · intro refused
      omega
    · intro beyond
      rfl

namespace DayTime

/-- A clock shows a time of day as a whole minute. -/
theorem clock?_eq_some_iff {time : DayTime} {clock : ClockTime} :
    time.clock? = some clock ↔ clock.second = 60 * time.minutes ∧ clock.nanosecond = 0 := by
  -- A clock starts again before it would show the end of the day.
  obtain ⟨second, nanosecond, running, short⟩ := clock
  have withinDay : second < 86400 := running
  unfold clock?
  split
  · -- In front of that end the reading is made of the minutes.
    simp only [Option.some.injEq, ClockTime.mk.injEq]
    omega
  · -- No reading has as many seconds as that end would need.
    rename_i ended
    constructor
    · intro shown
      contradiction
    · intro minutes
      have seconds : second = 60 * time.minutes := minutes.1
      omega

/-- No clock shows the end of the day, and clocks show every other time of it. -/
theorem clock?_eq_none_iff {time : DayTime} : time.clock? = none ↔ time = .dayEnd := by
  -- The end of the day is the only time that is not in front of it.
  have within := time.minutes_le
  have endMinutes : dayEnd.minutes = 1440 := rfl
  unfold clock?
  split
  · rename_i running
    constructor
    · intro hidden
      contradiction
    · intro ends
      subst ends
      omega
  · rename_i ended
    constructor
    · intro hidden
      exact eq_of_minutes (by omega)
    · intro ends
      rfl

end DayTime

namespace LocalTime

/-- A local time marks a time of a date, and midnight of the next date marks its end. -/
inductive Marks (date : Date) : DayTime → LocalTime → Prop
  /-- A time that a clock shows is marked on the date itself, as a whole minute. -/
  | running {time : DayTime} {clock : ClockTime} (second : clock.second = 60 * time.minutes)
      (whole : clock.nanosecond = 0) : Marks date time ⟨date, clock⟩
  /-- The end of the day is the beginning of the next one. -/
  | ending {next : Date} (follows : next.number = date.number + 1) :
      Marks date .dayEnd ⟨next, .midnight⟩

/-- The local time of a time of day on a date is the one that marks it. -/
theorem at?_eq_some_iff {date : Date} {time : DayTime} {shown : LocalTime} :
    at? date time = some shown ↔ shown.Marks date time := by
  unfold at?
  constructor
  · intro found
    split at found
    · -- The clock shows the time, so the date stays.
      rename_i clock clocked
      obtain ⟨second, whole⟩ := DayTime.clock?_eq_some_iff.mp clocked
      cases found
      exact .running second whole
    · -- No clock shows the time, which is then the end of the day.
      rename_i hidden
      obtain ⟨next, later, rfl⟩ := Option.map_eq_some_iff.mp found
      rw [DayTime.clock?_eq_none_iff.mp hidden]
      exact .ending (Date.addDays?_eq_some_iff.mp later)
  · intro marks
    cases marks with
    | running second whole => rw [DayTime.clock?_eq_some_iff.mpr ⟨second, whole⟩]
    | ending follows =>
      rw [DayTime.clock?_eq_none_iff.mpr rfl]
      exact Option.map_eq_some_iff.mpr ⟨_, Date.addDays?_eq_some_iff.mpr follows, rfl⟩

/-- The end of the last supported date is the only time that no local time marks. -/
theorem at?_eq_none_iff {date : Date} {time : DayTime} :
    at? date time = none ↔ time = .dayEnd ∧ latestDay < date.number + 1 := by
  rw [← DayTime.clock?_eq_none_iff, ← Date.addDays?_one_eq_none_iff]
  unfold at?
  -- A time that a clock shows is found on every date.
  cases time.clock? with
  | none => simp
  | some clock => simp

end LocalTime

namespace Hours

/-- Hours contain the minutes between their ends and, when they wrap, those outside as well. -/
theorem contains_iff_minutes {hours : Hours} {time : DayTime} :
    hours.contains time = true ↔
      hours.first.minutes ≤ time.minutes ∧ time.minutes ≤ hours.last.minutes ∨
        hours.last.minutes < hours.first.minutes ∧
          (hours.first.minutes ≤ time.minutes ∨ time.minutes ≤ hours.last.minutes) := by
  rw [Window.contains_iff]
  unfold Window.wraps
  simp only [DayTime.lt_iff_minutes, DayTime.le_iff_minutes, decide_eq_true_eq]
  -- Hours that do not wrap end no earlier than they begin.
  split
  · omega
  · omega

/-- A time not before a given one is open no earlier than the first opening from there on. -/
theorem openingFrom?_spec {hours : Hours} {time opening : DayTime}
    (found : hours.openingFrom? time = some opening) :
    time ≤ opening ∧ hours.contains opening = true ∧
      ∀ later, time ≤ later → hours.contains later = true → opening ≤ later := by
  unfold openingFrom? at found
  split at found
  · -- An open time is its own opening.
    rename_i opens
    cases found
    exact ⟨Nat.le_refl _, opens, fun later after _ => after⟩
  · rename_i shut
    split at found
    · -- Hours open at their beginning, and nothing is open between the given time and that.
      rename_i before
      cases found
      rw [contains_iff_minutes] at shut
      rw [DayTime.lt_iff_minutes] at before
      refine ⟨Nat.le_of_lt before, ?_, fun later after opens => ?_⟩
      · rw [contains_iff_minutes]
        omega
      · rw [contains_iff_minutes] at opens
        rw [DayTime.le_iff_minutes] at after ⊢
        omega
    · contradiction

/-- When a time not before a given one is open, there is a first opening from there on. -/
theorem exists_openingFrom? {hours : Hours} {time later : DayTime} (after : time ≤ later)
    (opens : hours.contains later = true) : ∃ opening, hours.openingFrom? time = some opening := by
  unfold openingFrom?
  split
  · exact ⟨time, rfl⟩
  · rename_i shut
    split
    · exact ⟨hours.first, rfl⟩
    · -- Shut after their beginning, hours stay shut until the end of the day.
      rename_i begun
      rw [contains_iff_minutes] at shut opens
      rw [DayTime.lt_iff_minutes] at begun
      rw [DayTime.le_iff_minutes] at after
      omega

/-- The first opening from a time on is the earliest open time that does not precede it. -/
theorem openingFrom?_eq_some_iff {hours : Hours} {time opening : DayTime} :
    hours.openingFrom? time = some opening ↔
      time ≤ opening ∧ hours.contains opening = true ∧
        ∀ later, time ≤ later → hours.contains later = true → opening ≤ later := by
  refine ⟨openingFrom?_spec, ?_⟩
  rintro ⟨after, opens, least⟩
  obtain ⟨first, found⟩ := exists_openingFrom? after opens
  obtain ⟨afterToo, opensToo, leastToo⟩ := openingFrom?_spec found
  -- Each of the two is no later than the other.
  have same : first.minutes = opening.minutes :=
    Nat.le_antisymm (leastToo opening after opens) (least first afterToo opensToo)
  rw [found, DayTime.eq_of_minutes same]

/-- The open times of a day that are not before a given one, with the end of the day among them. -/
def openTimesFrom (hours : Hours) (time : DayTime) : Set DayTime :=
  {later | time ≤ later ∧ hours.contains later = true}

/-- The first opening from a time on is the smallest open time from there on. -/
theorem openingFrom?_eq_some_iff_isLeast {hours : Hours} {time opening : DayTime} :
    hours.openingFrom? time = some opening ↔ IsLeast (hours.openTimesFrom time) opening := by
  -- The open times that are left are the ones that the first opening is compared with.
  rw [openingFrom?_eq_some_iff]
  constructor
  · intro first
    obtain ⟨after, opens, least⟩ := first
    exact ⟨⟨after, opens⟩, fun later left => least later left.1 left.2⟩
  · intro first
    obtain ⟨⟨after, opens⟩, least⟩ := first
    exact ⟨after, opens, fun later afterToo opensToo => least ⟨afterToo, opensToo⟩⟩

/-- There is no first opening from a time on when nothing is open from there on. -/
theorem openingFrom?_eq_none_iff {hours : Hours} {time : DayTime} :
    hours.openingFrom? time = none ↔ ¬ (hours.openTimesFrom time).Nonempty := by
  rw [Option.eq_none_iff_forall_ne_some]
  constructor
  · -- An open time that is left would have a first one in front of it.
    intro noOpening left
    obtain ⟨later, after, opens⟩ := left
    obtain ⟨opening, found⟩ := exists_openingFrom? after opens
    exact noOpening opening found
  · -- The first opening is itself one of the open times that are left.
    intro noneLeft opening found
    exact noneLeft ⟨opening, (openingFrom?_eq_some_iff_isLeast.mp found).1⟩

/--
The first opening of hours on a date marks the smallest open time from the given one on.

There is none when no open time is left, or when the end of the day is all that is left and the
calendar has no next date to mark it.
-/
theorem openingOn?_exact (hours : Hours) (date : Date) (time : DayTime) :
    (∀ opening, hours.openingOn? date time = some opening ↔
      ∃ first, IsLeast (hours.openTimesFrom time) first ∧ opening.Marks date first) ∧
    (hours.openingOn? date time = none ↔ ¬ (hours.openTimesFrom time).Nonempty ∨
      IsLeast (hours.openTimesFrom time) .dayEnd ∧ latestDay < date.number + 1) := by
  -- The open time is found first, and then the local time that marks it.
  unfold openingOn?
  constructor
  · intro opening
    simp only [Option.bind_eq_some_iff, openingFrom?_eq_some_iff_isLeast, LocalTime.at?_eq_some_iff]
  · rw [← openingFrom?_eq_none_iff, ← openingFrom?_eq_some_iff_isLeast]
    cases hours.openingFrom? time with
    | none => simp
    | some first =>
      -- An open time is left, and only at the end of the calendar no local time marks it.
      rw [Option.bind_some, LocalTime.at?_eq_none_iff, Option.some.injEq]
      simp

/-- On the last supported date hours open at the times that a clock shows, but not at the end. -/
example : let night : Hours := ⟨⟨1320, by decide⟩, .dayEnd⟩
    let lastDate : Date := ⟨latestDay, by decide, by decide⟩
    (night.openingOn? lastDate .dayStart).map LocalTime.text =
        some "+262142-12-31 22:00:00".toList ∧
      night.openingOn? lastDate .dayEnd = none := by
  decide +kernel

end Hours

end OpeningTimes
