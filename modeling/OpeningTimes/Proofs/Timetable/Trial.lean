import OpeningTimes.Proofs.Rule.ReadRules
import OpeningTimes.Proofs.Timetable.OpenDates
import OpeningTimes.Proofs.Timetable.SameRules
import OpeningTimes.Proofs.Timetable.Soundness
import OpeningTimes.Proofs.Zone.Shift
import OpeningTimes.Timetable.Trial

/-!
No trial finds a property violated.

A written schedule is equivalent to the one that was read, open times fall on open dates, and the
next opening is the first open minute.
-/

namespace OpeningTimes

/-- A schedule that restates another one has the same rules. -/
theorem Schedule.Restates.sameRules {copy original : Schedule} (restates : Restates copy original) :
    SameRules copy original where
  rules rule := by
    -- A rule is there when it is counted.
    rw [← List.count_pos_iff]
    cases rule with
    | weekly rule =>
      rw [restates.weekly]
      split <;> simp [*]
    | closure season => rw [restates.closures, List.count_pos_iff]
    | holiday rule =>
      rw [restates.holiday]
      split <;> simp [*]
  first := restates.first

namespace Timetable

variable {timetable : Timetable} {time first : LocalTime}

/-- A minute is found when it is open and none of those in front of it is. -/
theorem firstOpenMinute?_spec (whole : time.IsWholeMinute)
    (found : timetable.firstOpenMinute? time = some first) :
    first.IsWholeMinute ∧ timetable.isOpenAt first = true ∧ time.minuteRank ≤ first.minuteRank ∧
      first.minuteRank < time.minuteRank + scannedMinutes ∧
      ∀ earlier : LocalTime, earlier.IsWholeMinute → time.minuteRank ≤ earlier.minuteRank →
        timetable.isOpenAt earlier = true → first.minuteRank ≤ earlier.minuteRank := by
  unfold firstOpenMinute? at found
  rw [List.find?_filterMap, Option.bind_eq_some_iff] at found
  obtain ⟨minutes, opens, placed⟩ := found
  rw [List.find?_range_eq_some] at opens
  obtain ⟨opens, within, shut⟩ := opens
  simp only [placed, Option.any_some] at opens
  obtain ⟨minute, counted⟩ := (LocalTime.addSeconds?_minutes_iff whole minutes).mp placed
  rw [List.mem_range] at within
  refine ⟨minute, opens, by omega, by omega, fun earlier minute after opensToo => ?_⟩
  by_contra before
  -- An open minute in front of it would have been found instead.
  obtain ⟨count, rank⟩ : ∃ count : Nat, earlier.minuteRank = time.minuteRank + count :=
    ⟨(earlier.minuteRank - time.minuteRank).toNat, by omega⟩
  have passed := (LocalTime.addSeconds?_minutes_iff whole count).mpr ⟨minute, rank⟩
  have closed := shut count (by omega)
  simp [passed, opensToo] at closed

/-- The first minute that is found open is the answer, away from the ends of the calendar. -/
theorem nextOpen?_of_firstOpenMinute? (whole : time.IsWholeMinute)
    (earliest : -262142 ≤ time.date.year) (latest : time.date.year ≤ 262140)
    (found : timetable.firstOpenMinute? time = some first) :
    timetable.nextOpen? time = some first := by
  obtain ⟨minute, opens, after, near, least⟩ := firstOpenMinute?_spec whole found
  have notBefore : time ≤ first := (LocalTime.le_iff_minuteRank whole).mpr after
  -- The minutes that are looked through take three days, so that all of them are reached.
  have within : first.date.number ≤ time.date.number + 365 := by
    have running := time.clock.minutes_dayTime_lt
    unfold LocalTime.minuteRank scannedMinutes at near
    omega
  have dates := LocalTime.date_le_of_le notBefore
  have reached := reaches_of_isOpenAt opens dates within earliest latest
  obtain ⟨answer, answered, notBehind⟩ := exists_nextOpen?_of_reaches notBefore opens reached
  -- The answer is an open minute itself, so it is not in front of the first one either.
  have isMinute : answer.IsWholeMinute ∧ time ≤ answer ∧ timetable.isOpenAt answer = true := by
    rcases nextOpen?_cases answered with ⟨opensNow, rfl⟩ | ⟨-, wholeToo, later, opensToo⟩
    · exact ⟨whole, Std.le_refl _, opensNow⟩
    · exact ⟨wholeToo, LocalTime.le_of_lt later, opensToo⟩
  have order := least answer isMinute.1 (LocalTime.minuteRank_le_of_le isMinute.2.1) isMinute.2.2
  have same : answer = first :=
    Std.le_antisymm notBehind ((LocalTime.le_iff_minuteRank minute).mpr order)
  rw [answered, same]

end Timetable

namespace Property

variable {timetable : Timetable} {time : LocalTime}

/-- A printable schedule is equivalent to its written form. -/
theorem writtenFormHolds_of_printable (time : LocalTime)
    (printable : ∀ rule ∈ timetable.schedule.rules, rule.Printable) :
    writtenFormHolds timetable time = true := by
  have gathered := Passage.gather_ofRules timetable.schedule.rules
  have same := (Schedule.restates_ofExpressions gathered).sameRules
  unfold writtenFormHolds
  rw [Schedule.outcome_read_text printable]
  generalize Schedule.ofExpressions _ = copy at same
  obtain ⟨schedule, holidays⟩ := timetable
  simp only [Bool.and_eq_true, List.all_eq_true, decide_eq_true_eq, beq_iff_eq]
  -- What is compared depends on nothing but the rules.
  exact ⟨⟨⟨fun rule => (same.rules rule).mpr, fun rule => (same.rules rule).mp⟩,
    (Timetable.isOpenAt_eq_of_sameRules same holidays time).symm⟩,
    (Timetable.nextOpen?_eq_of_sameRules same holidays time).symm⟩

/-- An open time falls on an open date. -/
theorem openDate_holds (timetable : Timetable) (time : LocalTime) :
    openDate.holds timetable time = true := by
  unfold holds
  cases opens : timetable.isOpenAt time with
  | false => rfl
  | true => rw [Timetable.isOpenOn_of_isOpenAt opens]; rfl

/-- The next opening from a minute on is the first open one, away from the ends of the calendar. -/
theorem firstMinuteHolds_of_isWholeMinute (whole : time.IsWholeMinute)
    (earliest : -262142 ≤ time.date.year) (latest : time.date.year ≤ 262140) :
    firstMinuteHolds timetable time = true := by
  unfold firstMinuteHolds
  simp only [Bool.and_eq_true, Option.all_eq_true, decide_eq_true_eq]
  refine ⟨fun answer found => ?_, fun first found => ?_⟩
  · rcases Timetable.nextOpen?_cases found with ⟨opens, rfl⟩ | ⟨-, -, later, opens⟩
    · exact ⟨Std.le_refl _, opens⟩
    · exact ⟨LocalTime.le_of_lt later, opens⟩
  · exact Timetable.nextOpen?_of_firstOpenMinute? whole earliest latest found

end Property

namespace Trial

variable {trial : Trial}

/-- A trial has a time when its timestamp is in a year from 1900 to 9999. -/
theorem time?_eq_some_iff {time : LocalTime} : trial.time? = some time ↔
    ∃ stamped, LocalTime.ofTimestamp? trial.timestamp = some stamped ∧ stamped.startOfMinute = time ∧
      1900 ≤ stamped.date.year ∧ stamped.date.year ≤ 9999 := by
  unfold time?
  simp only [Option.filter_eq_some_iff, Option.map_eq_some_iff, Bool.and_eq_true,
    decide_eq_true_eq]
  constructor
  · rintro ⟨⟨stamped, found, rfl⟩, years⟩
    exact ⟨stamped, found, rfl, years⟩
  · rintro ⟨stamped, found, rfl, years⟩
    exact ⟨⟨stamped, found, rfl⟩, years⟩

/-- Every property holds of what a trial tests. -/
theorem holds_of_read {time : LocalTime} {schedule : Schedule} (timed : trial.time? = some time)
    (read : (Schedule.read trial.text).outcome = .ok schedule) (holidays : HolidaySet)
    (property : Property) : property.holds ⟨schedule, holidays⟩ time = true := by
  obtain ⟨stamped, -, rfl, low, high⟩ := time?_eq_some_iff.mp timed
  cases property with
  | writtenForm =>
    exact Property.writtenFormHolds_of_printable _ (Schedule.printable_of_read read)
  | openDate => exact Property.openDate_holds _ _
  | firstMinute =>
    have whole := stamped.isWholeMinute_startOfMinute
    exact Property.firstMinuteHolds_of_isWholeMinute whole (Int.le_trans (by decide) low)
      (Int.le_trans high (by decide))

/-- A trial with a time and a schedule upholds its property. -/
theorem run_of_read {time : LocalTime} {schedule : Schedule} (timed : trial.time? = some time)
    (read : (Schedule.read trial.text).outcome = .ok schedule) : trial.run = .upheld := by
  unfold run
  rw [timed, read]
  exact if_pos (holds_of_read timed read (trial.holidaysFrom time) trial.property)

/-- A trial without a time or without a schedule tests nothing. -/
theorem run_eq_unusable (missing : ¬ ((∃ time, trial.time? = some time) ∧
    ∃ schedule, (Schedule.read trial.text).outcome = .ok schedule)) : trial.run = .unusable := by
  unfold run
  split
  · rename_i time schedule timed read
    exact absurd ⟨⟨time, timed⟩, schedule, read⟩ missing
  · rfl

/--
No trial finds a property violated.

A trial upholds its property exactly when its timestamp is in a year from 1900 to 9999 and its text
is read as a schedule.
-/
theorem run_never_violated (trial : Trial) :
    trial.run ≠ .violated ∧
      (trial.run = .upheld ↔
        (∃ time, LocalTime.ofTimestamp? trial.timestamp = some time ∧
          1900 ≤ time.date.year ∧ time.date.year ≤ 9999) ∧
        ∃ schedule, (Schedule.read trial.text).outcome = .ok schedule) := by
  have timed : (∃ time, trial.time? = some time) ↔
      ∃ time, LocalTime.ofTimestamp? trial.timestamp = some time ∧
        1900 ≤ time.date.year ∧ time.date.year ≤ 9999 := by
    simp [time?_eq_some_iff]
  rw [← timed]
  by_cases usable : (∃ time, trial.time? = some time) ∧
      ∃ schedule, (Schedule.read trial.text).outcome = .ok schedule
  · obtain ⟨⟨time, found⟩, schedule, read⟩ := usable
    rw [run_of_read found read]
    exact ⟨nofun, fun _ => ⟨⟨time, found⟩, schedule, read⟩, fun _ => rfl⟩
  · rw [run_eq_unusable usable]
    exact ⟨nofun, nofun, fun both => absurd both usable⟩

end Trial

end OpeningTimes
