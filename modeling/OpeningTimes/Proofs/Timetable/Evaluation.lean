import OpeningTimes.Timetable.Reckoning

/-!
What makes a local time open.

Closed seasons come first, then holiday rules, then the narrowest weekly rules.
-/

namespace OpeningTimes

namespace Schedule

/-- The weekly rules that apply on a date are those of the schedule that do so. -/
theorem mem_rulesOn {schedule : Schedule} {date : Date} {rule : WeeklyRule} :
    rule ∈ schedule.rulesOn date ↔ rule ∈ schedule.weeklyRules ∧ rule.appliesOn date = true :=
  List.mem_filter

/-- The rules that decide about a date apply on it and are of the highest tier that does. -/
theorem mem_decidingRules {schedule : Schedule} {date : Date} {rule : WeeklyRule} :
    rule ∈ schedule.decidingRules date ↔
      rule ∈ schedule.rulesOn date ∧ ∀ other ∈ schedule.rulesOn date, other.tier ≤ rule.tier := by
  unfold decidingRules topTier?
  rw [List.mem_filter, decide_eq_true_eq]
  constructor
  · -- The tier of a deciding rule is the highest one, which no other exceeds.
    intro decides
    obtain ⟨-, highest⟩ := List.max?_eq_some_iff.mp decides.2.symm
    exact ⟨decides.1, fun other applies => highest _ (List.mem_map.mpr ⟨other, applies, rfl⟩)⟩
  · -- The tier of the rule is among those that apply, and none of them is higher.
    intro decides
    have listed : rule.tier ∈ (schedule.rulesOn date).map WeeklyRule.tier :=
      List.mem_map.mpr ⟨rule, decides.1, rfl⟩
    refine ⟨decides.1, (List.max?_eq_some_iff.mpr ⟨listed, ?_⟩).symm⟩
    intro tier member
    obtain ⟨other, applies, rfl⟩ := List.mem_map.mp member
    exact decides.2 other applies

end Schedule

namespace Timetable

/--
A time is open outside of closed seasons only.

It is so by the holiday rule of its date or, without one, by a deciding weekly rule.
-/
theorem isOpenAt_iff {timetable : Timetable} {time : LocalTime} :
    timetable.isOpenAt time = true ↔ timetable.schedule.closedOn time.date = false ∧
      ((∃ hours, timetable.holidayRuleOn? time.date = some (.hours hours) ∧
          hours.contains time.clock.dayTime = true) ∨
        timetable.holidayRuleOn? time.date = none ∧
          ∃ rule ∈ timetable.schedule.decidingRules time.date,
            rule.hours.contains time.clock.dayTime = true) := by
  unfold isOpenAt
  cases timetable.schedule.closedOn time.date with
  | true => simp
  | false =>
    -- Outside of closed seasons the holiday rule decides, if there is one.
    cases timetable.holidayRuleOn? time.date with
    | none => simp
    | some rule => cases rule <;> simp

/-- Openness depends on the date and the time of day only. -/
theorem isOpenAt_congr {timetable : Timetable} {left right : LocalTime}
    (sameDate : left.date = right.date) (sameTime : left.clock.dayTime = right.clock.dayTime) :
    timetable.isOpenAt left = timetable.isOpenAt right := by
  unfold isOpenAt
  rw [sameDate, sameTime]

/-- The seconds of a time do not matter for whether it is open. -/
@[simp] theorem isOpenAt_startOfMinute (timetable : Timetable) (time : LocalTime) :
    timetable.isOpenAt time.startOfMinute = timetable.isOpenAt time :=
  isOpenAt_congr rfl (ClockTime.dayTime_startOfMinute time.clock)

/-- A holiday rule decides about the listed dates. -/
theorem holidayRuleOn?_eq_some_iff {timetable : Timetable} {date : Date} {rule : HolidayRule} :
    timetable.holidayRuleOn? date = some rule ↔
      date ∈ timetable.holidays.dates ∧ timetable.schedule.holidayRule? = some rule := by
  unfold holidayRuleOn?
  rw [← HolidaySet.contains_iff]
  cases timetable.holidays.contains date <;> simp

end Timetable

namespace Reckoning

/-- Local times are open or not, whatever their date. -/
theorem isOpenAt_wallClock (timetable : Timetable) (time : LocalTime) :
    wallClock.isOpenAt timetable time = .ok (timetable.isOpenAt time) :=
  rfl

/-- A moment is open when clocks show an open local time at it. -/
theorem isOpenAt_eq_true_iff {Moment : Type} {reckoning : Reckoning Moment}
    {timetable : Timetable} {moment : Moment} : reckoning.isOpenAt timetable moment = .ok true ↔
      ∃ now, reckoning.reading? moment = some now ∧ timetable.isOpenAt now = true := by
  unfold isOpenAt
  cases reckoning.reading? moment <;> simp

end Reckoning

end OpeningTimes
