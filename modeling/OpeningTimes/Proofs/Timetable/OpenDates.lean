import OpeningTimes.Proofs.Rule.Kinds
import OpeningTimes.Proofs.Timetable.Candidate
import OpeningTimes.Proofs.Timetable.Evaluation

/-!
Open dates are the dates of open times.

The one exception is hours of nothing but 24:00, which clocks show on the next date only.
-/

namespace OpeningTimes

/-- Hours that consist of the end of the day alone. -/
def Hours.dayEndOnly : Hours := ⟨.dayEnd, .dayEnd⟩

/-- All other hours contain a time that clocks show. -/
theorem Hours.exists_contains {hours : Hours} (other : hours ≠ dayEndOnly) :
    ∃ time : DayTime, time.minutes < 1440 ∧ hours.contains time = true := by
  have bound := hours.last.minutes_le
  by_cases early : hours.first.minutes < 1440
  · -- Hours that begin before the end of the day contain their beginning.
    refine ⟨hours.first, early, ?_⟩
    rw [contains_iff_minutes]
    omega
  · -- Hours that begin with it run on to an earlier time, and so through the first minute.
    refine ⟨.dayStart, by decide, ?_⟩
    have different : hours.last.minutes ≠ 1440 := by
      intro ends
      obtain ⟨⟨first, firstBound⟩, ⟨last, lastBound⟩⟩ := hours
      simp only at early ends
      obtain rfl : first = 1440 := by omega
      subst ends
      exact other rfl
    have none_before : DayTime.dayStart.minutes = 0 := rfl
    rw [contains_iff_minutes]
    omega

/-- The hours that a rule gives, if any. -/
def Rule.hours? : Rule → Option Hours
  | .weekly rule => some rule.hours
  | .holiday (.hours hours) => some hours
  | .holiday .closed => none
  | .closure _ => none

namespace Schedule

/-- Where a rule applies, some rule decides. -/
theorem exists_decidingRule {schedule : Schedule} {date : Date} {rule : WeeklyRule}
    (applies : rule ∈ schedule.rulesOn date) :
    ∃ deciding, deciding ∈ schedule.decidingRules date := by
  have filled : (schedule.rulesOn date).map WeeklyRule.tier ≠ [] :=
    List.ne_nil_of_mem (List.mem_map_of_mem applies)
  -- The highest tier is that of one of the rules, which exceeds all others.
  obtain ⟨tier, highest⟩ := Option.isSome_iff_exists.mp (List.isSome_max?_of_ne_nil filled)
  obtain ⟨reached, most⟩ := List.max?_eq_some_iff.mp highest
  obtain ⟨deciding, listed, rfl⟩ := List.mem_map.mp reached
  exact ⟨deciding, mem_decidingRules.mpr
    ⟨listed, fun other member => most _ (List.mem_map_of_mem member)⟩⟩

end Schedule

namespace Timetable

/--
A date is open outside of closed seasons only.

It is so by a holiday rule with hours or, without any holiday rule, by a weekly rule that applies.
-/
theorem isOpenOn_iff {timetable : Timetable} {date : Date} :
    timetable.isOpenOn date = true ↔ timetable.schedule.closedOn date = false ∧
      ((∃ hours, timetable.holidayRuleOn? date = some (.hours hours)) ∨
        timetable.holidayRuleOn? date = none ∧ ∃ rule, rule ∈ timetable.schedule.rulesOn date) := by
  unfold isOpenOn
  cases timetable.schedule.closedOn date with
  | true => simp
  | false =>
    -- Outside of closed seasons the holiday rule decides, if there is one.
    cases timetable.holidayRuleOn? date with
    | none => simp [Schedule.mem_rulesOn]
    | some rule => cases rule <;> simp [HolidayRule.opens]

/-- An open time falls on an open date. -/
theorem isOpenOn_of_isOpenAt {timetable : Timetable} {time : LocalTime}
    (opens : timetable.isOpenAt time = true) : timetable.isOpenOn time.date = true := by
  obtain ⟨outside, ⟨hours, ruled, -⟩ | ⟨working, rule, decides, -⟩⟩ := isOpenAt_iff.mp opens
  · exact isOpenOn_iff.mpr ⟨outside, .inl ⟨hours, ruled⟩⟩
  · -- A deciding rule is one of those that apply.
    exact isOpenOn_iff.mpr
      ⟨outside, .inr ⟨working, rule, (Schedule.mem_decidingRules.mp decides).1⟩⟩

/-- An open date has hours that decide about all of its times. -/
theorem exists_decidingHours {timetable : Timetable} {date : Date}
    (opens : timetable.isOpenOn date = true) :
    ∃ rule ∈ timetable.schedule.rules, ∃ hours, rule.hours? = some hours ∧
      ∀ time : LocalTime, time.date = date → hours.contains time.clock.dayTime = true →
        timetable.isOpenAt time = true := by
  obtain ⟨outside, ⟨hours, ruled⟩ | ⟨working, rule, applies⟩⟩ := isOpenOn_iff.mp opens
  · -- The hours of holidays decide alone.
    have listed := Schedule.mem_of_holidayRule? (holidayRuleOn?_eq_some_iff.mp ruled).2
    refine ⟨_, listed, hours, rfl, ?_⟩
    rintro time rfl contained
    exact isOpenAt_iff.mpr ⟨outside, .inl ⟨hours, ruled, contained⟩⟩
  · -- Of the weekly rules any of the highest tier is enough.
    obtain ⟨deciding, decides⟩ := Schedule.exists_decidingRule applies
    have listed := (Schedule.mem_rulesOn.mp (Schedule.mem_decidingRules.mp decides).1).1
    refine ⟨_, Schedule.mem_weeklyRules.mp listed, deciding.hours, rfl, ?_⟩
    rintro time rfl contained
    exact isOpenAt_iff.mpr ⟨outside, .inr ⟨working, deciding, decides, contained⟩⟩

end Timetable

/--
An open moment falls on an open date, however time is reckoned.

In turn an open date has an open minute, if no hours consist of the end of the day alone.
-/
theorem isOpenAt_agrees_isOpenOn {Moment : Type} (reckoning : Reckoning Moment)
    (timetable : Timetable) :
    (∀ moment, reckoning.isOpenAt timetable moment = .ok true →
      ∃ time, reckoning.reading? moment = some time ∧ timetable.isOpenOn time.date = true) ∧
    ((∀ rule ∈ timetable.schedule.rules, rule.hours? ≠ some Hours.dayEndOnly) →
      ∀ date, timetable.isOpenOn date = true →
        ∃ minute : LocalTime, minute.date = date ∧ minute.IsWholeMinute ∧
          Reckoning.wallClock.isOpenAt timetable minute = .ok true) := by
  constructor
  · intro moment opens
    obtain ⟨time, shown, openTime⟩ := Reckoning.isOpenAt_eq_true_iff.mp opens
    exact ⟨time, shown, Timetable.isOpenOn_of_isOpenAt openTime⟩
  · intro usual date opens
    obtain ⟨rule, listed, hours, given, decides⟩ := Timetable.exists_decidingHours opens
    have other : hours ≠ Hours.dayEndOnly := by
      intro same
      exact usual rule listed (same ▸ given)
    -- The hours that decide contain a time which the clock shows on that date.
    obtain ⟨time, running, contained⟩ := Hours.exists_contains other
    obtain ⟨minute, placed, sameDate, sameTime⟩ := LocalTime.at?_of_lt date running
    refine ⟨minute, sameDate, (LocalTime.at?_spec placed).1, ?_⟩
    rw [Reckoning.isOpenAt_wallClock, decides minute sameDate (sameTime ▸ contained)]

/-- Hours from 24:00 on open the first minute of a Monday, when universal time shows Sunday. -/
theorem isOpenAt_agrees_isOpenOn_firstMinute :
    let winter : Season := ⟨⟨.october, 31, by decide, by decide⟩, .firstOf .march⟩
    let timetable : Timetable :=
      ⟨⟨[.weekly ⟨.monday, Hours.wholeDay, none, none⟩, .closure (.ofMonths .december .december),
        .weekly ⟨.monday, ⟨.dayEnd, .dayStart⟩, some winter, none⟩, .holiday .closed]⟩, .empty⟩
    let tokyo : Zone := ⟨"Tokyo".toList, ⟨32400, some "JST".toList⟩, []⟩
    let sunday : Instant :=
      ⟨⟨⟨737820, by decide, by decide⟩, ⟨54000, 0, by decide, by decide⟩⟩, tokyo⟩
    let monday : Date := ⟨737821, by decide, by decide⟩
    (Reckoning.inZone tokyo).isOpenAt timetable sunday = .ok true ∧
      (∃ time, (Reckoning.inZone tokyo).reading? sunday = some time ∧
        timetable.isOpenOn time.date = true) ∧
      (∀ rule ∈ timetable.schedule.rules, rule.hours? ≠ some Hours.dayEndOnly) ∧
      timetable.isOpenOn monday = true ∧
      ∃ minute : LocalTime, minute.date = monday ∧ minute.IsWholeMinute ∧
        Reckoning.wallClock.isOpenAt timetable minute = .ok true := by
  intro winter timetable tokyo sunday monday
  have shown : (Reckoning.inZone tokyo).reading? sunday = some ⟨monday, .midnight⟩ := by
    decide +kernel
  have opens : (Reckoning.inZone tokyo).isOpenAt timetable sunday = .ok true :=
    Reckoning.isOpenAt_eq_true_iff.mpr ⟨_, shown, by decide +kernel⟩
  have usual : ∀ rule ∈ timetable.schedule.rules, rule.hours? ≠ some Hours.dayEndOnly := by
    decide
  have opensDate : timetable.isOpenOn monday = true := by decide +kernel
  obtain ⟨ofTimes, ofDates⟩ := isOpenAt_agrees_isOpenOn (Reckoning.inZone tokyo) timetable
  exact ⟨opens, ofTimes sunday opens, usual, opensDate, ofDates usual monday opensDate⟩

end OpeningTimes
