import OpeningTimes.Calendar.LocalTime
import OpeningTimes.Holidays.HolidaySet
import OpeningTimes.Rule.Schedule

/-! Schedules evaluated at given dates and times. -/

namespace OpeningTimes

namespace WeeklyRule

/-- A rule applies on the dates of its weekday within its season and its years. -/
def appliesOn (rule : WeeklyRule) (date : Date) : Bool :=
  date.weekday = rule.day && rule.season.all (·.contains date.annualDay) &&
    rule.years.all (·.contains date.year)

/-- How narrowly a rule is limited: by nothing, by a season, by years, or by both, from zero to three. -/
def tier (rule : WeeklyRule) : Nat :=
  -- Years count for more than a season.
  rule.season.isSome.toNat + 2 * rule.years.isSome.toNat

end WeeklyRule

/-- The highest tier among some rules, if there are any. -/
def topTier? (rules : List WeeklyRule) : Option Nat :=
  (rules.map WeeklyRule.tier).max?

namespace Schedule

/-- A date is closed when a closed season contains it. -/
def closedOn (schedule : Schedule) (date : Date) : Bool :=
  schedule.closures.any (·.contains date.annualDay)

/-- The weekly rules that apply on a date. -/
def rulesOn (schedule : Schedule) (date : Date) : List WeeklyRule :=
  schedule.weeklyRules.filter (·.appliesOn date)

/-- The weekly rules that decide about a date, those of the highest tier that applies. -/
def decidingRules (schedule : Schedule) (date : Date) : List WeeklyRule :=
  let applying := schedule.rulesOn date
  applying.filter fun rule => some rule.tier = topTier? applying

end Schedule

/-- A schedule and the public holidays with which it is read. -/
structure Timetable where
  /-- The rules that open and close. -/
  schedule : Schedule
  /-- The dates on which holiday rules hold. -/
  holidays : HolidaySet
  deriving DecidableEq

namespace Timetable

/-- The holiday rule that decides about a date, if the date is a holiday and there is such a rule. -/
def holidayRuleOn? (timetable : Timetable) (date : Date) : Option HolidayRule :=
  if timetable.holidays.contains date then timetable.schedule.holidayRule? else none

/-- A local time is open when it is so by the rules that decide about its date. -/
def isOpenAt (timetable : Timetable) (time : LocalTime) : Bool :=
  -- A closed season decides before a holiday rule, and that before the weekly rules.
  if timetable.schedule.closedOn time.date then false
  else
    match timetable.holidayRuleOn? time.date with
    | some (.hours hours) => hours.contains time.clock.dayTime
    | some .closed => false
    | none => (timetable.schedule.decidingRules time.date).any (·.hours.contains time.clock.dayTime)

/-- A date is open when some rule opens on it, at whatever time. -/
def isOpenOn (timetable : Timetable) (date : Date) : Bool :=
  if timetable.schedule.closedOn date then false
  else
    match timetable.holidayRuleOn? date with
    | some rule => rule.opens
    | none => timetable.schedule.weeklyRules.any (·.appliesOn date)

end Timetable

end OpeningTimes
