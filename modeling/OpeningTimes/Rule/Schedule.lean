import OpeningTimes.Calendar.Weekday
import OpeningTimes.Rule.Hours
import OpeningTimes.Rule.Season
import OpeningTimes.Rule.Years

/-! The rules of a schedule: weekly hours, closed seasons and rules for public holidays. -/

namespace OpeningTimes

/-- Hours on one weekday, possibly within a season or a range of years only. -/
structure WeeklyRule where
  /-- The weekday on which the hours hold. -/
  day : Weekday
  /-- The hours of that weekday. -/
  hours : Hours
  /-- The season to which the rule is limited, if any. -/
  season : Option Season
  /-- The years to which the rule is limited, if any. -/
  years : Option Years
  deriving DecidableEq

/-- A rule without limits holds on its weekday all year long. -/
def WeeklyRule.isDefault (rule : WeeklyRule) : Bool :=
  rule.season.isNone && rule.years.isNone

/-- What replaces the weekly rules on a public holiday. -/
inductive HolidayRule where
  /-- Public holidays have hours of their own. -/
  | hours (hours : Hours)
  /-- Public holidays are closed. -/
  | closed
  deriving DecidableEq

/-- The two letters that stand for public holidays. -/
def HolidayRule.code : List Char := ['P', 'H']

/-- The word that closes. -/
def offWord : List Char := ['o', 'f', 'f']

/-- A holiday rule opens when it gives any hours. -/
def HolidayRule.opens : HolidayRule → Bool
  | .hours _ => true
  | .closed => false

/-- One rule of a schedule. -/
inductive Rule where
  /-- Hours on one weekday. -/
  | weekly (rule : WeeklyRule)
  /-- A season that is closed every year, whatever the other rules say. -/
  | closure (season : Season)
  /-- What replaces the weekly rules on public holidays. -/
  | holiday (rule : HolidayRule)
  deriving DecidableEq

/-- A schedule is a list of rules. -/
structure Schedule where
  /-- The rules, in the order in which they were written. -/
  rules : List Rule
  deriving DecidableEq

namespace Schedule

/-- The schedule without rules, which never opens. -/
def empty : Schedule := ⟨[]⟩

/-- The weekly rules of a schedule, in order. -/
def weeklyRules (schedule : Schedule) : List WeeklyRule :=
  schedule.rules.filterMap fun
    | .weekly rule => some rule
    | _ => none

/-- The closed seasons of a schedule, in order. -/
def closures (schedule : Schedule) : List Season :=
  schedule.rules.filterMap fun
    | .closure season => some season
    | _ => none

/-- The holiday rules of a schedule, in order. -/
def holidayRules (schedule : Schedule) : List HolidayRule :=
  schedule.rules.filterMap fun
    | .holiday rule => some rule
    | _ => none

/-- The holiday rule in force is the first one. -/
def holidayRule? (schedule : Schedule) : Option HolidayRule :=
  schedule.holidayRules.head?

end Schedule

end OpeningTimes
