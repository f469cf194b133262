import OpeningTimes.Timetable.SearchRange

/-! The search for the next opening: every rule proposes openings, and the first one that holds is the answer. -/

namespace OpeningTimes

namespace Hours

/-- The first opening of hours on a date from a given time of day on. -/
def openingOn? (hours : Hours) (date : Date) (time : DayTime) : Option LocalTime :=
  (hours.openingFrom? time).bind (LocalTime.at? date)

/-- The first opening of hours on a date that is not in the past. -/
def openingAfter? (hours : Hours) (now : LocalTime) (date : Date) : Option LocalTime :=
  -- Only today has times that are over.
  hours.openingOn? date (if date = now.date then now.clock.dayTime else .dayStart)

end Hours

/-- The openings that a rule proposes, at most one for each date of its search ranges. -/
def WeeklyRule.proposals (rule : WeeklyRule) (now : LocalTime) : List LocalTime :=
  (rule.searchRanges now.date).flatMap fun range =>
    ((Date.onWeekday rule.day range.first range.last).filter rule.appliesOn).filterMap
      (rule.hours.openingAfter? now)

/-- A search with what it went through. -/
structure Search where
  /-- The number of openings that the weekly rules proposed. -/
  proposed : Nat
  /-- The number of openings left by closed seasons and holiday rules. -/
  kept : Nat
  /-- The first opening, if one was found. -/
  opening : Option LocalTime

namespace Timetable

/-- The openings that the weekly rules of a timetable propose. -/
def proposals (timetable : Timetable) (now : LocalTime) : List LocalTime :=
  timetable.schedule.weeklyRules.flatMap (·.proposals now)

/-- The proposed openings outside of closed seasons, with the holiday rule put in place of the weekly ones. -/
def candidates (timetable : Timetable) (now : LocalTime) : List LocalTime :=
  let outside := (timetable.proposals now).filter fun opening => !timetable.schedule.closedOn opening.date
  match timetable.schedule.holidayRule? with
  | some (.hours hours) =>
    outside ++ (timetable.holidays.startingAt now.date).filterMap (hours.openingAfter? now)
  | some .closed => outside.filter fun opening => !timetable.holidays.contains opening.date
  | none => outside

/-- The earliest candidate that is not in the past and is open by all rules together. -/
def firstOpening? (timetable : Timetable) (now : LocalTime) : Option LocalTime :=
  ((timetable.candidates now).filter fun opening => now ≤ opening && timetable.isOpenAt opening).min?

/-- Search for the next opening from a whole minute on. -/
def search (timetable : Timetable) (now : LocalTime) : Search :=
  ⟨(timetable.proposals now).length, (timetable.candidates now).length, timetable.firstOpening? now⟩

/-- The next open local time: the given one if it is open, or else the next opening. -/
def nextOpen? (timetable : Timetable) (time : LocalTime) : Option LocalTime :=
  if timetable.isOpenAt time then some time else timetable.firstOpening? time.startOfMinute

end Timetable

end OpeningTimes
