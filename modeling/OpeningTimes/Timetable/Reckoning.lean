import OpeningTimes.Timetable.Search
import OpeningTimes.Zone.Resolution

/-! Timetables asked about instants, whose local times depend on how time is reckoned. -/

namespace OpeningTimes

/-- How instants are shown on clocks and found from what clocks show. -/
structure Reckoning (Moment : Type) where
  /-- What clocks show at an instant, if the date is supported. -/
  reading? : Moment → Option LocalTime
  /-- The instant for what clocks show, if the date is supported. -/
  resolve : LocalTime → Logged (Option Moment)
  /-- The instant after some seconds have passed, if the date is supported. -/
  addSeconds? : Moment → Int → Option Moment

/-- Why there is no answer about an instant. -/
inductive CalendarFault where
  /-- Some clock shows a date that is not supported. -/
  | unsupportedDate
  deriving DecidableEq

namespace Reckoning

/-- Local times that stand for themselves. -/
def wallClock : Reckoning LocalTime :=
  ⟨some, fun time => ⟨some time, []⟩, LocalTime.addSeconds?⟩

/-- Instants that are read on the clocks of a zone. -/
def inZone (zone : Zone) : Reckoning Instant :=
  ⟨(·.readingIn? zone), zone.resolve, Instant.addSeconds?⟩

variable {Moment : Type}

/-- A timetable is open at an instant when it is so at the local time of it. -/
def isOpenAt (reckoning : Reckoning Moment) (timetable : Timetable) (moment : Moment) : Except CalendarFault Bool :=
  match reckoning.reading? moment with
  | none => .error .unsupportedDate
  | some time => .ok (timetable.isOpenAt time)

/-- The next open instant, if the search finds any. -/
def nextOpen (reckoning : Reckoning Moment) (timetable : Timetable) (moment : Moment) :
    Logged (Except CalendarFault (Option Moment)) :=
  match reckoning.reading? moment with
  | none => ⟨.error .unsupportedDate, []⟩
  | some time =>
    -- An open instant is its own answer, and only a closed one leads to a search.
    if timetable.isOpenAt time then ⟨.ok (some moment), []⟩
    else
      let now := time.startOfMinute
      let search := timetable.search now
      let searched := LogRecord.searched now search.proposed search.kept
      match search.opening with
      | none => ⟨.ok none, [searched]⟩
      | some opening =>
        let resolved := reckoning.resolve opening
        ⟨match resolved.value with
          | none => .error .unsupportedDate
          | some next => .ok (some next), searched :: resolved.log⟩

end Reckoning

end OpeningTimes
