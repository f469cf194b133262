import OpeningTimes.Timetable.Basic

/-! The dates on which the next opening of a rule is looked for. -/

namespace OpeningTimes

/-- The number of days searched for a rule that holds all year long. -/
def searchDays : Int := 366

/-- The number of occurrences of a season that are searched, as the running one may have no day left. -/
def searchedOccurrences : Nat := 2

/-- The dates from a first one to a last one, both included. -/
structure DateRange where
  /-- The first date of the range. -/
  first : Date
  /-- The last date of the range. -/
  last : Date
  deriving DecidableEq

/-- The later one of two dates. -/
def laterDate (left right : Date) : Date :=
  if left ≤ right then right else left

/-- The earlier one of two dates. -/
def earlierDate (left right : Date) : Date :=
  if left ≤ right then left else right

namespace Season

/-- The occurrences of a season that end on a date or later, among those of the years around it. -/
def occurrencesFrom (season : Season) (date : Date) : List DateRange :=
  -- A season that began last year may be running, and a leap day comes back within the years ahead.
  (List.range 6).filterMap fun (ahead : Nat) =>
    match season.occurrence? (date.year - 1 + ahead) with
    | some (first, last) => if date ≤ last then some ⟨first, last⟩ else none
    | none => none

end Season

namespace WeeklyRule

/-- The first date from today on in the years of a rule, and the last date of these years, if any. -/
def yearBounds? (rule : WeeklyRule) (today : Date) : Option (Date × Option Date) :=
  match rule.years with
  | none => some (today, none)
  | some years => do
    let first ← Date.ofYearMonthDay? years.first.toNat .january 1
    match years.last with
    | none => return (laterDate today first, none)
    | some last => return (laterDate today first, some (← Date.ofYearMonthDay? last.toNat .december 31))

/-- The dates that a rule is searched on, without regard to the end of its years. -/
def openRanges (rule : WeeklyRule) (start : Date) : List DateRange :=
  match rule.season with
  | none => ((start.addDays? searchDays).map (DateRange.mk start)).toList
  | some season => ((season.occurrencesFrom start).take searchedOccurrences).map fun range =>
      ⟨laterDate range.first start, range.last⟩

/-- The ranges of dates in which an opening of a rule is searched. -/
def searchRanges (rule : WeeklyRule) (today : Date) : List DateRange :=
  match rule.yearBounds? today with
  | none => []
  | some (start, bound) =>
    -- The last year may cut a range short or leave nothing of it.
    ((rule.openRanges start).map fun range =>
      { range with last := bound.elim range.last (earlierDate range.last) }).filter fun range =>
        range.first ≤ range.last

end WeeklyRule

end OpeningTimes
