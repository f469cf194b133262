import OpeningTimes.Expression.Meaning
import OpeningTimes.Rule.Text
import OpeningTimes.Text.Quoted
import OpeningTimes.Timetable.Search

/-! Trials of the properties that the evaluation of every expression must have. -/

namespace OpeningTimes

/-- A property of the answers about an expression. -/
inductive Property where
  /-- The written form of a schedule reads back as an equivalent one. -/
  | writtenForm
  /-- An open time falls on an open date. -/
  | openDate
  /-- The next opening is the first open minute. -/
  | firstMinute
  deriving DecidableEq

/-- The name under which a property is reported. -/
def Property.name : Property → String
  | writtenForm => "Stringified"
  | openDate => "Consistency"
  | firstMinute => "Minimality"

/-- The outcome of a trial. -/
inductive Verdict where
  /-- The trial does not give a time and an expression to test. -/
  | unusable
  /-- The property holds. -/
  | upheld
  /-- The property does not hold. -/
  | violated
  deriving DecidableEq

/-- The number of minutes that are looked through one by one. -/
def scannedMinutes : Nat := 4320

/-- The first open one among a number of minutes from a time on. -/
def Timetable.firstOpenMinute? (timetable : Timetable) (time : LocalTime) : Option LocalTime :=
  ((List.range scannedMinutes).filterMap fun (minute : Nat) => time.addSeconds? (60 * minute)).find?
    timetable.isOpenAt

namespace Property

/-- A timetable agrees with its written form about its rules and about a time. -/
def writtenFormHolds (timetable : Timetable) (time : LocalTime) : Bool :=
  match (Schedule.read timetable.schedule.text).outcome with
  | .error _ => false
  | .ok schedule =>
    let again : Timetable := { timetable with schedule }
    -- The order and the number of equal rules do not matter.
    timetable.schedule.rules.all (· ∈ schedule.rules) && schedule.rules.all (· ∈ timetable.schedule.rules) &&
      timetable.isOpenAt time == again.isOpenAt time && timetable.nextOpen? time == again.nextOpen? time

/-- The next opening is open, is not in the past and is the first minute found open by looking for one. -/
def firstMinuteHolds (timetable : Timetable) (time : LocalTime) : Bool :=
  let next := timetable.nextOpen? time
  next.all (fun opening => time ≤ opening && timetable.isOpenAt opening) &&
    (timetable.firstOpenMinute? time).all fun first => next = some first

/-- A property holds of a timetable at a time. -/
def holds (timetable : Timetable) (time : LocalTime) : Property → Bool
  | writtenForm => writtenFormHolds timetable time
  | openDate => !timetable.isOpenAt time || timetable.isOpenOn time.date
  | firstMinute => firstMinuteHolds timetable time

end Property

/-- A time, holidays and an expression, and the property to test on them. -/
structure Trial where
  /-- The number of seconds from the beginning of 1970 to the time. -/
  timestamp : Int
  /-- The holidays, in days after the date of the time. -/
  holidayOffsets : List Nat
  /-- The property to test. -/
  property : Property
  /-- The text of the expression. -/
  text : List Char

namespace Trial

/-- The time of a trial in whole minutes, if its year is one from 1900 to 9999. -/
def time? (trial : Trial) : Option LocalTime :=
  ((LocalTime.ofTimestamp? trial.timestamp).map LocalTime.startOfMinute).filter fun time =>
    1900 ≤ time.date.year && time.date.year ≤ 9999

/-- The holidays of a trial at a time. -/
def holidaysFrom (trial : Trial) (time : LocalTime) : HolidaySet :=
  .ofList (trial.holidayOffsets.filterMap fun (days : Nat) => time.date.addDays? days)

/-- Test the property on the time, the holidays and the expression. -/
def run (trial : Trial) : Verdict :=
  match trial.time?, (Schedule.read trial.text).outcome with
  | some time, .ok schedule =>
    if trial.property.holds ⟨schedule, trial.holidaysFrom time⟩ time then .upheld else .violated
  | _, _ => .unusable

/-- The parts of a trial as a report names them, the time and the holidays only where there is a time. -/
def describe (trial : Trial) : List Char :=
  let timed : List (List Char) :=
    match trial.time? with
    | none => []
    | some time =>
      let dates := ", ".toList.intercalate ((trial.holidaysFrom time).dates.map Date.text)
      ["date: ".toList ++ time.textWith 'T', "holidays: \x7b".toList ++ dates ++ ['\x7d']]
  let named := ["operation: ".toList ++ trial.property.name.toList, "oh: ".toList ++ quoted trial.text]
  "Data \x7b ".toList ++ ", ".toList.intercalate (timed ++ named) ++ " \x7d".toList

end Trial

end OpeningTimes
