import OpeningTimes.Expression.Reading
import OpeningTimes.Rule.Text
import OpeningTimes.Zone.Basic

/-! Records of what happened on the way to an answer. -/

namespace OpeningTimes

/-- How much attention a record asks for. -/
inductive LogLevel where
  /-- Something is most likely not as it was meant. -/
  | warn
  /-- Something to follow a computation by. -/
  | debug

/-- The wording of a level. -/
def LogLevel.text : LogLevel → String
  | warn => "WARN"
  | debug => "DEBUG"

/-- Something that happened on the way to an answer. -/
inductive LogRecord where
  /-- A day number was replaced. -/
  | dayNumber (warning : DayWarning)
  /-- All holiday rules of a schedule but the first one have no effect. -/
  | unusedHolidayRules (schedule : Schedule)
  /-- Clocks show a local time at several instants, the first and the last of which have these offsets. -/
  | ambiguous (time : LocalTime) (first last : ZoneOffset)
  /-- Clocks skip a local time and show the second one next. -/
  | skipped (time next : LocalTime)
  /-- An opening was searched from a local time on. -/
  | searched (time : LocalTime) (proposed kept : Nat)

namespace LogRecord

/-- The level of a record. -/
def level : LogRecord → LogLevel
  | searched .. => .debug
  | _ => .warn

/-- The wording of a record. -/
def message : LogRecord → String
  | dayNumber warning => warning.message
  | unusedHolidayRules schedule =>
    s!"Schedule `{String.ofList schedule.text}` has several public holiday rules, only the first one is used"
  | ambiguous time first last =>
    let shown := String.ofList time.text
    let firstText := String.ofList (time.textWith 'T' ++ first.text)
    let lastText := String.ofList (time.textWith 'T' ++ last.text)
    s!"Ambiguous date {shown}: could be {firstText} (default) or {lastText}"
  | skipped time next =>
    s!"Skipped invalid dates from {String.ofList time.text} to {String.ofList next.text}"
  | searched time proposed kept =>
    s!"Searched next opening from {String.ofList time.text}: {proposed} candidates, {kept} kept"

/-- A record as one line. -/
def line (record : LogRecord) : String :=
  s!"{record.level.text} {record.message}"

/-- The records about a schedule itself: one when it has holiday rules without effect. -/
def ofSchedule (schedule : Schedule) : List LogRecord :=
  if 1 < schedule.holidayRules.length then [.unusedHolidayRules schedule] else []

end LogRecord

/-- A value with the records that led to it. -/
structure Logged (Value : Type) where
  /-- The value itself. -/
  value : Value
  /-- The records in the order of events. -/
  log : List LogRecord

end OpeningTimes
