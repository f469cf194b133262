import OpeningTimes.Calendar.Month
import OpeningTimes.Expression.Fault

/-! Reading with warnings, which are kept when the reading fails later on. -/

namespace OpeningTimes

/-- A day number that no month has and that another day stands in for. -/
structure DayWarning where
  /-- The month that the number follows. -/
  month : Month
  /-- The number as it was written. -/
  number : Nat
  deriving DecidableEq

/-- The wording of a warning. -/
def DayWarning.message (warning : DayWarning) : String :=
  let month := String.ofList warning.month.abbreviation
  -- Zero is below all days, any other such number is above them.
  if warning.number = 0 then s!"Found day number 0 for {month}: specify the 1st or 31st instead."
  else s!"Found day number {warning.number} for {month}, using the 31st."

/-- What was read or why it could not be, with the warnings given until then. -/
structure Reading (Value : Type) where
  /-- The warnings in the order of the text. -/
  warnings : List DayWarning
  /-- The value that was read, or the fault that ended the reading. -/
  outcome : Except Fault Value

namespace Reading

/-- Give a value without a warning. -/
protected def pure {Value : Type} (value : Value) : Reading Value :=
  ⟨[], .ok value⟩

/-- Read on after a value, and stop at the first fault. -/
protected def bind {Value Next : Type} (reading : Reading Value) (next : Value → Reading Next) :
    Reading Next :=
  match reading.outcome with
  | .error fault => ⟨reading.warnings, .error fault⟩
  | .ok value =>
    let after := next value
    ⟨reading.warnings ++ after.warnings, after.outcome⟩

instance : Monad Reading where
  pure := Reading.pure
  bind := Reading.bind

/-- Giving a value neither fails nor warns. -/
@[simp] theorem outcome_pure {Value : Type} (value : Value) : (pure value : Reading Value).outcome = .ok value :=
  rfl

/-- Giving a value adds no warning. -/
@[simp] theorem warnings_pure {Value : Type} (value : Value) : (pure value : Reading Value).warnings = [] :=
  rfl

/-- Reading on leads to the outcome of the second reading, unless the first one failed. -/
theorem outcome_bind {Value Next : Type} (reading : Reading Value) (next : Value → Reading Next) :
    (reading >>= next).outcome = reading.outcome.bind fun value => (next value).outcome := by
  change (Reading.bind reading next).outcome = _
  unfold Reading.bind
  cases reading.outcome <;> rfl

/-- Reading on keeps the warnings and adds those of the second reading, unless the first one failed. -/
theorem warnings_bind {Value Next : Type} (reading : Reading Value) (next : Value → Reading Next) :
    (reading >>= next).warnings =
      reading.warnings ++ (reading.outcome.toOption.elim [] fun value => (next value).warnings) := by
  change (Reading.bind reading next).warnings = _
  unfold Reading.bind
  cases reading.outcome with
  | error fault => exact (List.append_nil _).symm
  | ok value => rfl

/-- End the reading with a fault. -/
def fail {Value : Type} (fault : Fault) : Reading Value :=
  ⟨[], .error fault⟩

/-- End the reading at a token that does not fit. -/
def refuse {Value : Type} (expected : Expectation) (found : Token) : Reading Value :=
  fail (.token expected found)

/-- Warn and read on. -/
def warn (warning : DayWarning) : Reading Unit :=
  ⟨[warning], .ok ()⟩

end Reading

end OpeningTimes
