import OpeningTimes.Calendar.Month
import OpeningTimes.Text.Decimal

/-! Days that come back every year, ordered as in the calendar. -/

namespace OpeningTimes

/--
A day of some month without its year.

The day number is at most 31 but may exceed the length of the month, such a day sorts after all existing
days of its month.
-/
structure AnnualDay where
  /-- The month of the day. -/
  month : Month
  /-- The number of the day within its month. -/
  day : Nat
  /-- Days are counted from one. -/
  one_le_day : 1 ≤ day
  /-- No month has a day after the 31st. -/
  day_le : day ≤ 31
  deriving DecidableEq

namespace AnnualDay

/-- The day of a month with a given number, if that is a day number at all. -/
def of? (month : Month) (day : Nat) : Option AnnualDay :=
  if bounds : 1 ≤ day ∧ day ≤ 31 then some ⟨month, day, bounds.1, bounds.2⟩ else none

/-- The place of a day in the order of the year: by month, then by day number. -/
def rank (annual : AnnualDay) : Nat :=
  -- No day number reaches 32, so the month always decides first.
  32 * annual.month.number + annual.day

instance : LE AnnualDay := ⟨fun left right => left.rank ≤ right.rank⟩

instance : LT AnnualDay := ⟨fun left right => left.rank < right.rank⟩

instance (left right : AnnualDay) : Decidable (left ≤ right) :=
  inferInstanceAs (Decidable (left.rank ≤ right.rank))

instance (left right : AnnualDay) : Decidable (left < right) :=
  inferInstanceAs (Decidable (left.rank < right.rank))

/-- Days are compared by their places in the year. -/
theorem le_iff_rank {left right : AnnualDay} : left ≤ right ↔ left.rank ≤ right.rank := Iff.rfl

/-- Days are compared strictly by their places in the year. -/
theorem lt_iff_rank {left right : AnnualDay} : left < right ↔ left.rank < right.rank := Iff.rfl

/-- The first day of a month. -/
def firstOf (month : Month) : AnnualDay :=
  ⟨month, 1, by decide, by decide⟩

/-- The last day that a month has in some year, the 29th for February. -/
def lastOf (month : Month) : AnnualDay :=
  ⟨month, month.longest, by cases month <;> decide, Month.length_le true month⟩

/-- A day as a rule writes it, such as `Aug 01`. -/
def text (annual : AnnualDay) : List Char :=
  annual.month.abbreviation ++ [' '] ++ padded 2 annual.day

/-- A day in numbers, such as `08-01`. -/
def numericText (annual : AnnualDay) : List Char :=
  padded 2 annual.month.number ++ ['-'] ++ padded 2 annual.day

end AnnualDay

end OpeningTimes
