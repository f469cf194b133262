import OpeningTimes.Text.Decimal

/-! Ranges of years. -/

namespace OpeningTimes

/-- The years from a first one to a last one, both included, or without an end. -/
structure Years where
  /-- The first year of the range. -/
  first : UInt16
  /-- The last year of the range, if it has one. -/
  last : Option UInt16
  deriving DecidableEq

namespace Years

/-- The range of one year alone. -/
def only (year : UInt16) : Years := ⟨year, some year⟩

/-- A range contains the years from its first one to its last one, if it has one. -/
def contains (years : Years) (year : Int) : Bool :=
  (years.first.toNat : Int) ≤ year && years.last.all fun last => year ≤ (last.toNat : Int)

/-- A range as a rule writes it, such as `2020`, `2020-2025` or `2020+`. -/
def text (years : Years) : List Char :=
  -- The range of one year is written as that year.
  padded 4 years.first.toNat ++
    match years.last with
    | none => ['+']
    | some last => if last = years.first then [] else '-' :: padded 4 last.toNat

end Years

end OpeningTimes
