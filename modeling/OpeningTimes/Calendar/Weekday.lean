import OpeningTimes.Text.Letters

/-! The seven days of the week and their two-letter codes. -/

namespace OpeningTimes

/-- A day of the week, Monday being the first. -/
inductive Weekday where
  /-- The first day of the week. -/
  | monday
  /-- The second day of the week. -/
  | tuesday
  /-- The third day of the week. -/
  | wednesday
  /-- The fourth day of the week. -/
  | thursday
  /-- The fifth day of the week. -/
  | friday
  /-- The sixth day of the week. -/
  | saturday
  /-- The last day of the week. -/
  | sunday
  deriving DecidableEq

namespace Weekday

/-- The whole week, in order. -/
def all : List Weekday :=
  [monday, tuesday, wednesday, thursday, friday, saturday, sunday]

/-- The number of days since Monday. -/
def index : Weekday → Nat
  | monday => 0
  | tuesday => 1
  | wednesday => 2
  | thursday => 3
  | friday => 4
  | saturday => 5
  | sunday => 6

/-- The weekday that comes a number of days after a Monday. -/
def ofIndex (days : Nat) : Weekday :=
  -- Whole weeks lead back to the same weekday.
  match days % 7 with
  | 0 => monday
  | 1 => tuesday
  | 2 => wednesday
  | 3 => thursday
  | 4 => friday
  | 5 => saturday
  | _ => sunday

/-- The index of a weekday determines it. -/
@[simp] theorem ofIndex_index (day : Weekday) : ofIndex day.index = day := by
  cases day <;> rfl

/-- The weekday found a number of days after a Monday has that number as its index, weeks apart. -/
@[simp] theorem index_ofIndex (days : Nat) : (ofIndex days).index = days % 7 := by
  -- The remainder is one of seven numbers, each naming its own weekday.
  have bounded : days % 7 < 7 := Nat.mod_lt _ (by decide)
  unfold ofIndex
  generalize days % 7 = rest at bounded ⊢
  match rest, bounded with
  | 0, _ | 1, _ | 2, _ | 3, _ | 4, _ | 5, _ | 6, _ => rfl

/-- The number of days from one weekday until another one, which is none until the day itself. -/
def daysUntil (start goal : Weekday) : UInt32 :=
  -- Seven days more keep the unsigned difference from passing below zero.
  (7 + .ofNat goal.index - .ofNat start.index) % 7

/-- The days until a weekday are the difference of the indices, weeks apart. -/
theorem toNat_daysUntil (start goal : Weekday) :
    ((start.daysUntil goal).toNat : Int) = (goal.index - start.index) % 7 := by
  cases start <;> cases goal <;> rfl

/-- The two letters that stand for a weekday. -/
def code : Weekday → List Char
  | monday => ['M', 'o']
  | tuesday => ['T', 'u']
  | wednesday => ['W', 'e']
  | thursday => ['T', 'h']
  | friday => ['F', 'r']
  | saturday => ['S', 'a']
  | sunday => ['S', 'u']

/-- The weekday with a given code, whatever the case of its letters. -/
def ofCode? (code : List Char) : Option Weekday :=
  all.find? fun day => sameLetters day.code code

/-- The days from one weekday through another, going past Sunday where needed. -/
def through (first last : Weekday) : List Weekday :=
  -- The distance is counted forwards, so a range from a day to itself is that day alone.
  (List.range ((last.index + 7 - first.index) % 7 + 1)).map fun steps => ofIndex (first.index + steps)

end Weekday

end OpeningTimes
