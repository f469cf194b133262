import OpeningTimes.Text.Letters

/-! The twelve months, their names and their lengths. -/

namespace OpeningTimes

/-- A month of the year. -/
inductive Month where
  /-- The first month. -/
  | january
  /-- The second month, the only one whose length varies. -/
  | february
  /-- The third month. -/
  | march
  /-- The fourth month. -/
  | april
  /-- The fifth month. -/
  | may
  /-- The sixth month. -/
  | june
  /-- The seventh month. -/
  | july
  /-- The eighth month. -/
  | august
  /-- The ninth month. -/
  | september
  /-- The tenth month. -/
  | october
  /-- The eleventh month. -/
  | november
  /-- The last month. -/
  | december
  deriving DecidableEq

namespace Month

/-- The whole year, in order. -/
def all : List Month :=
  [january, february, march, april, may, june, july, august, september, october, november, december]

/-- The number of a month, January being the first. -/
def number : Month → Nat
  | january => 1
  | february => 2
  | march => 3
  | april => 4
  | may => 5
  | june => 6
  | july => 7
  | august => 8
  | september => 9
  | october => 10
  | november => 11
  | december => 12

/-- The month with a given number, if there is one. -/
def ofNumber? (number : Int) : Option Month :=
  all.find? fun month => (month.number : Int) == number

/-- The English name of a month. -/
def name : Month → List Char
  | january => ['J', 'a', 'n', 'u', 'a', 'r', 'y']
  | february => ['F', 'e', 'b', 'r', 'u', 'a', 'r', 'y']
  | march => ['M', 'a', 'r', 'c', 'h']
  | april => ['A', 'p', 'r', 'i', 'l']
  | may => ['M', 'a', 'y']
  | june => ['J', 'u', 'n', 'e']
  | july => ['J', 'u', 'l', 'y']
  | august => ['A', 'u', 'g', 'u', 's', 't']
  | september => ['S', 'e', 'p', 't', 'e', 'm', 'b', 'e', 'r']
  | october => ['O', 'c', 't', 'o', 'b', 'e', 'r']
  | november => ['N', 'o', 'v', 'e', 'm', 'b', 'e', 'r']
  | december => ['D', 'e', 'c', 'e', 'm', 'b', 'e', 'r']

/-- A month is abbreviated to the first three letters of its name. -/
def abbreviation (month : Month) : List Char :=
  month.name.take 3

/-- The month with a given abbreviation, whatever the case of its letters. -/
def ofAbbreviation? (text : List Char) : Option Month :=
  all.find? fun month => sameLetters month.abbreviation text

/-- The number of days of a month, in a leap year or in a common one. -/
def length (leap : Bool) : Month → Nat
  | february => if leap then 29 else 28
  | april | june | september | november => 30
  | _ => 31

/-- The highest day number that a month reaches in some year. -/
def longest (month : Month) : Nat :=
  month.length true

/-- The number of days of the year that precede a month, in a leap year or in a common one. -/
def daysBefore (leap : Bool) (month : Month) : Nat :=
  -- The months in front are the ones with a smaller number.
  (all.filter fun earlier => earlier.number < month.number).foldl (fun days earlier =>
    days + earlier.length leap) 0

/-- The month that holds a day of the year, counted from zero. -/
def ofDayOfYear (leap : Bool) (day : Nat) : Month :=
  -- It is the first month that ends after the day.
  (all.find? fun month => day < month.daysBefore leap + month.length leap).getD december

/-- No month has more than 31 days. -/
theorem length_le (leap : Bool) (month : Month) : month.length leap ≤ 31 := by
  revert leap
  cases month <;> decide

/-- The month found for a day of the year starts no later than that day and ends after it. -/
theorem ofDayOfYear_bounds (leap : Bool) {day : Nat} (within : day < 365 + leap.toNat) :
    (ofDayOfYear leap day).daysBefore leap ≤ day ∧
      day < (ofDayOfYear leap day).daysBefore leap + (ofDayOfYear leap day).length leap := by
  -- The table has one row per day, and all rows are checked.
  have table : ∀ leap : Bool, ∀ day < 365 + leap.toNat, (ofDayOfYear leap day).daysBefore leap ≤ day ∧
      day < (ofDayOfYear leap day).daysBefore leap + (ofDayOfYear leap day).length leap := by
    decide +kernel
  exact table leap day within

end Month

end OpeningTimes
