import OpeningTimes.Holidays.DateText

/-! Sets of public holidays. -/

namespace OpeningTimes

/-- Put a date into an ascending list, unless it is there already. -/
def insertDate (date : Date) : List Date → List Date
  | [] => [date]
  | first :: rest =>
    if date < first then date :: first :: rest
    else if date = first then first :: rest
    else first :: insertDate date rest

/-- Putting a date into a list adds that date and no other. -/
theorem mem_insertDate {date other : Date} {dates : List Date} :
    other ∈ insertDate date dates ↔ other = date ∨ other ∈ dates := by
  induction dates with
  | nil => simp [insertDate]
  | cons first rest ih =>
    simp only [insertDate]
    split
    · simp
    · split
      · rename_i same
        simp [same]
      · simp only [List.mem_cons, ih]
        constructor <;> rintro (h | h | h) <;> simp [h]

/-- An ascending list stays ascending when a date is put into it. -/
theorem pairwise_insertDate {date : Date} {dates : List Date} (sorted : dates.Pairwise (· < ·)) :
    (insertDate date dates).Pairwise (· < ·) := by
  induction dates with
  | nil => simp [insertDate]
  | cons first rest ih =>
    obtain ⟨below, tail⟩ := List.pairwise_cons.mp sorted
    simp only [insertDate]
    split
    · rename_i before
      -- The new date precedes the first one, hence all of them.
      refine List.pairwise_cons.mpr ⟨fun other member => ?_, sorted⟩
      rcases List.mem_cons.mp member with rfl | member
      · exact before
      · have := below other member
        rw [Date.lt_iff_number] at *
        omega
    · split
      · exact sorted
      · rename_i notBefore different
        refine List.pairwise_cons.mpr ⟨fun other member => ?_, ih tail⟩
        rcases mem_insertDate.mp member with rfl | member
        · -- A date that neither precedes nor equals the first one follows it.
          have : other.number ≠ first.number := fun same => different (Date.eq_of_number same)
          rw [Date.lt_iff_number] at *
          omega
        · exact below other member

/-- A set of public holidays, as an ascending list. -/
structure HolidaySet where
  /-- The holidays in ascending order. -/
  dates : List Date
  /-- No date comes twice, and none out of order. -/
  sorted : dates.Pairwise (· < ·)
  deriving DecidableEq

namespace HolidaySet

/-- The set without holidays. -/
def empty : HolidaySet := ⟨[], .nil⟩

/-- A set with one more holiday. -/
def insert (holidays : HolidaySet) (date : Date) : HolidaySet :=
  ⟨insertDate date holidays.dates, pairwise_insertDate holidays.sorted⟩

/-- The set of the dates in a list. -/
def ofList (dates : List Date) : HolidaySet :=
  dates.foldl insert empty

/-- The set of the dates in a list has these dates and no other. -/
theorem mem_ofList {date : Date} {dates : List Date} : date ∈ (ofList dates).dates ↔ date ∈ dates := by
  -- Putting the dates in one by one adds them to whatever the set had before.
  have added : ∀ (holidays : HolidaySet),
      date ∈ (dates.foldl insert holidays).dates ↔ date ∈ holidays.dates ∨ date ∈ dates := by
    induction dates with
    | nil => simp
    | cons first rest ih =>
      intro holidays
      rw [List.foldl_cons, ih, insert, mem_insertDate, List.mem_cons]
      constructor
      · rintro ((same | member) | member) <;> simp [*]
      · rintro (member | same | member) <;> simp [*]
  have fromEmpty := added empty
  rw [show empty.dates = [] from rfl] at fromEmpty
  simpa [ofList] using fromEmpty

/-- A date is a holiday when the set has it. -/
def contains (holidays : HolidaySet) (date : Date) : Bool :=
  decide (date ∈ holidays.dates)

/-- The holidays are the dates that the set contains. -/
@[simp] theorem contains_iff {holidays : HolidaySet} {date : Date} :
    holidays.contains date = true ↔ date ∈ holidays.dates :=
  decide_eq_true_iff

/-- The holidays from a given date on, in ascending order. -/
def startingAt (holidays : HolidaySet) (date : Date) : List Date :=
  holidays.dates.filter (date ≤ ·)

/-- A text that names no date. -/
structure UnreadableDate where
  /-- The text with the blanks around it. -/
  text : List Char
  deriving DecidableEq

/-- The wording of the refusal. -/
def UnreadableDate.message (unread : UnreadableDate) : String :=
  s!"Invalid holiday `{String.ofList unread.text}`: expected a date formatted as YYYY-MM-DD"

/-- The dates that some texts name, or the first text that names none. -/
def readDates : List (List Char) → Except UnreadableDate (List Date)
  | [] => .ok []
  | text :: rest =>
    match Date.read? text with
    | none => .error ⟨text⟩
    | some date => (readDates rest).map (date :: ·)

/-- The set of the holidays that some texts name, or the first text that names none. -/
def read (texts : List (List Char)) : Except UnreadableDate HolidaySet :=
  (readDates texts).map ofList

end HolidaySet

end OpeningTimes
