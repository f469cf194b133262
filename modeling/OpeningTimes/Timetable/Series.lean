import OpeningTimes.Timetable.Reckoning

/-! Answers of a timetable about many instants or dates in a row. -/

namespace OpeningTimes

namespace Reckoning

variable {Moment : Type}

/--
Up to `count` openings, each the next one when `gap` seconds have passed since the one before.

The list ends with `none` where no further opening is found or the gap leaves the supported dates.
-/
def openings (reckoning : Reckoning Moment) (timetable : Timetable) (gap : Int) :
    Nat → Moment → Logged (Except CalendarFault (List (Option Moment)))
  | 0, _ => ⟨.ok [], []⟩
  | count + 1, moment =>
    let found := reckoning.nextOpen timetable moment
    match found.value with
    | .error fault => ⟨.error fault, found.log⟩
    | .ok none => ⟨.ok [none], found.log⟩
    | .ok (some opening) =>
      match reckoning.addSeconds? opening gap with
      | none => ⟨.ok [some opening, none], found.log⟩
      | some later =>
        let others := reckoning.openings timetable gap count later
        ⟨others.value.map (some opening :: ·), found.log ++ others.log⟩

/-- Whether a timetable is open at `count` instants, each `gap` seconds after the one before. -/
def openness (reckoning : Reckoning Moment) (timetable : Timetable) (gap : Int) (count : Nat) (moment : Moment) :
    Except CalendarFault (List Bool) :=
  -- Each instant is reached from the first one at once.
  ((List.range count).filterMap fun (step : Nat) => reckoning.addSeconds? moment (gap * step)).mapM
    (reckoning.isOpenAt timetable)

end Reckoning

/-- Whether a timetable is open on `count` dates in a row, as long as a further date is supported. -/
def Timetable.opennessOfDays (timetable : Timetable) : Nat → Date → List Bool
  | 0, _ => []
  | count + 1, date =>
    match date.addDays? 1 with
    | none => []
    | some next => timetable.isOpenOn date :: timetable.opennessOfDays count next

/-- Equal values in a row, each counted once with its number. -/
def runLengths : List Bool → List (Bool × Nat)
  | [] => []
  | value :: rest =>
    match runLengths rest with
    | (first, count) :: others =>
      if value = first then (value, count + 1) :: others else (value, 1) :: (first, count) :: others
    | [] => [(value, 1)]

end OpeningTimes
