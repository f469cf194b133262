import OpeningTimes.Rule.Schedule

/-! Schedules written as expressions that read back as the same rules. -/

namespace OpeningTimes

/-- The years and the season in front of a rule, where it has them. -/
def limitsText (season : Option Season) (years : Option Years) : List Char :=
  (match years with
    | some years => years.text ++ [' ']
    | none => []) ++
  match season with
  | some season => season.text ++ [' ']
  | none => []

/-- A weekly rule alone, such as `2020 Mo 10:00-18:00`. -/
def WeeklyRule.text (rule : WeeklyRule) : List Char :=
  limitsText rule.season rule.years ++ rule.day.code ++ [' '] ++ rule.hours.text

/-- A holiday rule alone, such as `PH off`. -/
def HolidayRule.text : HolidayRule → List Char
  | .hours window => code ++ [' '] ++ window.text
  | .closed => code ++ [' '] ++ offWord

/-- A closed season, such as `Dec 24 - Jan 01 off`. -/
def Season.closureText (season : Season) : List Char :=
  season.text ++ [' '] ++ offWord

/-- A rule alone. -/
def Rule.text : Rule → List Char
  | .weekly rule => rule.text
  | .closure season => season.closureText
  | .holiday rule => rule.text

/-- What some hours within an expression are for. -/
inductive HoursLabel where
  /-- Hours on a weekday. -/
  | weekday (day : Weekday)
  /-- Hours on public holidays. -/
  | holidayHours
  /-- No hours, as public holidays are closed. -/
  | holidayClosed
  deriving DecidableEq

/-- All hours given for one purpose. -/
structure LabelledHours where
  /-- What the hours are for. -/
  label : HoursLabel
  /-- The hours in the order of the rules. -/
  hours : List Hours
  deriving DecidableEq

/-- A part of a written schedule, which becomes one expression. -/
inductive Passage where
  /-- The rules that share a season and years. -/
  | shared (season : Option Season) (years : Option Years) (entries : List LabelledHours)
  /-- A closed season. -/
  | closure (season : Season)

/-- Put hours under their label, which comes last if it is new. -/
def LabelledHours.add (label : HoursLabel) (hours : List Hours) : List LabelledHours → List LabelledHours
  | [] => [⟨label, hours⟩]
  | entry :: rest =>
    if entry.label = label then ⟨label, entry.hours ++ hours⟩ :: rest else entry :: add label hours rest

namespace Passage

/-- Put hours into the passage with their season and years, which comes last if it is new. -/
def add (season : Option Season) (years : Option Years) (label : HoursLabel) (hours : List Hours) :
    List Passage → List Passage
  | [] => [.shared season years (LabelledHours.add label hours [])]
  | .shared otherSeason otherYears entries :: rest =>
    if otherSeason = season ∧ otherYears = years then
      .shared season years (LabelledHours.add label hours entries) :: rest
    else .shared otherSeason otherYears entries :: add season years label hours rest
  | passage :: rest => passage :: add season years label hours rest

/-- Put a rule into its passage, a closed season always being a passage of its own. -/
def addRule (passages : List Passage) : Rule → List Passage
  | .weekly rule => add rule.season rule.years (.weekday rule.day) [rule.hours] passages
  | .holiday (.hours hours) => add none none .holidayHours [hours] passages
  | .holiday .closed => add none none .holidayClosed [] passages
  | .closure season => passages ++ [.closure season]

/-- The passages of rules, in the order in which their seasons and years first appear. -/
def ofRules (rules : List Rule) : List Passage :=
  rules.foldl addRule []

end Passage

/-- Weekdays that have the same hours. -/
structure DaysAlike where
  /-- The weekdays in the order of their first rules. -/
  days : List Weekday
  /-- The hours of each of the days. -/
  hours : List Hours
  deriving DecidableEq

namespace DaysAlike

/-- Put a weekday with the ones that have the same hours, or last if there are none. -/
def add (day : Weekday) (hours : List Hours) : List DaysAlike → List DaysAlike
  | [] => [⟨[day], hours⟩]
  | group :: rest =>
    if group.hours = hours then { group with days := group.days ++ [day] } :: rest
    else group :: add day hours rest

/-- The weekdays of some entries, together where their hours are the same. -/
def ofEntries (entries : List LabelledHours) : List DaysAlike :=
  entries.foldl (fun groups entry =>
    match entry.label with
    | .weekday day => add day entry.hours groups
    | _ => groups) []

end DaysAlike

/-- The hours in a row with commas between them. -/
def hoursListText (list : List Hours) : List Char :=
  [','].intercalate (list.map Hours.text)

/-- Every weekday but the last is followed by the next day of the week. -/
def consecutive : List Weekday → Bool
  | first :: second :: rest => first.index + 1 == second.index && consecutive (second :: rest)
  | _ => true

/-- The weekdays of a list in the order of the week, each once. -/
def inWeekOrder (days : List Weekday) : List Weekday :=
  Weekday.all.filter (· ∈ days)

/-- Weekdays as a range when more than two of them follow each other, and as a list otherwise. -/
def daysText (days : List Weekday) : List Char :=
  let ordered := inWeekOrder days
  match ordered.head?, ordered.getLast? with
  | some first, some last =>
    if consecutive ordered && 2 < ordered.length then first.code ++ ['-'] ++ last.code
    else [','].intercalate (ordered.map Weekday.code)
  | _, _ => []

/-- The weekdays and hours of a group, such as `Mo-Fr 10:00-18:00`. -/
def DaysAlike.text (group : DaysAlike) : List Char :=
  daysText group.days ++ [' '] ++ hoursListText group.hours

/-- The text of hours for public holidays, which weekdays do not have. -/
def LabelledHours.holidayText? (entry : LabelledHours) : Option (List Char) :=
  match entry.label with
  | .weekday _ => none
  | .holidayHours => some (HolidayRule.code ++ [' '] ++ hoursListText entry.hours)
  | .holidayClosed => some (HolidayRule.code ++ [' '] ++ offWord)

/-- A passage as an expression, with public holidays behind all weekdays. -/
def Passage.text : Passage → List Char
  | .closure season => season.closureText
  | .shared season years entries =>
    limitsText season years ++ [',', ' '].intercalate
      ((DaysAlike.ofEntries entries).map DaysAlike.text ++ entries.filterMap LabelledHours.holidayText?)

/-- A schedule as a text, one expression for each of its passages. -/
def Schedule.text (schedule : Schedule) : List Char :=
  [' ', ';', ' '].intercalate ((Passage.ofRules schedule.rules).map Passage.text)

end OpeningTimes
