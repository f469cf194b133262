import OpeningTimes.Expression.Reader
import OpeningTimes.Text.Blank

/-! Expressions turned into rules, where a later expression overrides the earlier ones. -/

namespace OpeningTimes

/-- What an expression contributes before all expressions are combined. -/
inductive Item where
  /-- A rule of the schedule. -/
  | rule (rule : Rule)
  /-- A weekday that is closed, which overrides earlier rules and leaves none of its own. -/
  | dayOff (day : Weekday) (years : Option Years)
  deriving DecidableEq

/-- The days, the season and the years that a rule speaks about. -/
structure Scope where
  /-- The day of the rule. -/
  day : NamedDay
  /-- The season of the rule, if it has one. -/
  season : Option Season
  /-- The years of the rule, if it has any. -/
  years : Option Years
  deriving DecidableEq

namespace Item

/-- The rule that an item leaves in the schedule, if any. -/
def rule? : Item → Option Rule
  | .rule kept => some kept
  | .dayOff _ _ => none

/-- The scope of an item, which closed seasons do not have. -/
def scope? : Item → Option Scope
  | .rule (.weekly hours) => some ⟨.weekday hours.day, hours.season, hours.years⟩
  | .rule (.holiday _) => some ⟨.holiday, none, none⟩
  | .rule (.closure _) => none
  | .dayOff day years => some ⟨.weekday day, none, years⟩

/-- The scopes that some items have. -/
def scopes (items : List Item) : List Scope :=
  items.filterMap scope?

/-- Later items replace the earlier ones that share a scope with one of them. -/
def override (earlier later : List Item) : List Item :=
  -- An earlier item without a scope always stays.
  (earlier.filter fun item => item.scope?.all (· ∉ scopes later)) ++ later

end Item

/-- Days with what holds on them. -/
structure DayGroup where
  /-- The days of the group. -/
  days : List NamedDay
  /-- What holds on each of the days. -/
  clause : Clause
  deriving DecidableEq

namespace DayGroup

/-- The days of the whole week. -/
def everyDay : List NamedDay :=
  Weekday.all.map .weekday

/-- Every hour of the week. -/
def everyHour : DayGroup :=
  ⟨everyDay, .hours [Hours.wholeDay]⟩

/-- The groups of some entries, where an entry without days takes the ones in front of it. -/
def ofEntries (current : List NamedDay) : List Entry → List DayGroup
  | [] => []
  | .days days clause :: rest => ⟨days, clause.getD (.hours [Hours.wholeDay])⟩ :: ofEntries days rest
  | .always :: rest => everyHour :: ofEntries everyDay rest
  | .clause clause :: rest => ⟨current, clause⟩ :: ofEntries current rest

/-- The rule that gives hours to a day, where public holidays have neither season nor years. -/
def hoursRule (season : Option Season) (years : Option Years) (day : NamedDay) (hours : Hours) : Rule :=
  match day with
  | .weekday day => .weekly ⟨day, hours, season, years⟩
  | .holiday => .holiday (.hours hours)

/-- The weekdays among the days of a group. -/
def weekdays (group : DayGroup) : List Weekday :=
  group.days.filterMap fun
    | .weekday day => some day
    | .holiday => none

/-- The items of a group within a season and years. -/
def items (season : Option Season) (years : Option Years) (group : DayGroup) : List Item :=
  match group.clause with
  | .hours list => group.days.flatMap fun day => list.map fun hours => .rule (hoursRule season years day hours)
  | .off =>
    (if .holiday ∈ group.days then [.rule (.holiday .closed)] else []) ++
      -- A whole season closes at once, whichever weekdays are named and whatever the years.
      match season with
      | some season => if group.weekdays = [] then [] else [.rule (.closure season)]
      | none => group.weekdays.map fun day => .dayOff day years

end DayGroup

namespace Expression

/-- The groups of an expression, or every hour of the week if it has no entries. -/
def groups (expression : Expression) : List DayGroup :=
  if expression.entries = [] then [.everyHour]
  else DayGroup.ofEntries DayGroup.everyDay expression.entries

/-- The seasons of an expression, or the whole year if it has none. -/
def seasonChoices (expression : Expression) : List (Option Season) :=
  if expression.seasons = [] then [none] else expression.seasons.map some

/-- The items of an expression: each group within each season, and no item twice. -/
def items (expression : Expression) : List Item :=
  (expression.seasonChoices.flatMap fun season =>
    expression.groups.flatMap (DayGroup.items season expression.years)).eraseDups

end Expression

namespace Schedule

/-- The items left by expressions that override one another in order. -/
def combine (expressions : List Expression) : List Item :=
  expressions.foldl (fun items expression => Item.override items expression.items) []

/-- The schedule that expressions describe in order. -/
def ofExpressions (expressions : List Expression) : Schedule :=
  ⟨(combine expressions).filterMap Item.rule?⟩

/-- Read a schedule from its text, where a blank text describes the empty one. -/
def read (text : List Char) : Reading Schedule :=
  if isBlankText text then return empty
  else
    match TokenRun.scan text with
    | .error fault => .fail fault
    | .ok run => do
      return ofExpressions (← readExpressions run.expressions)

end Schedule

end OpeningTimes
