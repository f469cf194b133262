import OpeningTimes.Proofs.Expression.Items
import OpeningTimes.Proofs.Expression.Words

/-!
An expression means the product of its seasons, its groups of days, the days and the hours.
-/

namespace OpeningTimes

namespace Entry

/-- The days that an entry names itself, if any. -/
def ownDays? : Entry → Option (List NamedDay)
  | .days named _ => some named
  | .always => some DayGroup.everyDay
  | .clause _ => none

/-- What an entry says about its days, which are open all day unless it says more. -/
def meaning : Entry → Clause
  | .days _ said => said.getD (.hours [Hours.wholeDay])
  | .always => .hours [Hours.wholeDay]
  | .clause said => said

end Entry

/--
Groups say what some entries say, each about the days that its entry names.

An entry that names none takes the days of the group in front of it, the first one those `before`.
-/
structure FillsLeft (before : List NamedDay) (entries : List Entry) (groups : List DayGroup) :
    Prop where
  /-- Each entry has a group. -/
  length : groups.length = entries.length
  /-- A group says what its entry says. -/
  clause : ∀ (place : Nat) entry group, entries[place]? = some entry →
    groups[place]? = some group → group.clause = entry.meaning
  /-- A group is about the days of its entry, or about those of the group in front of it. -/
  days : ∀ (place : Nat) entry group previous, entries[place]? = some entry →
    groups[place]? = some group → (before :: groups.map DayGroup.days)[place]? = some previous →
    group.days = entry.ownDays?.getD previous

/-- A group for one more entry in front hands its days on to the groups behind it. -/
theorem FillsLeft.cons {before : List NamedDay} {entry : Entry} {entries : List Entry}
    {group : DayGroup} {groups : List DayGroup} (clause : group.clause = entry.meaning)
    (days : group.days = entry.ownDays?.getD before)
    (rest : FillsLeft group.days entries groups) :
    FillsLeft before (entry :: entries) (group :: groups) where
  length := congrArg Nat.succ rest.length
  clause := by
    intro place other otherGroup atEntry atGroup
    -- The first place is that of the new group, and the others move back by one.
    cases place with
    | zero =>
      cases atEntry
      cases atGroup
      exact clause
    | succ place => exact rest.clause place other otherGroup atEntry atGroup
  days := by
    intro place other otherGroup previous atEntry atGroup inFront
    -- In front of the second group are the days of the new one.
    cases place with
    | zero =>
      cases atEntry
      cases atGroup
      cases inFront
      exact days
    | succ place => exact rest.days place other otherGroup previous atEntry atGroup inFront

namespace DayGroup

/-- The groups of entries are filled from the left. -/
theorem fillsLeft_ofEntries (before : List NamedDay) (entries : List Entry) :
    FillsLeft before entries (ofEntries before entries) := by
  induction entries generalizing before with
  | nil =>
    exact ⟨rfl, fun _ _ _ atEntry => (nomatch atEntry), fun _ _ _ _ atEntry => (nomatch atEntry)⟩
  | cons entry entries ih =>
    -- Each kind of entry passes the days of its group on to the next one.
    cases entry with
    | days days clause => exact .cons rfl rfl (ih days)
    | always => exact .cons rfl rfl (ih everyDay)
    | clause clause => exact .cons rfl rfl (ih before)

/-- What a group brings about within a season, or within the whole year, and some years. -/
inductive Brings (season : Option Season) (years : Option Years) (group : DayGroup) :
    Item → Prop where
  /-- Hours on a weekday. -/
  | weekly {list : List Hours} {day : Weekday} {hours : Hours} (given : group.clause = .hours list)
    (named : .weekday day ∈ group.days) (listed : hours ∈ list) :
    group.Brings season years (.rule (.weekly ⟨day, hours, season, years⟩))
  /-- Hours on public holidays, of any season and any year. -/
  | holiday {list : List Hours} {hours : Hours} (given : group.clause = .hours list)
    (named : .holiday ∈ group.days) (listed : hours ∈ list) :
    group.Brings season years (.rule (.holiday (.hours hours)))
  /-- Closed public holidays, of any season and any year. -/
  | holidayClosed (off : group.clause = .off) (named : .holiday ∈ group.days) :
    group.Brings season years (.rule (.holiday .closed))
  /-- A closed season, whichever weekdays are named. -/
  | closure {window : Season} {day : Weekday} (off : group.clause = .off)
    (within : season = some window) (named : .weekday day ∈ group.days) :
    group.Brings season years (.rule (.closure window))
  /-- A weekday that is closed the whole year. -/
  | dayOff {day : Weekday} (off : group.clause = .off) (always : season = none)
    (named : .weekday day ∈ group.days) : group.Brings season years (.dayOff day years)

variable {season : Option Season} {years : Option Years} {group : DayGroup} {item : Item}

/-- The weekdays of a group are those among its days. -/
theorem mem_weekdays {day : Weekday} : day ∈ group.weekdays ↔ .weekday day ∈ group.days := by
  unfold weekdays
  rw [List.mem_filterMap]
  constructor
  · rintro ⟨named, listed, isDay⟩
    cases named <;> cases isDay
    exact listed
  · intro listed
    exact ⟨.weekday day, listed, rfl⟩

/-- Given hours, a group has the items that its days and the hours bring about. -/
theorem mem_items_hours {list : List Hours} (given : group.clause = .hours list) :
    item ∈ group.items season years ↔ group.Brings season years item := by
  simp only [items, given, List.mem_flatMap, List.mem_map]
  constructor
  · rintro ⟨day, named, hours, listed, rfl⟩
    cases day with
    | weekday day => exact .weekly given named listed
    | holiday => exact .holiday given named listed
  · intro brings
    -- With hours nothing is closed, and a group has one list of hours only.
    cases brings with
    | weekly same named listed =>
      cases given.symm.trans same
      exact ⟨_, named, _, listed, rfl⟩
    | holiday same named listed =>
      cases given.symm.trans same
      exact ⟨_, named, _, listed, rfl⟩
    | holidayClosed off named => cases given.symm.trans off
    | closure off within named => cases given.symm.trans off
    | dayOff off always named => cases given.symm.trans off

/-- Closed, a group has the items that its days and the season bring about. -/
theorem mem_items_off (off : group.clause = .off) :
    item ∈ group.items season years ↔ group.Brings season years item := by
  simp only [items, off, List.mem_append]
  constructor
  · rintro (listed | listed)
    · -- Public holidays are closed where they are named.
      split at listed
      · rename_i named
        cases List.mem_singleton.mp listed
        exact .holidayClosed off named
      · cases listed
    · cases season with
      | some window =>
        dsimp only at listed
        split at listed
        · cases listed
        · -- A season is closed where any weekday is named.
          rename_i filled
          obtain ⟨day, isDay⟩ := List.exists_mem_of_ne_nil _ filled
          cases List.mem_singleton.mp listed
          exact .closure off rfl (mem_weekdays.mp isDay)
      | none =>
        -- Without a season each of the weekdays is closed by itself.
        obtain ⟨day, isDay, rfl⟩ := List.mem_map.mp listed
        exact .dayOff off rfl (mem_weekdays.mp isDay)
  · intro brings
    cases brings with
    | weekly given named listed => cases off.symm.trans given
    | holiday given named listed => cases off.symm.trans given
    | holidayClosed _ named =>
      refine .inl ?_
      rw [if_pos named]
      exact List.mem_singleton.mpr rfl
    | closure _ within named =>
      refine .inr ?_
      subst within
      dsimp only
      rw [if_neg (List.ne_nil_of_mem (mem_weekdays.mpr named))]
      exact List.mem_singleton.mpr rfl
    | dayOff _ always named =>
      refine .inr ?_
      subst always
      exact List.mem_map.mpr ⟨_, mem_weekdays.mpr named, rfl⟩

/-- A group has exactly the items that it brings about. -/
theorem mem_items : item ∈ group.items season years ↔ group.Brings season years item := by
  cases said : group.clause with
  | hours list => exact mem_items_hours said
  | off => exact mem_items_off said

end DayGroup

/-- An expression has the items that its groups bring about, each in each of the seasons. -/
theorem Expression.mem_items {expression : Expression} {item : Item} :
    item ∈ expression.items ↔ ∃ season ∈ expression.seasonChoices, ∃ group ∈ expression.groups,
      group.Brings season expression.years item := by
  unfold items
  simp only [List.mem_eraseDups, List.mem_flatMap, DayGroup.mem_items]

namespace TokenRun

/--
The parts of an expression are read from a run one behind the other, leaving some tokens.

At least one of the parts is there.
-/
def HasParts (run : TokenRun) (expression : Expression) (rest : List Token) : Prop :=
  ∃ behindYears behindSeasons,
    (readYears run.tokens).outcome = .ok (expression.years, behindYears) ∧
    (readSeasons run.stop behindYears).outcome = .ok (expression.seasons, behindSeasons) ∧
    (readEntries run.stop behindSeasons).outcome = .ok (expression.entries, rest) ∧
    (expression.years.isNone && expression.seasons.isEmpty && expression.entries.isEmpty) = false

variable {run : TokenRun} {expression : Expression} {rest : List Token}

/-- The parts leave the same tokens, however often they are read. -/
theorem HasParts.rest_eq {other : List Token} (parts : run.HasParts expression rest)
    (again : run.HasParts expression other) : rest = other := by
  obtain ⟨behindYears, behindSeasons, years, seasons, entries, -⟩ := parts
  obtain ⟨_, _, yearsAgain, seasonsAgain, entriesAgain, -⟩ := again
  -- What each reader leaves is what the next one is given.
  cases years.symm.trans yearsAgain
  cases seasons.symm.trans seasonsAgain
  cases entries.symm.trans entriesAgain
  rfl

/-- A run is read as an expression when it has the parts of that expression and nothing else. -/
theorem readExpression_eq_ok_iff :
    run.readExpression.outcome = .ok expression ↔ run.HasParts expression [] := by
  unfold HasParts
  simp only [← Reading.value?_eq_some_iff, readExpression, Reading.value?_bind_eq_some_iff,
    Prod.exists]
  constructor
  · rintro ⟨years, behindYears, yearsTaken, seasons, behindSeasons, seasonsTaken, entries, left,
      entriesTaken, read⟩
    split at read
    · simp at read
    · rename_i present
      split at read
      · cases Reading.value?_pure_eq_some_iff.mp read
        exact ⟨behindYears, behindSeasons, yearsTaken, seasonsTaken, entriesTaken,
          Bool.eq_false_iff.mpr present⟩
      · simp at read
  · rintro ⟨behindYears, behindSeasons, yearsTaken, seasonsTaken, entriesTaken, present⟩
    refine ⟨_, behindYears, yearsTaken, _, behindSeasons, seasonsTaken, _, [], entriesTaken, ?_⟩
    rw [if_neg (Bool.eq_false_iff.mp present)]
    rfl

/--
An expression whose parts are read from tokens means the product of these parts.

It has no item twice, whatever tokens are left for what follows, and the whole run is read as the
expression if none are. The groups of days are filled from the left, and without entries every hour
is open.
-/
theorem items_of_hasParts (parts : run.HasParts expression rest) :
    (run.readExpression.outcome = .ok expression ↔ rest = []) ∧
    (expression.entries = [] →
      expression.groups = [⟨DayGroup.everyDay, .hours [Hours.wholeDay]⟩]) ∧
    (expression.entries ≠ [] →
      FillsLeft DayGroup.everyDay expression.entries expression.groups) ∧
    expression.items.Nodup ∧
    ∀ item, item ∈ expression.items ↔ ∃ season ∈ expression.seasonChoices,
      ∃ group ∈ expression.groups, group.Brings season expression.years item := by
  refine ⟨?_, ?_, ?_, expression.nodup_items, fun item => Expression.mem_items⟩
  · rw [readExpression_eq_ok_iff]
    constructor
    · intro whole
      exact parts.rest_eq whole
    · rintro rfl
      exact parts
  · intro empty
    rw [Expression.groups, if_pos empty]
    rfl
  · intro filled
    rw [Expression.groups, if_neg filled]
    exact DayGroup.fillsLeft_ofEntries DayGroup.everyDay expression.entries

/-- Years, two months, public holidays, closed days and repetitions are no exception. -/
theorem items_of_hasParts_holidays :
    let text :=
      "2020+ Jan,Mar 10:00-12:00,Sa,Sa,PH 08:00-09:00,off,24/7 off,08:00-09:00; Mo off".toList
    ∃ run expression rest, scan text = .ok run ∧ run.HasParts expression rest ∧
      rest.length = 3 ∧ expression.entries.length = 5 ∧
      FillsLeft DayGroup.everyDay expression.entries expression.groups ∧
      expression.items.length = 46 ∧ expression.items.Nodup ∧
      ∃ season ∈ expression.seasonChoices, ∃ group ∈ expression.groups,
        group.Brings season expression.years (.rule (.holiday .closed)) := by
  intro text
  have evaluated : ∃ run expression rest, scan text = .ok run ∧ run.HasParts expression rest ∧
      rest.length = 3 ∧ expression.entries.length = 5 ∧ expression.items.length = 46 ∧
      Item.rule (.holiday .closed) ∈ expression.items :=
    ⟨_, ⟨_, _, _⟩, _, rfl, ⟨_, _, rfl, rfl, rfl, rfl⟩, rfl, rfl, by decide +kernel,
      by decide +kernel⟩
  obtain ⟨run, expression, rest, scanned, parts, left, entries, count, closed⟩ := evaluated
  obtain ⟨-, -, filled, once, exactly⟩ := items_of_hasParts parts
  have present : expression.entries ≠ [] := List.ne_nil_of_length_pos (by omega)
  exact ⟨run, expression, rest, scanned, parts, left, entries, filled present, count, once,
    (exactly _).mp closed⟩

end TokenRun

end OpeningTimes
