import OpeningTimes.Proofs.Expression.Items
import OpeningTimes.Proofs.Rule.Passages
import OpeningTimes.Proofs.Rule.Written

/-! Each written passage describes one expression, which contributes the rules of that passage. -/

namespace OpeningTimes

namespace DaysAlike

variable {day other : Weekday} {hours list : List Hours} {groups : List DaysAlike}
  {entries : List LabelledHours}

/-- Adding a weekday puts it into the group with its hours, or into a new one behind all others. -/
theorem add_cases (day : Weekday) (hours : List Hours) (groups : List DaysAlike) :
    (∃ front days back, groups = front ++ ⟨days, hours⟩ :: back ∧
      add day hours groups = front ++ ⟨days ++ [day], hours⟩ :: back) ∨
    hours ∉ groups.map DaysAlike.hours ∧ add day hours groups = groups ++ [⟨[day], hours⟩] := by
  induction groups with
  | nil => exact .inr ⟨List.not_mem_nil, rfl⟩
  | cons group rest ih =>
    unfold add
    split
    · rename_i same
      subst same
      exact .inl ⟨[], group.days, rest, rfl, rfl⟩
    · -- What happens further back happens behind the first group.
      rename_i other
      rcases ih with ⟨front, days, back, rfl, added⟩ | ⟨fresh, added⟩
      · exact .inl ⟨group :: front, days, back, rfl, congrArg (group :: ·) added⟩
      · exact .inr ⟨List.not_mem_cons_of_ne_of_not_mem (Ne.symm other) fresh,
          congrArg (group :: ·) added⟩

/-- Adding a weekday gives it its hours and changes no others. -/
theorem exists_mem_add :
    (∃ group ∈ add day hours groups, other ∈ group.days ∧ group.hours = list) ↔
      (∃ group ∈ groups, other ∈ group.days ∧ group.hours = list) ∨
        (day = other ∧ hours = list) := by
  rcases add_cases day hours groups with ⟨front, days, back, rfl, added⟩ | ⟨-, added⟩
  · simp only [added, List.mem_append, List.mem_cons, or_and_right, exists_or, exists_eq_left,
      eq_comm (a := other), List.not_mem_nil, or_false]
    exact (or_congr_right or_right_comm).trans or_assoc.symm
  · simp only [added, List.mem_append, List.mem_singleton, or_and_right, exists_or, exists_eq_left,
      eq_comm (a := other)]

/-- Weekdays with hours stay together in groups with days and hours. -/
theorem filled_add (filled : ∀ group ∈ groups, group.days ≠ [] ∧ group.hours ≠ [])
    (opens : hours ≠ []) :
    ∀ group ∈ add day hours groups, group.days ≠ [] ∧ group.hours ≠ [] := by
  rcases add_cases day hours groups with ⟨front, days, back, rfl, added⟩ | ⟨-, added⟩
  · simp only [added, List.forall_mem_append, List.forall_mem_cons] at filled ⊢
    exact ⟨filled.1, ⟨by simp, opens⟩, filled.2.2⟩
  · simp only [added, List.forall_mem_append, List.forall_mem_singleton]
    exact ⟨filled, List.cons_ne_nil _ _, opens⟩

/-- Put the weekday of an entry into its group, if the entry has a weekday. -/
def addEntry (groups : List DaysAlike) (entry : LabelledHours) : List DaysAlike :=
  match entry.label with
  | .weekday day => add day entry.hours groups
  | _ => groups

/-- Entries are put into their groups one after the other. -/
theorem ofEntries_eq (entries : List LabelledHours) :
    ofEntries entries = entries.foldl addEntry [] :=
  rfl

/-- An entry gives its weekday the hours of that entry. -/
theorem exists_mem_addEntry {entry : LabelledHours} :
    (∃ group ∈ addEntry groups entry, other ∈ group.days ∧ group.hours = list) ↔
      (∃ group ∈ groups, other ∈ group.days ∧ group.hours = list) ∨
        (entry.label = .weekday other ∧ entry.hours = list) := by
  unfold addEntry
  cases entry.label with
  | weekday day => simp [exists_mem_add]
  | holidayHours => simp
  | holidayClosed => simp

/-- The groups of entries give each weekday the hours of its entries. -/
theorem exists_mem_ofEntries :
    (∃ group ∈ ofEntries entries, other ∈ group.days ∧ group.hours = list) ↔
      ∃ entry ∈ entries, entry.label = .weekday other ∧ entry.hours = list := by
  have general : ∀ (entries : List LabelledHours) (groups : List DaysAlike),
      (∃ group ∈ entries.foldl addEntry groups, other ∈ group.days ∧ group.hours = list) ↔
        (∃ group ∈ groups, other ∈ group.days ∧ group.hours = list) ∨
          ∃ entry ∈ entries, entry.label = .weekday other ∧ entry.hours = list := by
    intro entries
    -- Each entry adds to the groups of those in front of it.
    induction entries with
    | nil => simp
    | cons entry rest ih =>
      intro groups
      rw [List.foldl_cons, ih, exists_mem_addEntry, List.exists_mem_cons_iff, or_assoc]
  rw [ofEntries_eq, general]
  simp

/-- The groups of entries with hours have days and hours. -/
theorem filled_ofEntries
    (opens : ∀ entry ∈ entries, ∀ day, entry.label = .weekday day → entry.hours ≠ []) :
    ∀ group ∈ ofEntries entries, group.days ≠ [] ∧ group.hours ≠ [] := by
  have general : ∀ (entries : List LabelledHours) (groups : List DaysAlike),
      (∀ entry ∈ entries, ∀ day, entry.label = .weekday day → entry.hours ≠ []) →
      (∀ group ∈ groups, group.days ≠ [] ∧ group.hours ≠ []) →
      ∀ group ∈ entries.foldl addEntry groups, group.days ≠ [] ∧ group.hours ≠ [] := by
    intro entries
    induction entries with
    | nil => exact fun groups _ filled => filled
    | cons entry rest ih =>
      -- Each entry keeps the groups of those in front of it filled.
      intro groups opens filled
      refine ih _ (fun later listed => opens later (List.mem_cons_of_mem _ listed)) ?_
      unfold addEntry
      cases label : entry.label with
      | weekday day => exact filled_add filled (opens entry List.mem_cons_self day label)
      | holidayHours => exact filled
      | holidayClosed => exact filled
  exact general entries [] opens nofun

end DaysAlike

/-- Weekdays with the same hours as days of an expression. -/
def DaysAlike.dayGroup (group : DaysAlike) : DayGroup :=
  ⟨(inWeekOrder group.days).map .weekday, .hours group.hours⟩

/-- Hours for public holidays as days of an expression. -/
def LabelledHours.holidayGroup? (entry : LabelledHours) : Option DayGroup :=
  match entry.label with
  | .weekday _ => none
  | .holidayHours => some ⟨[.holiday], .hours entry.hours⟩
  | .holidayClosed => some ⟨[.holiday], .off⟩

/-- The weekdays of some entries and the public holidays behind them, as days of an expression. -/
def LabelledHours.dayGroups (entries : List LabelledHours) : List DayGroup :=
  (DaysAlike.ofEntries entries).map DaysAlike.dayGroup ++ entries.filterMap holidayGroup?

/-- The expression that a passage is written as. -/
def Passage.expression : Passage → Expression
  | .shared season years entries =>
    ⟨years, season.toList, (LabelledHours.dayGroups entries).map DayGroup.entry⟩
  | .closure season => ⟨none, [season], [.clause .off]⟩

namespace LabelledHours

variable {season : Option Season} {years : Option Years} {entry : LabelledHours}
  {entries : List LabelledHours}

/-- A label for hours comes with hours. -/
theorem Sound.opens (sound : entry.Sound season years) (given : entry.label ≠ .holidayClosed) :
    entry.hours ≠ [] := by
  intro empty
  -- Without hours the label would stand for no rules.
  refine sound.filled ?_
  unfold rules
  cases label : entry.label with
  | weekday day => simp [empty]
  | holidayHours => simp [empty]
  | holidayClosed => exact absurd label given

/-- Entries make days of an expression. -/
theorem dayGroups_ne_nil (filled : entries ≠ []) : dayGroups entries ≠ [] := by
  obtain ⟨first, rest, rfl⟩ := List.exists_cons_of_ne_nil filled
  have member : first ∈ first :: rest := List.mem_cons_self
  unfold dayGroups
  cases label : first.label with
  | weekday day =>
    -- Its weekday is in some group.
    obtain ⟨group, listed, -⟩ := DaysAlike.exists_mem_ofEntries.mpr ⟨first, member, label, rfl⟩
    simp [List.ne_nil_of_mem listed]
  | holidayHours => simp [holidayGroup?, label]
  | holidayClosed => simp [holidayGroup?, label]

end LabelledHours

/-- Ordering weekdays neither adds nor removes any. -/
theorem mem_inWeekOrder {day : Weekday} {days : List Weekday} :
    day ∈ inWeekOrder days ↔ day ∈ days := by
  have all : day ∈ Weekday.all := by cases day <;> decide
  simp [inWeekOrder, all]

/-- Weekdays with the same hours are read as an entry of their own. -/
theorem written_daysAlike {stop : Token} {group : DaysAlike} (named : group.days ≠ [])
    (opens : group.hours ≠ []) :
    Written (readEntry stop) (startsWith .day · = true) (EndsList (startsWith .time)) group.text
      group.dayGroup.entry := by
  have ordered : inWeekOrder group.days ≠ [] := by
    obtain ⟨day, listed⟩ := List.exists_mem_of_ne_nil _ named
    exact List.ne_nil_of_mem (mem_inWeekOrder.mpr listed)
  exact written_entry (written_days ordered) (written_hoursList opens) (by decide) (by decide)

/-- Public holidays are read as an entry of their own. -/
theorem written_holidayEntry {stop : Token} {season : Option Season} {years : Option Years}
    {entry : LabelledHours} {text : List Char} {group : DayGroup} (sound : entry.Sound season years)
    (shown : entry.holidayText? = some text) (grouped : entry.holidayGroup? = some group) :
    Written (readEntry stop) (startsWith .day · = true) (EndsList (startsWith .time)) text
      group.entry := by
  have days : Written (readDays stop) (startsWith .day · = true)
      (fun rest => startsWith .dash rest = false ∧ startsWith .comma rest = false)
      HolidayRule.code [.holiday] :=
    @written_dayList stop [.holiday] (List.cons_ne_nil _ _)
  unfold LabelledHours.holidayText? at shown
  unfold LabelledHours.holidayGroup? at grouped
  cases label : entry.label with
  | weekday day => simp [label] at shown
  | holidayHours =>
    simp only [label, Option.some.injEq] at shown grouped
    subst shown grouped
    -- Hours of public holidays are written like those of weekdays.
    have opens : entry.hours ≠ [] := sound.opens (by simp [label])
    exact written_entry days (written_hoursList opens) (by decide) (by decide)
  | holidayClosed =>
    simp only [label, Option.some.injEq] at shown grouped
    subst shown grouped
    -- Anything may follow the word that closes, so also what ends a list.
    have closed : Written (readClause stop) (startsWith .off · = true)
        (EndsList (startsWith .time)) offWord (some .off) :=
      written_off.weaken (fun _ begun => begun) fun _ _ => trivial
    exact written_entry days closed (by decide) (by decide)

namespace LabelledHours

/-- The text for public holidays with the days that it is about. -/
def holidayPiece? (entry : LabelledHours) : Option (List Char × DayGroup) := do
  return (← entry.holidayText?, ← entry.holidayGroup?)

/-- The pieces of text that entries are written as, each with the days that it is about. -/
def pieces (entries : List LabelledHours) : List (List Char × DayGroup) :=
  (DaysAlike.ofEntries entries).map (fun group => (group.text, group.dayGroup)) ++
    entries.filterMap holidayPiece?

/-- The pieces of text are those that a passage is written with. -/
theorem texts_pieces (entries : List LabelledHours) :
    (pieces entries).map Prod.fst =
      (DaysAlike.ofEntries entries).map DaysAlike.text ++ entries.filterMap holidayText? := by
  -- A label has a text for public holidays exactly when it has days for them.
  have holidays : (fun entry => (holidayPiece? entry).map Prod.fst) = holidayText? := by
    funext entry
    unfold holidayPiece? holidayText? holidayGroup?
    cases entry.label <;> rfl
  rw [pieces, List.map_append, List.map_map, List.map_filterMap, holidays]
  rfl

/-- The pieces of text are about the days of the entries. -/
theorem dayGroups_pieces (entries : List LabelledHours) :
    (pieces entries).map Prod.snd = dayGroups entries := by
  have holidays : (fun entry => (holidayPiece? entry).map Prod.snd) = holidayGroup? := by
    funext entry
    unfold holidayPiece? holidayText? holidayGroup?
    cases entry.label <;> rfl
  rw [pieces, List.map_append, List.map_map, List.map_filterMap, holidays]
  rfl

/-- Every piece of text is read as an entry about its days. -/
theorem written_pieces {stop : Token} {season : Option Season} {years : Option Years}
    {entries : List LabelledHours} (sound : ∀ entry ∈ entries, entry.Sound season years) :
    ∀ piece ∈ pieces entries, Written (readEntry stop) (startsWith .day · = true)
      (EndsList (startsWith .time)) piece.1 piece.2.entry := by
  intro piece listed
  rcases List.mem_append.mp listed with weekdays | holidays
  · -- Weekdays come with hours, as their labels stand for rules.
    obtain ⟨group, member, rfl⟩ := List.mem_map.mp weekdays
    have opens : ∀ entry ∈ entries, ∀ day, entry.label = .weekday day → entry.hours ≠ [] := by
      intro entry listed day label
      exact (sound entry listed).opens (by simp [label])
    obtain ⟨named, filled⟩ := DaysAlike.filled_ofEntries opens group member
    exact written_daysAlike named filled
  · obtain ⟨entry, member, found⟩ := List.mem_filterMap.mp holidays
    unfold holidayPiece? at found
    simp only [Option.bind_eq_bind, Option.bind_eq_some_iff, Option.pure_def, Option.some.injEq]
      at found
    obtain ⟨text, shown, group, grouped, rfl⟩ := found
    exact written_holidayEntry (sound entry member) shown grouped

end LabelledHours

namespace Passage

/-- The years of a passage can be written with four digits. -/
def Printable : Passage → Prop
  | .shared _ years _ => ∀ range, years = some range → range.Printable
  | .closure _ => True

/-- A written passage describes its expression. -/
theorem describes_expression {passage : Passage} (sound : passage.Sound)
    (printable : passage.Printable) : Describes passage.text passage.expression := by
  cases passage with
  | closure season =>
    -- A closed season is written with the word that closes behind it.
    have described : Describes (limitsText (some season) none ++ offWord)
        ⟨none, [season], [.clause .off]⟩ :=
      OpeningTimes.describes_expression nofun (.inr rfl) (List.cons_ne_nil _ _)
        fun _ => written_offEntries
    simpa [limitsText, text, Season.closureText, expression] using described
  | shared season years entries =>
    obtain ⟨filled, entriesSound⟩ := sound
    have nonempty : LabelledHours.pieces entries ≠ [] := by
      intro empty
      have groups := LabelledHours.dayGroups_pieces entries
      rw [empty] at groups
      exact LabelledHours.dayGroups_ne_nil filled groups.symm
    have written := fun stop =>
      @written_entries stop _ _ _ _ nonempty (LabelledHours.written_pieces entriesSound)
    have described : Describes (limitsText season years ++ _) ⟨years, season.toList, _⟩ :=
      OpeningTimes.describes_expression printable (.inl rfl) (by simpa using nonempty) written
    -- The pieces are the texts that the passage is written with and the days of its expression.
    have entriesRead : (LabelledHours.pieces entries).map (fun piece => piece.2.entry) =
        (LabelledHours.dayGroups entries).map DayGroup.entry := by
      rw [← LabelledHours.dayGroups_pieces, List.map_map]
      rfl
    rw [entriesRead, LabelledHours.texts_pieces] at described
    exact described

end Passage

section Items

variable {season : Option Season} {years : Option Years} {entry : LabelledHours}
  {entries : List LabelledHours} {item : Item}

/-- Weekdays with the same hours contribute their weekly rules. -/
theorem DaysAlike.mem_items_dayGroup {group : DaysAlike} :
    item ∈ group.dayGroup.items season years ↔ ∃ day ∈ group.days, ∃ hours ∈ group.hours,
      item = .rule (.weekly ⟨day, hours, season, years⟩) := by
  simp [DayGroup.items, dayGroup, DayGroup.hoursRule, mem_inWeekOrder, eq_comm]

/-- Hours for public holidays contribute their rules in order. -/
theorem LabelledHours.items_holidayGroup {group : DayGroup}
    (grouped : entry.holidayGroup? = some group) :
    group.items season years = (entry.rules season years).map .rule := by
  unfold holidayGroup? at grouped
  unfold rules
  cases label : entry.label with
  | weekday day => simp [label] at grouped
  | holidayHours =>
    simp only [label, Option.some.injEq] at grouped
    subst grouped
    simp [DayGroup.items, DayGroup.hoursRule]
  | holidayClosed =>
    simp only [label, Option.some.injEq] at grouped
    subst grouped
    -- Closed holidays are one rule, whatever the season.
    cases season <;> rfl

/-- A label has either a weekday or days for public holidays. -/
theorem LabelledHours.weekday_or_holidayGroup (entry : LabelledHours) :
    (∃ day, entry.label = .weekday day) ∨ ∃ group, entry.holidayGroup? = some group := by
  unfold holidayGroup?
  cases entry.label with
  | weekday day => exact .inl ⟨day, rfl⟩
  | holidayHours => exact .inr ⟨_, rfl⟩
  | holidayClosed => exact .inr ⟨_, rfl⟩

/-- The days of entries contribute the rules of these entries. -/
theorem LabelledHours.mem_items_dayGroups :
    (∃ group ∈ dayGroups entries, item ∈ group.items season years) ↔
      ∃ entry ∈ entries, item ∈ (entry.rules season years).map .rule := by
  unfold dayGroups
  constructor
  · rintro ⟨group, listed, contributed⟩
    rcases List.mem_append.mp listed with weekdays | holidays
    · -- The hours of a group are those of each of its weekdays.
      obtain ⟨alike, member, rfl⟩ := List.mem_map.mp weekdays
      obtain ⟨day, named, hours, opens, rfl⟩ := DaysAlike.mem_items_dayGroup.mp contributed
      obtain ⟨entry, given, label, same⟩ :=
        DaysAlike.exists_mem_ofEntries.mp ⟨alike, member, named, rfl⟩
      refine ⟨entry, given, List.mem_map_of_mem ?_⟩
      rw [rules, label]
      exact List.mem_map_of_mem (same ▸ opens)
    · obtain ⟨entry, given, grouped⟩ := List.mem_filterMap.mp holidays
      exact ⟨entry, given, items_holidayGroup grouped ▸ contributed⟩
  · rintro ⟨entry, given, contributed⟩
    rcases entry.weekday_or_holidayGroup with ⟨day, label⟩ | ⟨group, grouped⟩
    · -- Every weekday with hours is in a group that has these hours.
      obtain ⟨alike, member, named, same⟩ :=
        DaysAlike.exists_mem_ofEntries.mpr ⟨entry, given, label, rfl⟩
      refine ⟨alike.dayGroup, List.mem_append_left _ (List.mem_map_of_mem member), ?_⟩
      rw [rules, label, List.map_map] at contributed
      obtain ⟨hours, opens, rfl⟩ := List.mem_map.mp contributed
      exact DaysAlike.mem_items_dayGroup.mpr ⟨day, named, hours, same ▸ opens, rfl⟩
    · refine ⟨group, List.mem_append_right _ (List.mem_filterMap.mpr ⟨entry, given, grouped⟩), ?_⟩
      rw [items_holidayGroup grouped]
      exact contributed

/-- The expression of a passage contributes the rules of the passage and nothing else. -/
theorem Passage.mem_items_expression {passage : Passage} (sound : passage.Sound) :
    item ∈ passage.expression.items ↔ item ∈ passage.rules.map .rule := by
  cases passage with
  | closure season => exact Iff.rfl
  | shared season years entries =>
    rw [expression, Expression.items_ofGroups years season (LabelledHours.dayGroups_ne_nil sound.1),
      List.mem_eraseDups, List.mem_flatMap, LabelledHours.mem_items_dayGroups, rules,
      List.map_flatMap, List.mem_flatMap]

/-- The holiday rule of an item, if it has one. -/
def Item.holidayRule? : Item → Option HolidayRule
  | .rule (.holiday found) => some found
  | _ => none

/-- The holiday rule that items leave in force is the first one among them. -/
theorem Schedule.holidayRule?_ofItems (items : List Item) :
    holidayRule? ⟨items.filterMap Item.rule?⟩ = items.findSome? Item.holidayRule? := by
  unfold holidayRule? holidayRules
  rw [List.filterMap_filterMap, List.head?_filterMap]
  congr 1
  -- An item leaves a rule that is for public holidays or not.
  funext item
  cases item with
  | dayOff day years => rfl
  | rule rule => cases rule <;> rfl

/-- Rules as items leave these rules. -/
theorem Item.filterMap_rule?_map (rules : List Rule) :
    (rules.map Item.rule).filterMap Item.rule? = rules := by
  rw [List.filterMap_map]
  exact List.filterMap_some

/-- Weekdays contribute no holiday rule. -/
theorem DaysAlike.holidayRule?_dayGroups (groups : List DaysAlike) :
    Schedule.holidayRule? ⟨((groups.map dayGroup).flatMap
      (DayGroup.items season years)).filterMap Item.rule?⟩ = none := by
  rw [Schedule.holidayRule?_eq_none_iff]
  intro rule listed
  obtain ⟨item, contributed, left⟩ := List.mem_filterMap.mp listed
  obtain ⟨group, grouped, inside⟩ := List.mem_flatMap.mp contributed
  obtain ⟨alike, _, rfl⟩ := List.mem_map.mp grouped
  -- All that weekdays contribute are weekly rules.
  obtain ⟨_, _, _, _, rfl⟩ := mem_items_dayGroup.mp inside
  cases left

/-- The days of entries contribute the same first holiday rule as the entries. -/
theorem LabelledHours.holidayRule?_dayGroups (entries : List LabelledHours) :
    Schedule.holidayRule? ⟨((dayGroups entries).flatMap
      (DayGroup.items season years)).filterMap Item.rule?⟩ =
      Schedule.holidayRule? ⟨entries.flatMap (rules season years)⟩ := by
  rw [dayGroups, List.flatMap_append, List.filterMap_append, Schedule.holidayRule?_append,
    DaysAlike.holidayRule?_dayGroups, Option.none_or]
  induction entries with
  | nil => rfl
  | cons entry rest ih =>
    rw [List.flatMap_cons, Schedule.holidayRule?_append, ← ih]
    rcases entry.weekday_or_holidayGroup with ⟨day, label⟩ | ⟨group, grouped⟩
    · -- A weekday has no days for public holidays, and no holiday rule.
      have noDays : entry.holidayGroup? = none := by simp [holidayGroup?, label]
      have noRule : Schedule.holidayRule? ⟨entry.rules season years⟩ = none := by
        rw [Schedule.holidayRule?_eq_none_iff]
        simp [rules, label]
      rw [List.filterMap_cons_none noDays, noRule, Option.none_or]
    · rw [List.filterMap_cons_some grouped, List.flatMap_cons, List.filterMap_append,
        Schedule.holidayRule?_append, items_holidayGroup grouped, Item.filterMap_rule?_map]

/-- The expression of a passage contributes the same first holiday rule as the passage. -/
theorem Passage.holidayRule?_expression {passage : Passage} (sound : passage.Sound) :
    Schedule.holidayRule? ⟨passage.expression.items.filterMap Item.rule?⟩ =
      Schedule.holidayRule? ⟨passage.rules⟩ := by
  cases passage with
  | closure season => rfl
  | shared season years entries =>
    -- Without repetitions the first holiday rule is still the first one.
    rw [expression, Expression.items_ofGroups years season (LabelledHours.dayGroups_ne_nil sound.1),
      Schedule.holidayRule?_ofItems, findSome?_eraseDups, ← Schedule.holidayRule?_ofItems,
      LabelledHours.holidayRule?_dayGroups]
    rfl

end Items

end OpeningTimes
