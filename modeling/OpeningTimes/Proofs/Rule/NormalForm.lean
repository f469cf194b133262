import OpeningTimes.Proofs.Rule.Regathering
import OpeningTimes.Proofs.Rule.WellFormed
import Mathlib.Data.List.Perm.Basic

/-!
Written schedules are a normal form: read again, they are written the same.

Reading a written passage groups its rules by their hours, in the order of the week and with
public holidays last. Gathering and writing the rules in that order groups them alike.
-/

namespace OpeningTimes

namespace DaysAlike

variable {day : Weekday} {hours : List Hours} {group : DaysAlike}
  {groups front : List DaysAlike}

/-- Adding a weekday with hours that the first groups do not have leaves these as they are. -/
theorem add_append (fresh : hours ∉ front.map DaysAlike.hours) (back : List DaysAlike) :
    add day hours (front ++ back) = front ++ add day hours back := by
  induction front with
  | nil => rfl
  | cons group rest ih =>
    rw [List.map_cons, List.mem_cons, not_or] at fresh
    rw [List.cons_append, add, if_neg (Ne.symm fresh.1), ih fresh.2, List.cons_append]

/-- A weekday with hours that no group has becomes a new group behind the others. -/
theorem add_fresh (fresh : hours ∉ groups.map DaysAlike.hours) :
    add day hours groups = groups ++ [⟨[day], hours⟩] := by
  simpa [add] using add_append fresh []

/-- Weekdays with the same hours as entries, one for each. -/
def byDay (group : DaysAlike) : List LabelledHours :=
  group.days.map fun day => ⟨.weekday day, group.hours⟩

/-- The weekdays of a group come together again behind groups with other hours. -/
theorem foldl_addEntry_byDay (named : group.days ≠ [])
    (fresh : group.hours ∉ front.map DaysAlike.hours) :
    group.byDay.foldl addEntry front = front ++ [group] := by
  obtain ⟨days, hours⟩ := group
  dsimp only at named fresh
  -- Behind a weekday of the group, each joins the ones in front of it.
  have joined (rest done : List Weekday) :
      (byDay ⟨rest, hours⟩).foldl addEntry (front ++ [⟨done, hours⟩]) =
        front ++ [⟨done ++ rest, hours⟩] := by
    induction rest generalizing done with
    | nil => rw [List.append_nil]; rfl
    | cons day rest ih =>
      have next : addEntry (front ++ [⟨done, hours⟩]) ⟨.weekday day, hours⟩ =
          front ++ [⟨done ++ [day], hours⟩] := by
        show add day hours _ = _
        rw [add_append fresh, add, if_pos rfl]
      have behind := ih (done ++ [day])
      rw [← next, List.append_assoc] at behind
      exact behind
  -- The first weekday opens the group.
  obtain ⟨first, rest, rfl⟩ := List.exists_cons_of_ne_nil named
  have opened : addEntry front ⟨.weekday first, hours⟩ = front ++ [⟨[first], hours⟩] :=
    add_fresh fresh
  have others := joined rest [first]
  rw [← opened] at others
  exact others

/-- Groups with different hours come together again from their own entries. -/
theorem ofEntries_flatMap_byDay (distinct : (groups.map DaysAlike.hours).Nodup)
    (named : ∀ group ∈ groups, group.days ≠ []) : ofEntries (groups.flatMap byDay) = groups := by
  induction groups using List.reverseRecOn with
  | nil => rfl
  | append_singleton groups group ih =>
    rw [List.forall_mem_append, List.forall_mem_singleton] at named
    rw [List.map_append, List.nodup_append] at distinct
    -- The groups in front are there again when the weekdays of the last one come.
    have before := ih distinct.1 named.1
    rw [ofEntries_eq] at before ⊢
    rw [List.flatMap_append, List.foldl_append, before, List.flatMap_singleton]
    exact foldl_addEntry_byDay named.2 fun listed =>
      distinct.2.2 _ listed _ (List.mem_singleton.mpr rfl) rfl

/-- One more entry is put into the groups of the entries in front of it. -/
theorem ofEntries_append_singleton (entries : List LabelledHours) (entry : LabelledHours) :
    ofEntries (entries ++ [entry]) = addEntry (ofEntries entries) entry := by
  rw [ofEntries_eq, List.foldl_append]
  rfl

/-- No two groups of entries have the same hours. -/
theorem nodup_hours_ofEntries (entries : List LabelledHours) :
    ((ofEntries entries).map DaysAlike.hours).Nodup := by
  induction entries using List.reverseRecOn with
  | nil => exact List.nodup_nil
  | append_singleton entries entry ih =>
    rw [ofEntries_append_singleton, addEntry]
    split
    · rename_i day label
      rcases add_cases day entry.hours (ofEntries entries) with
        ⟨front, days, back, same, added⟩ | ⟨fresh, added⟩
      · -- A group that takes the weekday keeps its hours.
        rw [added]
        simpa [same] using ih
      · -- A new group has hours that no other one has.
        rw [added, List.map_append, List.map_singleton, ← List.concat_eq_append]
        exact List.Nodup.concat fresh ih
    · exact ih

/-- Adding a weekday adds the entry for it, wherever its group is. -/
theorem perm_byDay_add (day : Weekday) (hours : List Hours) (groups : List DaysAlike) :
    ((add day hours groups).flatMap byDay).Perm
      (groups.flatMap byDay ++ [⟨.weekday day, hours⟩]) := by
  rcases add_cases day hours groups with ⟨front, days, back, rfl, added⟩ | ⟨-, added⟩
  · rw [added]
    simp only [List.flatMap_append, List.flatMap_cons, byDay, List.map_append, List.map_cons,
      List.map_nil, List.append_assoc]
    -- The weekday comes in front of the groups behind its own.
    refine List.Perm.append_left _ (List.Perm.append_left _ ?_)
    exact List.perm_append_comm
  · rw [added, List.flatMap_append, List.flatMap_singleton]
    rfl

/-- The weekdays of a group in the order of the week. -/
def ordered (group : DaysAlike) : DaysAlike :=
  { group with days := inWeekOrder group.days }

end DaysAlike

/-- Weekdays in the order of the week are in order already. -/
theorem inWeekOrder_inWeekOrder (days : List Weekday) :
    inWeekOrder (inWeekOrder days) = inWeekOrder days :=
  List.filter_congr fun _ _ => decide_eq_decide.mpr mem_inWeekOrder

/-- Weekdays without repetitions are only put in another order. -/
theorem perm_inWeekOrder {days : List Weekday} (once : days.Nodup) :
    (inWeekOrder days).Perm days := by
  have orderedOnce : (inWeekOrder days).Nodup := List.Nodup.filter _ (by decide)
  exact (List.perm_ext_iff_of_nodup orderedOnce once).mpr fun day => mem_inWeekOrder

/-- Weekdays in another order are written the same. -/
theorem DaysAlike.text_ordered (group : DaysAlike) : group.ordered.text = group.text := by
  rw [text, text, ordered, daysText, daysText, inWeekOrder_inWeekOrder]

namespace LabelledHours

variable {season : Option Season} {years : Option Years} {entries : List LabelledHours}

/-- An entry is for public holidays. -/
def isForHolidays (entry : LabelledHours) : Bool :=
  entry.holidayGroup?.isSome

/-- Entries in the order in which they are written and read again. -/
def regroup (entries : List LabelledHours) : List LabelledHours :=
  ((DaysAlike.ofEntries entries).map DaysAlike.ordered).flatMap DaysAlike.byDay ++
    entries.filter isForHolidays

/-- The weekdays of the groups and the public holidays behind them are the entries. -/
theorem perm_ofEntries (entries : List LabelledHours) :
    ((DaysAlike.ofEntries entries).flatMap DaysAlike.byDay ++
      entries.filter isForHolidays).Perm entries := by
  induction entries using List.reverseRecOn with
  | nil => rfl
  | append_singleton entries entry ih =>
    rw [DaysAlike.ofEntries_append_singleton, DaysAlike.addEntry, List.filter_append]
    obtain ⟨label, hours⟩ := entry
    cases label with
    | weekday day =>
      -- The weekday is added to the groups, which are in front of the public holidays.
      have others : [⟨.weekday day, hours⟩].filter isForHolidays = [] := rfl
      rw [others, List.append_nil]
      have joined := DaysAlike.perm_byDay_add day hours (DaysAlike.ofEntries entries)
      refine (joined.append_right _).trans ?_
      -- From there it moves behind the public holidays.
      rw [List.append_assoc]
      refine (List.Perm.append_left _ List.perm_append_comm).trans ?_
      rw [← List.append_assoc]
      exact ih.append_right _
    | holidayHours =>
      -- Public holidays stay behind all others.
      rw [← List.append_assoc]
      exact ih.append_right _
    | holidayClosed =>
      rw [← List.append_assoc]
      exact ih.append_right _

/-- Entries in the order in which they are read again are the same entries. -/
theorem perm_regroup (all : AllTidy entries) : (regroup entries).Perm entries := by
  have grouped := perm_ofEntries entries
  -- No label comes twice, so no group has a weekday twice.
  have once := grouped.nodup_iff.mpr (List.Nodup.of_map _ all.distinct)
  have days := (List.nodup_flatMap.mp (List.nodup_append.mp once).1).1
  -- Ordering its weekdays changes the order of its entries only.
  refine (List.Perm.append_right _ ?_).trans grouped
  rw [List.flatMap_map]
  refine List.Perm.flatMap_left _ fun group listed => ?_
  exact (perm_inWeekOrder (List.Nodup.of_map _ (days group listed))).map _

/-- Entries that are read again are tidy as before. -/
theorem AllTidy.regroup (all : AllTidy entries) : AllTidy (regroup entries) := by
  have perm := perm_regroup all
  constructor
  case distinct => exact (perm.map _).nodup_iff.mpr all.distinct
  case tidy => exact fun entry listed => all.tidy entry (perm.mem_iff.mp listed)

/-- Entries for public holidays add no weekdays. -/
theorem foldl_addEntry_holidays {groups : List DaysAlike}
    (holidays : ∀ entry ∈ entries, entry.isForHolidays = true) :
    entries.foldl DaysAlike.addEntry groups = groups := by
  induction entries with
  | nil => rfl
  | cons entry rest ih =>
    rw [List.forall_mem_cons] at holidays
    obtain ⟨label, hours⟩ := entry
    cases label with
    | weekday day => cases holidays.1
    | holidayHours => exact ih holidays.2
    | holidayClosed => exact ih holidays.2

/-- Entries that are read again have the same groups of weekdays, each in order. -/
theorem ofEntries_regroup (sound : ∀ entry ∈ entries, entry.Sound season years) :
    DaysAlike.ofEntries (regroup entries) =
      (DaysAlike.ofEntries entries).map DaysAlike.ordered := by
  have opens : ∀ entry ∈ entries, ∀ day, entry.label = .weekday day → entry.hours ≠ [] :=
    fun entry listed day label => (sound entry listed).opens (by simp [label])
  -- Ordering changes neither which weekdays a group has nor their hours.
  have named : ∀ group ∈ (DaysAlike.ofEntries entries).map DaysAlike.ordered,
      group.days ≠ [] := by
    intro group listed
    obtain ⟨unordered, member, rfl⟩ := List.mem_map.mp listed
    obtain ⟨day, inside⟩ :=
      List.exists_mem_of_ne_nil _ (DaysAlike.filled_ofEntries opens unordered member).1
    exact List.ne_nil_of_mem (mem_inWeekOrder.mpr inside)
  have distinct : (((DaysAlike.ofEntries entries).map DaysAlike.ordered).map
      DaysAlike.hours).Nodup := by
    rw [List.map_map]
    exact DaysAlike.nodup_hours_ofEntries entries
  have grouped := DaysAlike.ofEntries_flatMap_byDay distinct named
  rw [DaysAlike.ofEntries_eq] at grouped
  rw [regroup, DaysAlike.ofEntries_eq, List.foldl_append, grouped,
    foldl_addEntry_holidays fun entry listed => (List.mem_filter.mp listed).2]

/-- Entries that are read again have the same texts for public holidays. -/
theorem filterMap_holidayText?_regroup (entries : List LabelledHours) :
    (regroup entries).filterMap holidayText? = entries.filterMap holidayText? := by
  -- The weekdays in front have no such text.
  have weekdays : (((DaysAlike.ofEntries entries).map DaysAlike.ordered).flatMap
      DaysAlike.byDay).filterMap holidayText? = [] := by
    refine List.filterMap_eq_nil_iff.mpr fun entry listed => ?_
    obtain ⟨group, -, inside⟩ := List.mem_flatMap.mp listed
    obtain ⟨day, -, rfl⟩ := List.mem_map.mp inside
    rfl
  rw [regroup, List.filterMap_append, weekdays, List.nil_append, List.filterMap_filter]
  -- An entry that is not for public holidays has no text for them.
  refine List.filterMap_congr fun entry _ => ?_
  obtain ⟨label, hours⟩ := entry
  cases label <;> rfl

/-- Days for public holidays contribute the rules of their entries in order. -/
theorem items_holidayGroups (entries : List LabelledHours) :
    (entries.filterMap holidayGroup?).flatMap (DayGroup.items season years) =
      ((entries.filter isForHolidays).flatMap (rules season years)).map .rule := by
  induction entries with
  | nil => rfl
  | cons entry rest ih =>
    cases grouped : entry.holidayGroup? with
    | none =>
      -- An entry for a weekday is left out on both sides.
      have weekday : ¬entry.isForHolidays = true := by simp [isForHolidays, grouped]
      rw [List.filterMap_cons_none grouped, List.filter_cons_of_neg weekday, ih]
    | some group =>
      have holiday : entry.isForHolidays = true := by simp [isForHolidays, grouped]
      rw [List.filterMap_cons_some grouped, List.filter_cons_of_pos holiday, List.flatMap_cons,
        List.flatMap_cons, List.map_append, ih, items_holidayGroup grouped]

/-- Weekdays with the same hours contribute their rules in the order of the week. -/
theorem items_dayGroup (group : DaysAlike) :
    group.dayGroup.items season years =
      (group.ordered.byDay.flatMap (rules season years)).map .rule := by
  simp [DaysAlike.dayGroup, DaysAlike.byDay, DaysAlike.ordered, DayGroup.items,
    DayGroup.hoursRule, rules, List.flatMap_map, List.map_flatMap, Function.comp_def]

/-- The days of entries contribute the rules of these entries in the order of reading. -/
theorem items_dayGroups (entries : List LabelledHours) :
    (dayGroups entries).flatMap (DayGroup.items season years) =
      ((regroup entries).flatMap (rules season years)).map .rule := by
  have weekdays : ((DaysAlike.ofEntries entries).map DaysAlike.dayGroup).flatMap
      (DayGroup.items season years) =
        ((((DaysAlike.ofEntries entries).map DaysAlike.ordered).flatMap
          DaysAlike.byDay).flatMap (rules season years)).map .rule := by
    rw [List.flatMap_map, List.flatMap_map, List.flatMap_assoc, List.map_flatMap]
    exact List.flatMap_congr fun group _ => items_dayGroup group
  rw [dayGroups, regroup, List.flatMap_append, List.flatMap_append, List.map_append, weekdays,
    items_holidayGroups]

end LabelledHours

namespace Passage

/-- A passage as it is gathered when its text is read again. -/
def regrouped : Passage → Passage
  | .shared season years entries => .shared season years (LabelledHours.regroup entries)
  | .closure season => .closure season

variable {passage : Passage}

/-- A passage that is read again keeps its season and years. -/
theorem key?_regrouped (passage : Passage) : passage.regrouped.key? = passage.key? := by
  cases passage <;> rfl

/-- A passage that is read again is written the same. -/
theorem text_regrouped (sound : passage.Sound) : passage.regrouped.text = passage.text := by
  cases passage with
  | closure season => rfl
  | shared season years entries =>
    have days : (DaysAlike.text ∘ DaysAlike.ordered) = DaysAlike.text :=
      funext DaysAlike.text_ordered
    rw [regrouped, text, text, LabelledHours.ofEntries_regroup sound.2,
      LabelledHours.filterMap_holidayText?_regroup, List.map_map, days]

/-- A passage that is read again is tidy as before. -/
theorem Tidy.regrouped (tidy : passage.Tidy) : passage.regrouped.Tidy := by
  cases passage with
  | closure season => trivial
  | shared season years entries => exact LabelledHours.AllTidy.regroup tidy

/-- A tidy passage that is read again is sound as before. -/
theorem Sound.regrouped (sound : passage.Sound) (tidy : passage.Tidy) :
    passage.regrouped.Sound := by
  cases passage with
  | closure season => trivial
  | shared season years entries =>
    have perm := LabelledHours.perm_regroup tidy
    exact ⟨fun empty => sound.1 (List.perm_nil.mp (empty ▸ perm.symm)),
      fun entry listed => sound.2 entry (perm.mem_iff.mp listed)⟩

/-- The expression of a tidy passage contributes the rules of that passage in another order. -/
theorem items_expression (sound : passage.Sound) (tidy : passage.Tidy) :
    passage.expression.items = passage.regrouped.rules.map .rule := by
  cases passage with
  | closure season => rfl
  | shared season years entries =>
    -- The entries stand for no rule twice, so nothing is left out as a repetition.
    have once : (((LabelledHours.regroup entries).flatMap
        (LabelledHours.rules season years)).map Item.rule).Nodup :=
      (LabelledHours.AllTidy.regroup tidy).nodup_rules.map fun _ _ => Item.rule.inj
    rw [expression, Expression.items_ofGroups years season (LabelledHours.dayGroups_ne_nil sound.1),
      LabelledHours.items_dayGroups, eraseDups_eq_self once]
    rfl

variable {passages : List Passage}

/-- Tidy passages contribute the rules of the passages that are gathered when they are read. -/
theorem rules_regrouped (sound : ∀ passage ∈ passages, passage.Sound)
    (tidy : ∀ passage ∈ passages, passage.Tidy) :
    (passages.flatMap fun passage => passage.expression.items).filterMap Item.rule? =
      (passages.map regrouped).flatMap rules := by
  have contributed : (passages.flatMap fun passage => passage.expression.items) =
      ((passages.map regrouped).flatMap rules).map .rule := by
    rw [List.flatMap_map, List.map_flatMap]
    exact List.flatMap_congr fun passage listed =>
      items_expression (sound passage listed) (tidy passage listed)
  rw [contributed, Item.filterMap_rule?_map]

/-- Tidy passages with different keys are gathered as they were, but for the order of entries. -/
theorem ofRules_regrouped (distinct : (passages.filterMap key?).Nodup)
    (sound : ∀ passage ∈ passages, passage.Sound) (tidy : ∀ passage ∈ passages, passage.Tidy) :
    ofRules ((passages.map regrouped).flatMap rules) = passages.map regrouped := by
  -- Another order of entries changes nothing that gathering the rules again asks for.
  refine ofRules_flatMap_rules ?_ ?_ ?_
  · have keys : key? ∘ regrouped = key? := funext key?_regrouped
    rw [List.filterMap_map, keys]
    exact distinct
  · exact List.forall_mem_map.mpr fun passage listed =>
      (sound passage listed).regrouped (tidy passage listed)
  · exact List.forall_mem_map.mpr fun passage listed => (tidy passage listed).regrouped

end Passage

namespace Schedule

/-- What is written of a schedule that was read is read again, and then written the same. -/
theorem text_reread {text : List Char} {schedule : Schedule}
    (found : (read text).outcome = .ok schedule) :
    ∃ copy, (read schedule.text).outcome = .ok copy ∧ copy.text = schedule.text := by
  refine ⟨_, outcome_read_text (printable_of_read found), ?_⟩
  obtain ⟨expressions, rfl⟩ := exists_expressions_of_read found
  have gathered := Passage.gather_ofRules (ofExpressions expressions).rules
  -- Each expression overrides what it repeats, so the passages are tidy.
  have tidy : ∀ passage ∈ Passage.ofRules (ofExpressions expressions).rules, passage.Tidy :=
    Passage.tidy_ofRules (Item.distinct_rules (distinct_combine expressions))
  unfold Schedule.text
  rw [rules_ofExpressions gathered, Passage.rules_regrouped gathered.sound tidy,
    Passage.ofRules_regrouped gathered.distinct gathered.sound tidy, List.map_map]
  -- Passages that are read again are written the same one by one.
  congr 1
  exact List.map_congr_left fun passage listed =>
    Passage.text_regrouped (gathered.sound passage listed)

/-- Weekdays are brought together and public holidays come last, where they then stay. -/
theorem text_reread_interleaved :
    let text :=
      "PH 10:00-11:00; We 10:00-12:00; 2020 Tu 09:00-10:00; Aug off; Mo 10:00-12:00".toList
    let written :=
      "Mo,We 10:00-12:00, PH 10:00-11:00 ; 2020 Tu 09:00-10:00 ; Aug 01 - Aug 31 off".toList
    ∃ schedule copy, (read text).outcome = .ok schedule ∧ schedule.text = written ∧
      (read written).outcome = .ok copy ∧ copy.rules ≠ schedule.rules ∧ copy.text = written := by
  intro text written
  -- The rules are read again in the order in which they were written.
  have evaluated : ∃ schedule copy, (read text).outcome = .ok schedule ∧ schedule.text = written ∧
      (read written).outcome = .ok copy ∧ copy.rules ≠ schedule.rules :=
    ⟨_, _, rfl, by decide +kernel, rfl, by decide +kernel⟩
  obtain ⟨schedule, copy, found, shown, again, reordered⟩ := evaluated
  obtain ⟨reread, readAgain, same⟩ := text_reread found
  rw [shown, again] at readAgain
  cases readAgain
  exact ⟨schedule, copy, found, shown, again, reordered, same.trans shown⟩

end Schedule

end OpeningTimes
