import OpeningTimes.Proofs.Rule.Kinds
import OpeningTimes.Rule.Text
import Mathlib.Data.List.Nodup

/-!
Passages gather the rules of a schedule.

No rule gets lost, none is added, and no two passages share a season and years.
-/

namespace OpeningTimes

namespace LabelledHours

variable {season : Option Season} {years : Option Years} {label : HoursLabel}
  {hours more : List Hours} {entries : List LabelledHours} {rule : Rule}

/-- The rules that hours under a label stand for within a season and years. -/
def rules (season : Option Season) (years : Option Years) (entry : LabelledHours) : List Rule :=
  match entry.label with
  | .weekday day => entry.hours.map fun hours => .weekly ⟨day, hours, season, years⟩
  | .holidayHours => entry.hours.map fun hours => .holiday (.hours hours)
  | .holidayClosed => [.holiday .closed]

/--
Hours under a label stand for rules.

These are holiday rules only where there is neither a season nor years.
-/
structure Sound (season : Option Season) (years : Option Years) (entry : LabelledHours) : Prop where
  /-- There are rules behind every label. -/
  filled : entry.rules season years ≠ []
  /-- Holiday rules have neither a season nor years. -/
  confined : ∀ rule, .holiday rule ∈ entry.rules season years → season = none ∧ years = none

/-- No label stands for closed seasons. -/
theorem closure_notMem_rules (closed : Season) (entry : LabelledHours) :
    .closure closed ∉ entry.rules season years := by
  unfold rules
  cases entry.label <;> simp

/-- Hours in two parts stand for the rules of both parts. -/
theorem mem_rules_append :
    rule ∈ rules season years ⟨label, hours ++ more⟩ ↔
      rule ∈ rules season years ⟨label, hours⟩ ∨ rule ∈ rules season years ⟨label, more⟩ := by
  cases label <;> simp [rules]

/-- The first holiday rule behind a label is one of the first part of its hours. -/
theorem holidayRule?_rules_append (filled : rules season years ⟨label, hours⟩ ≠ [])
    (more : List Hours) :
    Schedule.holidayRule? ⟨rules season years ⟨label, hours ++ more⟩⟩ =
        Schedule.holidayRule? ⟨rules season years ⟨label, hours⟩⟩ ∧
      (Schedule.holidayRule? ⟨rules season years ⟨label, hours⟩⟩ = none →
        Schedule.holidayRule? ⟨rules season years ⟨label, more⟩⟩ = none) := by
  cases label with
  | weekday day =>
    -- A weekday has no holiday rule at all.
    have nothing : ∀ hours,
        Schedule.holidayRule? ⟨rules season years ⟨.weekday day, hours⟩⟩ = none := by
      intro hours
      rw [Schedule.holidayRule?_eq_none_iff]
      simp [rules]
    simp [nothing]
  | holidayHours =>
    -- The first of the hours stay the first ones.
    cases hours with
    | nil => exact absurd rfl filled
    | cons first others => exact ⟨rfl, nofun⟩
  | holidayClosed => exact ⟨rfl, nofun⟩

/-- Adding hours puts them behind those with the same label, or as new ones behind all others. -/
theorem add_cases (label : HoursLabel) (hours : List Hours) (entries : List LabelledHours) :
    (∃ front old back, entries = front ++ ⟨label, old⟩ :: back ∧
      add label hours entries = front ++ ⟨label, old ++ hours⟩ :: back) ∨
    label ∉ entries.map LabelledHours.label ∧
      add label hours entries = entries ++ [⟨label, hours⟩] := by
  induction entries with
  | nil => exact .inr ⟨List.not_mem_nil, rfl⟩
  | cons entry rest ih =>
    unfold add
    split
    · rename_i same
      subst same
      exact .inl ⟨[], entry.hours, rest, rfl, rfl⟩
    · -- What happens further back happens behind the first entry.
      rename_i other
      rcases ih with ⟨front, old, back, rfl, added⟩ | ⟨fresh, added⟩
      · exact .inl ⟨entry :: front, old, back, rfl, congrArg (entry :: ·) added⟩
      · exact .inr ⟨List.not_mem_cons_of_ne_of_not_mem (Ne.symm other) fresh,
          congrArg (entry :: ·) added⟩

/-- Adding hours adds the rules that they stand for. -/
theorem mem_rules_add :
    rule ∈ (add label hours entries).flatMap (rules season years) ↔
      rule ∈ entries.flatMap (rules season years) ∨ rule ∈ rules season years ⟨label, hours⟩ := by
  rcases add_cases label hours entries with ⟨front, old, back, rfl, added⟩ | ⟨-, added⟩
  · simp only [added, List.flatMap_append, List.flatMap_cons, List.mem_append, mem_rules_append]
    exact (or_congr_right or_right_comm).trans or_assoc.symm
  · simp [added]

/-- Hours in two parts are sound when both parts are. -/
theorem Sound.append (sound : Sound season years ⟨label, hours⟩)
    (new : Sound season years ⟨label, more⟩) : Sound season years ⟨label, hours ++ more⟩ := by
  refine ⟨fun empty => ?_, fun rule found => ?_⟩
  · obtain ⟨rule, found⟩ := List.exists_mem_of_ne_nil _ new.filled
    exact List.not_mem_nil (empty ▸ mem_rules_append.mpr (.inr found))
  · exact (mem_rules_append.mp found).elim (sound.confined rule) (new.confined rule)

/-- Adding hours that stand for rules leaves only labels that stand for rules. -/
theorem sound_add (sound : ∀ entry ∈ entries, entry.Sound season years)
    (new : Sound season years ⟨label, hours⟩) :
    ∀ entry ∈ add label hours entries, entry.Sound season years := by
  rcases add_cases label hours entries with ⟨front, old, back, rfl, added⟩ | ⟨-, added⟩
  · simp only [added, List.forall_mem_append, List.forall_mem_cons] at sound ⊢
    exact ⟨sound.1, sound.2.1.append new, sound.2.2⟩
  · simp only [added, List.forall_mem_append, List.forall_mem_singleton]
    exact ⟨sound, new⟩

/-- Adding hours keeps the first holiday rule, if there is one already. -/
theorem holidayRule?_add (sound : ∀ entry ∈ entries, entry.Sound season years) :
    Schedule.holidayRule? ⟨(add label hours entries).flatMap (rules season years)⟩ =
      (Schedule.holidayRule? ⟨entries.flatMap (rules season years)⟩).or
        (Schedule.holidayRule? ⟨rules season years ⟨label, hours⟩⟩) := by
  rcases add_cases label hours entries with ⟨front, old, back, rfl, added⟩ | ⟨-, added⟩
  · have oldSound := sound ⟨label, old⟩ (List.mem_append_right _ List.mem_cons_self)
    obtain ⟨kept, nothing⟩ := holidayRule?_rules_append oldSound.filled hours
    simp only [added, List.flatMap_append, List.flatMap_cons, Schedule.holidayRule?_append, kept,
      Option.or_assoc]
    -- Either the label has the holiday rule in force, or none of the new rules is one.
    cases found : Schedule.holidayRule? ⟨rules season years ⟨label, old⟩⟩ with
    | none => simp [nothing found]
    | some rule => simp
  · simp [added, Schedule.holidayRule?_append]

/-- There are entries once one was added. -/
theorem add_ne_nil (label : HoursLabel) (hours : List Hours) (entries : List LabelledHours) :
    add label hours entries ≠ [] := by
  cases entries with
  | nil => exact List.cons_ne_nil _ _
  | cons first rest =>
    unfold add
    split <;> exact List.cons_ne_nil _ _

end LabelledHours

namespace Passage

/-- The rules that a passage stands for. -/
def rules : Passage → List Rule
  | .shared season years entries => entries.flatMap (LabelledHours.rules season years)
  | .closure season => [.closure season]

/-- The season and the years that the rules of a passage share, if it is no closed season. -/
def key? : Passage → Option (Option Season × Option Years)
  | .shared season years _ => some (season, years)
  | .closure _ => none

/-- A passage has entries, all of which stand for rules. -/
def Sound : Passage → Prop
  | .shared season years entries => entries ≠ [] ∧ ∀ entry ∈ entries, entry.Sound season years
  | .closure _ => True

/-- Passages with different keys still have different keys without the first one. -/
theorem nodup_keys_of_cons {passage : Passage} {rest : List Passage}
    (distinct : ((passage :: rest).filterMap key?).Nodup) : (rest.filterMap key?).Nodup :=
  distinct.sublist ((List.sublist_cons_self passage rest).filterMap key?)

/-- The key of a passage is no key of the passages behind it. -/
theorem key?_ne_of_mem_rest {passage other : Passage} {rest : List Passage}
    {key : Option Season × Option Years} (distinct : ((passage :: rest).filterMap key?).Nodup)
    (first : passage.key? = some key) (listed : other ∈ rest) : other.key? ≠ some key := by
  intro again
  rw [List.filterMap_cons_some first] at distinct
  exact (List.nodup_cons.mp distinct).1 (List.mem_filterMap.mpr ⟨other, listed, again⟩)

/-- Only a passage with neither a season nor years has holiday rules. -/
theorem key?_of_holiday {passage : Passage} {rule : HolidayRule} (sound : passage.Sound)
    (found : .holiday rule ∈ passage.rules) : passage.key? = some (none, none) := by
  cases passage with
  | closure season => exact absurd found (by simp [rules])
  | shared season years entries =>
    obtain ⟨entry, listed, found⟩ := List.mem_flatMap.mp found
    -- The label that stands for the rule is confined to such a passage.
    obtain ⟨rfl, rfl⟩ := (sound.2 entry listed).confined rule found
    rfl

/-- The rules of a passage share the season and the years of that passage. -/
theorem key?_of_weekly {passage : Passage} {rule : WeeklyRule}
    (found : .weekly rule ∈ passage.rules) : passage.key? = some (rule.season, rule.years) := by
  cases passage with
  | closure season => exact absurd found (by simp [rules])
  | shared season years entries =>
    obtain ⟨entry, listed, found⟩ := List.mem_flatMap.mp found
    unfold LabelledHours.rules at found
    cases label : entry.label with
    | weekday day =>
      -- The rules of a weekday are made with the season and the years of the passage.
      simp only [label, List.mem_map] at found
      obtain ⟨hours, _, same⟩ := found
      injection same with same
      rw [← same]
      rfl
    | holidayHours => simp [label] at found
    | holidayClosed => simp [label] at found

section Add

variable {season : Option Season} {years : Option Years} {label : HoursLabel} {hours : List Hours}
  {passages : List Passage}

/-- Adding hours extends the passage with their season and years, or puts a new one behind all. -/
theorem add_cases (season : Option Season) (years : Option Years) (label : HoursLabel)
    (hours : List Hours) (passages : List Passage) :
    (∃ front entries back, passages = front ++ .shared season years entries :: back ∧
      add season years label hours passages =
        front ++ .shared season years (LabelledHours.add label hours entries) :: back) ∨
    (season, years) ∉ passages.filterMap key? ∧
      add season years label hours passages =
        passages ++ [.shared season years (LabelledHours.add label hours [])] := by
  induction passages with
  | nil => exact .inr ⟨List.not_mem_nil, rfl⟩
  | cons first rest ih =>
    -- Unless the first passage has the key, the hours go further back.
    have later (other : first.key? ≠ some (season, years))
        (behind : add season years label hours (first :: rest) =
          first :: add season years label hours rest) :
        (∃ front entries back, first :: rest = front ++ .shared season years entries :: back ∧
          add season years label hours (first :: rest) =
            front ++ .shared season years (LabelledHours.add label hours entries) :: back) ∨
        (season, years) ∉ (first :: rest).filterMap key? ∧
          add season years label hours (first :: rest) =
            first :: rest ++ [.shared season years (LabelledHours.add label hours [])] := by
      rw [behind]
      rcases ih with ⟨front, entries, back, rfl, added⟩ | ⟨fresh, added⟩
      · exact .inl ⟨first :: front, entries, back, rfl, congrArg (first :: ·) added⟩
      · refine .inr ⟨?_, congrArg (first :: ·) added⟩
        rw [List.mem_filterMap] at fresh ⊢
        simpa [other] using fresh
    cases first with
    | closure closed => exact later nofun rfl
    | shared otherSeason otherYears entries =>
      by_cases same : otherSeason = season ∧ otherYears = years
      · obtain ⟨rfl, rfl⟩ := same
        exact .inl ⟨[], entries, rest, rfl, if_pos ⟨rfl, rfl⟩⟩
      · exact later (by simpa [key?] using same) (if_neg same)

/-- Adding hours to passages adds the rules that they stand for. -/
theorem mem_rules_add {rule : Rule} :
    rule ∈ (add season years label hours passages).flatMap rules ↔
      rule ∈ passages.flatMap rules ∨ rule ∈ LabelledHours.rules season years ⟨label, hours⟩ := by
  rcases add_cases season years label hours passages with
    ⟨front, entries, back, rfl, added⟩ | ⟨-, added⟩
  · simp only [added, List.flatMap_append, List.flatMap_cons, List.mem_append, rules,
      LabelledHours.mem_rules_add]
    exact (or_congr_right or_right_comm).trans or_assoc.symm
  · rw [added, List.flatMap_append, List.mem_append]
    refine or_congr_right ?_
    simp [rules, LabelledHours.add]

/-- Adding hours that stand for rules keeps all passages sound. -/
theorem sound_add (sound : ∀ passage ∈ passages, passage.Sound)
    (new : LabelledHours.Sound season years ⟨label, hours⟩) :
    ∀ passage ∈ add season years label hours passages, passage.Sound := by
  -- A passage that takes the hours, be it old or new, is sound.
  have extended (entries : List LabelledHours)
      (entriesSound : ∀ entry ∈ entries, entry.Sound season years) :
      Sound (.shared season years (LabelledHours.add label hours entries)) :=
    ⟨LabelledHours.add_ne_nil label hours entries, LabelledHours.sound_add entriesSound new⟩
  rcases add_cases season years label hours passages with
    ⟨front, entries, back, rfl, added⟩ | ⟨-, added⟩
  · simp only [added, List.forall_mem_append, List.forall_mem_cons] at sound ⊢
    exact ⟨sound.1, extended entries sound.2.1.2, sound.2.2⟩
  · simp only [added, List.forall_mem_append, List.forall_mem_singleton]
    exact ⟨sound, extended [] nofun⟩

/-- Adding hours leaves every passage a key of its own. -/
theorem nodup_keys_add (distinct : (passages.filterMap key?).Nodup) :
    ((add season years label hours passages).filterMap key?).Nodup := by
  rcases add_cases season years label hours passages with
    ⟨front, entries, back, rfl, added⟩ | ⟨fresh, added⟩
  · -- The passage that takes the hours keeps its key.
    rw [added]
    simpa [key?] using distinct
  · -- A new key is put behind the others.
    rw [added, List.filterMap_append]
    refine List.nodup_append.mpr ⟨distinct, List.nodup_singleton _, ?_⟩
    intro key listed other single same
    obtain rfl : other = (season, years) := by simpa [key?, eq_comm] using single
    exact fresh (same ▸ listed)

/-- A passage with hours has no closed season. -/
theorem count_closure_shared (closed : Season) (season : Option Season) (years : Option Years)
    (entries : List LabelledHours) :
    (rules (.shared season years entries)).count (.closure closed) = 0 := by
  rw [List.count_eq_zero]
  intro listed
  obtain ⟨entry, _, found⟩ := List.mem_flatMap.mp listed
  exact LabelledHours.closure_notMem_rules closed entry found

/-- Adding hours adds no closed season. -/
theorem count_closure_add (closed : Season) :
    ((add season years label hours passages).flatMap rules).count (.closure closed) =
      (passages.flatMap rules).count (.closure closed) := by
  rcases add_cases season years label hours passages with
    ⟨front, entries, back, rfl, added⟩ | ⟨-, added⟩
  · simp [added, count_closure_shared]
  · simp [added, count_closure_shared]

/-- Behind the passage that takes a new holiday rule, there is no other holiday rule. -/
theorem holidayRule?_rest_eq_none {passage : Passage} {rest : List Passage}
    (distinct : ((passage :: rest).filterMap key?).Nodup)
    (restSound : ∀ other ∈ rest, other.Sound) (key : passage.key? = some (none, none)) :
    Schedule.holidayRule? ⟨rest.flatMap rules⟩ = none := by
  rw [Schedule.holidayRule?_eq_none_iff]
  intro rule listed
  obtain ⟨other, member, inside⟩ := List.mem_flatMap.mp listed
  -- All holiday rules are in passages of one key, which only one passage has.
  exact key?_ne_of_mem_rest distinct key member (key?_of_holiday (restSound other member) inside)

/-- Adding hours keeps the first holiday rule, if there is one already. -/
theorem holidayRule?_add (distinct : (passages.filterMap key?).Nodup)
    (sound : ∀ passage ∈ passages, passage.Sound)
    (new : LabelledHours.Sound season years ⟨label, hours⟩) :
    Schedule.holidayRule? ⟨(add season years label hours passages).flatMap rules⟩ =
      (Schedule.holidayRule? ⟨passages.flatMap rules⟩).or
        (Schedule.holidayRule? ⟨LabelledHours.rules season years ⟨label, hours⟩⟩) := by
  rcases add_cases season years label hours passages with
    ⟨front, entries, back, rfl, added⟩ | ⟨-, added⟩
  · simp only [List.forall_mem_append, List.forall_mem_cons] at sound
    simp only [added, List.flatMap_append, List.flatMap_cons, rules, Schedule.holidayRule?_append,
      LabelledHours.holidayRule?_add sound.2.1.2, Option.or_assoc]
    congr 2
    -- The new rules come in front of the passages behind, which matters to holiday rules only.
    cases found : Schedule.holidayRule? ⟨LabelledHours.rules season years ⟨label, hours⟩⟩ with
    | none => simp
    | some rule =>
      obtain ⟨rfl, rfl⟩ := new.confined rule (Schedule.mem_of_holidayRule? found)
      rw [List.filterMap_append] at distinct
      rw [holidayRule?_rest_eq_none (List.nodup_append.mp distinct).2.1 sound.2.2 rfl]
      rfl
  · rw [added, List.flatMap_append, Schedule.holidayRule?_append]
    simp [rules, LabelledHours.add]

end Add

/-- Passages gather rules when they stand for these, with a key of their own each. -/
structure Gather (passages : List Passage) (rules : List Rule) : Prop where
  /-- No two passages share a season and years. -/
  distinct : (passages.filterMap key?).Nodup
  /-- All passages have entries that stand for rules. -/
  sound : ∀ passage ∈ passages, passage.Sound
  /-- The passages stand for the rules and for no others. -/
  mem_iff : ∀ rule, rule ∈ passages.flatMap Passage.rules ↔ rule ∈ rules
  /-- Every closed season stays as often as it is there. -/
  closures : ∀ season,
    (passages.flatMap Passage.rules).count (.closure season) = rules.count (.closure season)
  /-- The holiday rule in force stays the same. -/
  holiday : Schedule.holidayRule? ⟨passages.flatMap Passage.rules⟩ = Schedule.holidayRule? ⟨rules⟩

namespace Gather

variable {passages : List Passage} {rules : List Rule}

/-- No passages gather no rules. -/
theorem nil : Gather [] [] :=
  ⟨List.nodup_nil, List.forall_mem_nil _, fun _ => Iff.rfl, fun _ => rfl, rfl⟩

/-- Adding hours that stand for one rule gathers that rule too. -/
theorem add {season : Option Season} {years : Option Years} {label : HoursLabel}
    {hours : List Hours} {rule : Rule} (gathered : Gather passages rules)
    (stands : LabelledHours.rules season years ⟨label, hours⟩ = [rule])
    (confined : ∀ holiday, rule = .holiday holiday → season = none ∧ years = none) :
    Gather (Passage.add season years label hours passages) (rules ++ [rule]) := by
  -- The label stands for the one rule, so it is sound.
  have new : LabelledHours.Sound season years ⟨label, hours⟩ := by
    refine ⟨by simp [stands], fun holiday listed => ?_⟩
    rw [stands, List.mem_singleton] at listed
    exact confined holiday listed.symm
  constructor
  case distinct => exact nodup_keys_add gathered.distinct
  case sound => exact sound_add gathered.sound new
  case mem_iff =>
    intro other
    rw [mem_rules_add, gathered.mem_iff, stands, List.mem_append]
  case closures =>
    intro closed
    -- No label stands for a closed season.
    have other : rule ≠ .closure closed := by
      intro same
      have listed : rule ∈ LabelledHours.rules season years ⟨label, hours⟩ := by simp [stands]
      exact LabelledHours.closure_notMem_rules closed _ (same ▸ listed)
    rw [count_closure_add, gathered.closures, List.count_append, List.count_singleton,
      if_neg (by simpa using other), Nat.add_zero]
  case holiday =>
    rw [holidayRule?_add gathered.distinct gathered.sound new, gathered.holiday, stands,
      Schedule.holidayRule?_append]

/-- Putting a rule into its passage gathers that rule too. -/
theorem addRule (gathered : Gather passages rules) (rule : Rule) :
    Gather (Passage.addRule passages rule) (rules ++ [rule]) := by
  cases rule with
  | weekly rule => exact gathered.add rfl (by simp)
  | holiday rule =>
    cases rule with
    | hours hours => exact gathered.add rfl fun _ _ => ⟨rfl, rfl⟩
    | closed => exact gathered.add rfl fun _ _ => ⟨rfl, rfl⟩
  | closure season =>
    -- A closed season is a passage of its own behind all others.
    show Gather (passages ++ [.closure season]) (rules ++ [.closure season])
    constructor
    case distinct =>
      have keyless : [Passage.closure season].filterMap key? = [] := rfl
      rw [List.filterMap_append, keyless, List.append_nil]
      exact gathered.distinct
    case sound =>
      intro passage listed
      rcases List.mem_append.mp listed with before | last
      · exact gathered.sound passage before
      · rw [List.mem_singleton.mp last]
        trivial
    case mem_iff =>
      intro rule
      rw [List.flatMap_append, List.mem_append, List.mem_append, gathered.mem_iff]
      rfl
    case closures =>
      intro closed
      rw [List.flatMap_append, List.count_append, List.count_append, gathered.closures]
      rfl
    case holiday =>
      rw [List.flatMap_append, Schedule.holidayRule?_append, Schedule.holidayRule?_append,
        gathered.holiday]
      rfl

end Gather

/-- The passages of rules gather these rules. -/
theorem gather_ofRules (rules : List Rule) : Gather (ofRules rules) rules := by
  -- Each rule is put into the passages of those in front of it.
  have general : ∀ (rest done : List Rule) (passages : List Passage), Gather passages done →
      Gather (rest.foldl addRule passages) (done ++ rest) := by
    intro rest
    induction rest with
    | nil =>
      intro done passages gathered
      rw [List.append_nil]
      exact gathered
    | cons rule rest ih =>
      intro done passages gathered
      have next := ih (done ++ [rule]) (addRule passages rule) (gathered.addRule rule)
      rwa [List.append_assoc] at next
  exact general rules [] [] Gather.nil

end Passage

end OpeningTimes
