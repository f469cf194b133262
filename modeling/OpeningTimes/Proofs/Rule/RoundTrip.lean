import OpeningTimes.Proofs.Expression.Override
import OpeningTimes.Proofs.Rule.PassageExpression

/-! A written schedule reads back as the same rules, each of them as often as it counts. -/

namespace OpeningTimes

namespace Passage

/-- What a passage contributes has the season and the years of that passage in its scope. -/
theorem key?_of_scope {passage : Passage} {item : Item} {scope : Scope} (sound : passage.Sound)
    (contributed : item ∈ passage.expression.items) (speaks : item.scope? = some scope) :
    passage.key? = some (scope.season, scope.years) := by
  obtain ⟨rule, listed, rfl⟩ := List.mem_map.mp ((mem_items_expression sound).mp contributed)
  -- Only weekly and holiday rules have a scope.
  cases rule with
  | weekly rule =>
    cases speaks
    exact key?_of_weekly listed
  | holiday rule =>
    cases speaks
    exact key?_of_holiday sound listed
  | closure season => cases speaks

variable {passages : List Passage}

/-- An item with a scope is contributed by one passage only. -/
theorem notMem_rest {passage other : Passage} {rest : List Passage} {item same : Item}
    {scope : Scope} (distinct : ((passage :: rest).filterMap key?).Nodup)
    (sound : ∀ each ∈ passage :: rest, each.Sound) (contributed : item ∈ passage.expression.items)
    (speaks : item.scope? = some scope) (listed : other ∈ rest) (again : same.scope? = some scope) :
    same ∉ other.expression.items := by
  -- Two passages that contribute it would have the same key.
  intro twice
  have key := key?_of_scope (sound passage List.mem_cons_self) contributed speaks
  have otherKey := key?_of_scope (sound other (List.mem_cons_of_mem _ listed)) twice again
  exact key?_ne_of_mem_rest distinct key listed otherKey

/-- What a passage contributes survives the passages behind it. -/
theorem filter_survives_eq_self {passage : Passage} {rest : List Passage}
    (distinct : ((passage :: rest).filterMap key?).Nodup)
    (sound : ∀ each ∈ passage :: rest, each.Sound) :
    passage.expression.items.filter
        (Item.survives (Schedule.emittedScopes (rest.map expression))) =
      passage.expression.items := by
  rw [List.filter_eq_self]
  intro item contributed
  unfold Item.survives
  cases speaks : item.scope? with
  | none => rfl
  | some scope =>
    refine decide_eq_true fun emitted => ?_
    -- Whatever emits the scope is contributed by one of the passages behind.
    obtain ⟨_, listed, inside⟩ := List.mem_flatMap.mp emitted
    obtain ⟨other, member, rfl⟩ := List.mem_map.mp listed
    obtain ⟨same, twice, again⟩ := List.mem_filterMap.mp inside
    exact notMem_rest distinct sound contributed speaks member again twice

/-- Passages with different keys do not override each other. -/
theorem combine_expressions (distinct : (passages.filterMap key?).Nodup)
    (sound : ∀ passage ∈ passages, passage.Sound) :
    Schedule.combine (passages.map expression) =
      passages.flatMap fun passage => passage.expression.items := by
  induction passages with
  | nil => rfl
  | cons passage rest ih =>
    have restSound := fun other listed => sound other (List.mem_cons_of_mem passage listed)
    have alone : Schedule.combine [passage.expression] = passage.expression.items := rfl
    -- The passages behind override nothing of the first one.
    rw [List.map_cons, ← List.singleton_append, Schedule.combine_append, alone,
      filter_survives_eq_self distinct sound, ih (nodup_keys_of_cons distinct) restSound,
      List.flatMap_cons]

/-- An item with a scope is contributed once at most. -/
theorem count_items_le_one {item : Item} {scope : Scope}
    (distinct : (passages.filterMap key?).Nodup) (sound : ∀ passage ∈ passages, passage.Sound)
    (speaks : item.scope? = some scope) :
    (passages.flatMap fun passage => passage.expression.items).count item ≤ 1 := by
  induction passages with
  | nil => exact Nat.zero_le _
  | cons passage rest ih =>
    have restSound := fun other listed => sound other (List.mem_cons_of_mem passage listed)
    rw [List.flatMap_cons, List.count_append]
    by_cases contributed : item ∈ passage.expression.items
    · -- The passage contributes it once, and the passages behind do not contribute it.
      have once := List.nodup_iff_count_le_one.mp passage.expression.nodup_items item
      have never : (rest.flatMap fun passage => passage.expression.items).count item = 0 := by
        rw [List.count_eq_zero]
        intro listed
        obtain ⟨other, member, twice⟩ := List.mem_flatMap.mp listed
        exact notMem_rest distinct sound contributed speaks member speaks twice
      omega
    · rw [List.count_eq_zero.mpr contributed, Nat.zero_add]
      exact ih (nodup_keys_of_cons distinct) restSound

/-- A passage contributes a closed season as often as it stands for it. -/
theorem count_closure_expression {passage : Passage} (sound : passage.Sound) (season : Season) :
    passage.expression.items.count (.rule (.closure season)) =
      passage.rules.count (.closure season) := by
  cases passage with
  | closure closed =>
    show [Item.rule (.closure closed)].count (.rule (.closure season)) =
      [Rule.closure closed].count (.closure season)
    simp [List.count_singleton]
  | shared otherSeason years entries =>
    -- A passage with hours has no closed season on either side.
    have absent : .closure season ∉ rules (.shared otherSeason years entries) :=
      List.count_eq_zero.mp (count_closure_shared season otherSeason years entries)
    rw [List.count_eq_zero.mpr absent, List.count_eq_zero, mem_items_expression sound]
    simpa using absent

/-- Passages contribute the same first holiday rule as they stand for. -/
theorem holidayRule?_flatMap (sound : ∀ passage ∈ passages, passage.Sound) :
    Schedule.holidayRule?
        ⟨(passages.flatMap fun passage => passage.expression.items).filterMap Item.rule?⟩ =
      Schedule.holidayRule? ⟨passages.flatMap rules⟩ := by
  induction passages with
  | nil => rfl
  | cons passage rest ih =>
    rw [List.flatMap_cons, List.flatMap_cons, List.filterMap_append, Schedule.holidayRule?_append,
      Schedule.holidayRule?_append, holidayRule?_expression (sound passage List.mem_cons_self),
      ih fun other listed => sound other (List.mem_cons_of_mem passage listed)]

end Passage

/-- Texts that describe an expression each describe these in order, with semicolons between them. -/
theorem exists_words_of_describes {Part : Type} {text : Part → List Char}
    {expression : Part → Expression} {parts : List Part} (filled : parts ≠ [])
    (described : ∀ part ∈ parts, Describes (text part) (expression part)) :
    ∃ words, words? ([' ', ';', ' '].intercalate (parts.map text)) = some words ∧
      expressions? words = some (parts.map expression) := by
  induction parts with
  | nil => exact absurd rfl filled
  | cons first rest ih =>
    obtain ⟨words, cut, read⟩ := described first List.mem_cons_self
    -- The expressions are put in front one by one, each with a semicolon behind it.
    cases rest with
    | nil => exact ⟨words, by simpa using cut, read⟩
    | cons second more =>
      obtain ⟨moreWords, moreCut, moreRead⟩ :=
        ih (List.cons_ne_nil _ _) fun part listed =>
          described part (List.mem_cons_of_mem first listed)
      refine ⟨words ++ .semicolon :: moreWords, ?_, ?_⟩
      · rw [List.map_cons, List.map_cons, List.intercalate_cons_cons, List.append_assoc]
        -- The blanks around the semicolon add no words.
        show words? (text first ++ ' ' :: ';' :: ' ' ::
          [' ', ';', ' '].intercalate ((second :: more).map text)) = _
        rw [words?_append (by decide), words?_skipped rfl, words?_sign isSign_semicolon,
          words?_skipped rfl, cut, moreCut]
        rfl
      · rw [expressions?_append, read, moreRead]
        rfl

/-- A rule is printable when four digits can write its years. -/
def Rule.Printable : Rule → Prop
  | .weekly rule => ∀ range, rule.years = some range → range.Printable
  | .closure _ => True
  | .holiday _ => True

/-- The passages of printable rules are printable. -/
theorem Passage.printable_of_rules {passage : Passage} (sound : passage.Sound)
    (printable : ∀ rule ∈ passage.rules, rule.Printable) : passage.Printable := by
  cases passage with
  | closure season => trivial
  | shared season years entries =>
    obtain ⟨filled, entriesSound⟩ := sound
    -- Every passage has a rule, which has the years of the passage or is for public holidays.
    obtain ⟨entry, listed⟩ := List.exists_mem_of_ne_nil _ filled
    obtain ⟨rule, stands⟩ := List.exists_mem_of_ne_nil _ (entriesSound entry listed).filled
    have inside : rule ∈ rules (.shared season years entries) :=
      List.mem_flatMap.mpr ⟨entry, listed, stands⟩
    cases rule with
    | weekly rule =>
      -- The years of the rule are those of the passage.
      have key := key?_of_weekly inside
      injection key with key
      injection key with _ sameYears
      show ∀ range, years = some range → range.Printable
      rw [sameYears]
      exact printable _ inside
    | closure closed => exact absurd stands (LabelledHours.closure_notMem_rules closed entry)
    | holiday rule =>
      obtain ⟨-, rfl⟩ := (entriesSound entry listed).confined rule stands
      exact nofun

namespace Schedule

/--
A schedule restates another one.

Repetitions of weekly and holiday rules are left out, and nothing else changes.
-/
structure Restates (copy original : Schedule) : Prop where
  /-- Every weekly rule is there exactly once. -/
  weekly : ∀ rule, copy.rules.count (.weekly rule) = if .weekly rule ∈ original.rules then 1 else 0
  /-- Every holiday rule is there exactly once. -/
  holiday : ∀ rule,
    copy.rules.count (.holiday rule) = if .holiday rule ∈ original.rules then 1 else 0
  /-- Every closed season is there as often as before. -/
  closures : ∀ season, copy.rules.count (.closure season) = original.rules.count (.closure season)
  /-- The same holiday rule is in force. -/
  first : copy.holidayRule? = original.holidayRule?

/-- The rules that items leave are there as often as the items. -/
theorem count_filterMap_rule? (items : List Item) (rule : Rule) :
    (items.filterMap Item.rule?).count rule = items.count (.rule rule) := by
  induction items with
  | nil => rfl
  | cons item rest ih =>
    cases item with
    | dayOff day years =>
      -- A day that is closed is no rule, and leaves none.
      rw [List.filterMap_cons_none (show Item.rule? (.dayOff day years) = none from rfl), ih,
        List.count_cons]
      simp
    | rule other =>
      rw [List.filterMap_cons_some (show Item.rule? (.rule other) = some other from rfl),
        List.count_cons, List.count_cons, ih]
      simp

section Gathered

variable {passages : List Passage} {rules : List Rule}

/-- The expressions of passages leave what each of them contributes. -/
theorem rules_ofExpressions (gathered : Passage.Gather passages rules) :
    (ofExpressions (passages.map Passage.expression)).rules =
      (passages.flatMap fun passage => passage.expression.items).filterMap Item.rule? :=
  congrArg (List.filterMap Item.rule?)
    (Passage.combine_expressions gathered.distinct gathered.sound)

/-- Passages contribute the rules that they gather. -/
theorem mem_flatMap_items_iff (gathered : Passage.Gather passages rules) (rule : Rule) :
    .rule rule ∈ passages.flatMap (fun passage => passage.expression.items) ↔ rule ∈ rules := by
  rw [← gathered.mem_iff, List.mem_flatMap, List.mem_flatMap]
  refine exists_congr fun passage => and_congr_right fun listed => ?_
  rw [Passage.mem_items_expression (gathered.sound passage listed)]
  simp

/-- A rule with a scope is left exactly once, as one passage contributes it and does so once. -/
theorem count_rules_ofExpressions (gathered : Passage.Gather passages rules) {rule : Rule}
    {scope : Scope} (speaks : (Item.rule rule).scope? = some scope) :
    (ofExpressions (passages.map Passage.expression)).rules.count rule =
      if rule ∈ rules then 1 else 0 := by
  have most := Passage.count_items_le_one gathered.distinct gathered.sound speaks
  have contributed := mem_flatMap_items_iff gathered rule
  rw [rules_ofExpressions gathered, count_filterMap_rule?]
  split
  · rename_i listed
    have least := List.count_pos_iff.mpr (contributed.mpr listed)
    omega
  · rename_i absent
    exact List.count_eq_zero.mpr fun listed => absent (contributed.mp listed)

/-- The expressions of passages restate the rules that these gather. -/
theorem restates_ofExpressions (gathered : Passage.Gather passages rules) :
    Restates (ofExpressions (passages.map Passage.expression)) ⟨rules⟩ := by
  constructor
  case weekly => exact fun rule => count_rules_ofExpressions gathered rfl
  case holiday => exact fun rule => count_rules_ofExpressions gathered rfl
  case closures =>
    -- Closed seasons have no scope, and are counted passage by passage.
    intro season
    rw [rules_ofExpressions gathered, count_filterMap_rule?, ← gathered.closures]
    rw [List.count_flatMap, List.count_flatMap]
    refine congrArg List.sum (List.map_congr_left fun passage listed => ?_)
    exact Passage.count_closure_expression (gathered.sound passage listed) season
  case first =>
    rw [← gathered.holiday, ← Passage.holidayRule?_flatMap gathered.sound,
      ← rules_ofExpressions gathered]

end Gathered

/-- The text of a printable schedule reads back as the expressions of its passages. -/
theorem outcome_read_text {schedule : Schedule}
    (printable : ∀ rule ∈ schedule.rules, rule.Printable) :
    (read schedule.text).outcome =
      .ok (ofExpressions ((Passage.ofRules schedule.rules).map Passage.expression)) := by
  have gathered := Passage.gather_ofRules schedule.rules
  unfold text
  generalize Passage.ofRules schedule.rules = passages at gathered
  by_cases filled : passages = []
  · -- Without rules the text is empty, and so is the schedule that it describes.
    subst filled
    rfl
  have described : ∀ passage ∈ passages, Describes passage.text passage.expression := by
    intro passage listed
    refine Passage.describes_expression (gathered.sound passage listed) ?_
    refine Passage.printable_of_rules (gathered.sound passage listed) fun rule inside =>
      printable rule ?_
    exact (gathered.mem_iff rule).mp (List.mem_flatMap.mpr ⟨passage, listed, inside⟩)
  obtain ⟨words, cut, readWords⟩ := exists_words_of_describes filled described
  have shown : isBlankText ([' ', ';', ' '].intercalate (passages.map Passage.text)) = false := by
    by_contra blank
    -- A blank text would have no words, and no words are read as no expression at all.
    rw [words?_of_isBlankText (by simpa using blank) cut] at readWords
    cases readWords
  rw [read_eq_ok_iff shown]
  exact ⟨_, by rw [value?_readText, cut]; exact readWords, rfl⟩

/-- A printable schedule is written as a text that reads back, as a schedule that restates it. -/
theorem read_text {schedule : Schedule} (printable : ∀ rule ∈ schedule.rules, rule.Printable) :
    ∃ copy, (read schedule.text).outcome = .ok copy ∧ Restates copy schedule :=
  ⟨_, outcome_read_text printable, restates_ofExpressions (Passage.gather_ofRules schedule.rules)⟩

/-- A schedule with repetitions, with years, and with a season from a day that no year has. -/
def repetitive : Schedule :=
  let morning : Hours := ⟨⟨555, by decide⟩, ⟨735, by decide⟩⟩
  let summer : Season := ⟨{ AnnualDay.lastOf .may with month := .june }, .lastOf .august⟩
  ⟨[.weekly ⟨.monday, morning, none, none⟩, .closure summer,
    .weekly ⟨.tuesday, morning, none, none⟩, .holiday .closed,
    .weekly ⟨.monday, morning, none, none⟩, .closure summer,
    .weekly ⟨.monday, morning, some summer, some ⟨.ofNat 2020, none⟩⟩,
    .holiday (.hours Hours.wholeDay), .holiday .closed]⟩

/-- Repeated weekly and holiday rules are read back once, and repeated closed seasons again. -/
theorem read_text_repetitive :
    (∀ rule ∈ repetitive.rules, rule.Printable) ∧
      ∃ copy, (read repetitive.text).outcome = .ok copy ∧ Restates copy repetitive := by
  have printable : ∀ rule ∈ repetitive.rules, rule.Printable := by
    simp [repetitive, Rule.Printable, Years.Printable]
  exact ⟨printable, read_text printable⟩

end Schedule

end OpeningTimes
