import OpeningTimes.Proofs.Rule.ReadRules
import OpeningTimes.Proofs.Timetable.OpenDates

/-!
The schedules that texts are read as are well formed.

No rule with a scope comes twice: an expression contributes none twice, and a later expression
overrides the rules in front of it that it repeats.
-/

namespace OpeningTimes

namespace Item

/-- No item with a scope comes twice. -/
def Distinct (items : List Item) : Prop :=
  items.Pairwise fun left right => left = right → left.scope? = none

/-- Items that come once each are distinct. -/
theorem distinct_of_nodup {items : List Item} (once : items.Nodup) : Distinct items :=
  once.imp fun different same => absurd same different

/-- Overriding keeps items distinct, as no earlier item shares its scope with a later one. -/
theorem distinct_override {earlier later : List Item} (distinct : Distinct earlier)
    (once : later.Nodup) : Distinct (override earlier later) := by
  unfold override Distinct
  refine List.pairwise_append.mpr ⟨List.Pairwise.filter _ distinct, distinct_of_nodup once, ?_⟩
  intro item remains other listed same
  subst same
  -- An item that is left although it comes again can have no scope.
  have survives := (List.mem_filter.mp remains).2
  cases speaks : item.scope? with
  | none => rfl
  | some scope =>
    have emitted : scope ∈ scopes later := List.mem_filterMap.mpr ⟨item, listed, speaks⟩
    simp [speaks, emitted] at survives

/-- Distinct items leave distinct rules. -/
theorem distinct_rules {items : List Item} (distinct : Distinct items) :
    (items.filterMap rule?).Pairwise fun left right =>
      left = right → (Item.rule left).scope? = none := by
  refine List.Pairwise.filterMap rule? ?_ distinct
  intro item other apart rule leaves otherRule otherLeaves same
  -- Only an item that is a rule leaves one.
  cases item with
  | dayOff day years => cases leaves
  | rule kept =>
    cases other with
    | dayOff day years => cases otherLeaves
    | rule otherKept =>
      cases leaves
      cases otherLeaves
      exact apart (congrArg Item.rule same)

end Item

/-- Among distinct rules no rule of a kind with a scope comes twice. -/
theorem nodup_filterMap_of_distinct {Value : Type} {rules : List Rule} {found : Rule → Option Value}
    (make : Value → Rule) (made : ∀ rule value, found rule = some value → rule = make value)
    (speaks : ∀ value, (Item.rule (make value)).scope? ≠ none)
    (distinct : rules.Pairwise fun left right => left = right → (Item.rule left).scope? = none) :
    (rules.filterMap found).Nodup := by
  refine List.Pairwise.filterMap found ?_ distinct
  intro rule other apart value isValue otherValue isOther same
  -- Equal values are made from equal rules, which would have no scope.
  have rebuilt := made rule value isValue
  have otherRebuilt := made other otherValue isOther
  rw [← same, ← rebuilt] at otherRebuilt
  have silent := apart otherRebuilt.symm
  rw [rebuilt] at silent
  exact speaks value silent

/-- The season that a rule speaks about, if any. -/
def Rule.season? : Rule → Option Season
  | .weekly rule => rule.season
  | .closure season => some season
  | .holiday _ => none

/-- A day has a month from 1 to 12 and a number from 1 to 31. -/
def AnnualDay.InYear (annual : AnnualDay) : Prop :=
  (1 ≤ annual.month.number ∧ annual.month.number ≤ 12) ∧ 1 ≤ annual.day ∧ annual.day ≤ 31

/-- A time has minutes below 60 and hours below 24, or it is 24:00. -/
def DayTime.InDay (time : DayTime) : Prop :=
  time.minute < 60 ∧ (time.hour < 24 ∨ time.hour = 24 ∧ time.minute = 0)

/-- All days are days of some year. -/
theorem AnnualDay.inYear (annual : AnnualDay) : annual.InYear := by
  refine ⟨?_, annual.one_le_day, annual.day_le⟩
  -- The months are numbered from 1 to 12.
  cases annual.month <;> decide

/-- All times are times of a day. -/
theorem DayTime.inDay (time : DayTime) : time.InDay := by
  -- Of all times only the end of the day has 24 hours.
  have bound := time.minutes_le
  unfold InDay hour minute
  omega

namespace Schedule

/-- What holds of every schedule that is read from a text. -/
structure WellFormed (schedule : Schedule) : Prop where
  /-- No weekly rule comes twice. -/
  weekly : schedule.weeklyRules.Nodup
  /-- No holiday rule comes twice. -/
  holiday : schedule.holidayRules.Nodup
  /-- The years of a rule are at most 9999, and the last one does not precede the first. -/
  years : ∀ rule ∈ schedule.rules, rule.Printable
  /-- The seasons of a rule begin and end on days of the year. -/
  seasons : ∀ rule ∈ schedule.rules, ∀ season, rule.season? = some season →
    season.first.InYear ∧ season.last.InYear
  /-- The hours of a rule begin and end at times of the day. -/
  hours : ∀ rule ∈ schedule.rules, ∀ hours, rule.hours? = some hours →
    hours.first.InDay ∧ hours.last.InDay

/-- Expressions that override one another leave distinct items. -/
theorem distinct_combine (expressions : List Expression) :
    Item.Distinct (combine expressions) := by
  -- Each expression keeps distinct what the earlier ones have left.
  have general : ∀ items, Item.Distinct items →
      Item.Distinct (expressions.foldl
        (fun items expression => Item.override items expression.items) items) := by
    induction expressions with
    | nil =>
      intro items distinct
      exact distinct
    | cons first rest ih =>
      intro items distinct
      exact ih _ (Item.distinct_override distinct first.nodup_items)
  exact general [] List.Pairwise.nil

/-- Expressions leave no weekly rule twice. -/
theorem nodup_weeklyRules (expressions : List Expression) :
    (ofExpressions expressions).weeklyRules.Nodup := by
  refine nodup_filterMap_of_distinct Rule.weekly ?_ ?_
    (Item.distinct_rules (distinct_combine expressions))
  · intro rule weekly isWeekly
    cases rule <;> cases isWeekly
    rfl
  · -- A weekly rule speaks about its weekday, so it has a scope.
    intro weekly silent
    cases silent

/-- Expressions leave no holiday rule twice. -/
theorem nodup_holidayRules (expressions : List Expression) :
    (ofExpressions expressions).holidayRules.Nodup := by
  refine nodup_filterMap_of_distinct Rule.holiday ?_ ?_
    (Item.distinct_rules (distinct_combine expressions))
  · intro rule holiday isHoliday
    cases rule <;> cases isHoliday
    rfl
  · -- A holiday rule speaks about holidays, so it has a scope.
    intro holiday silent
    cases silent

/-- What a text is read as is left by some expressions, or by none if it is blank. -/
theorem exists_expressions_of_read {text : List Char} {schedule : Schedule}
    (found : (read text).outcome = .ok schedule) :
    ∃ expressions, schedule = ofExpressions expressions := by
  cases shown : isBlankText text with
  | true =>
    rw [read, shown, if_pos rfl] at found
    cases found
    exact ⟨[], rfl⟩
  | false =>
    obtain ⟨expressions, -, same⟩ := (read_eq_ok_iff shown).mp found
    exact ⟨expressions, same.symm⟩

/-- Every schedule that is read from a text is well formed. -/
theorem wellFormed_of_read {text : List Char} {schedule : Schedule}
    (found : (read text).outcome = .ok schedule) : schedule.WellFormed := by
  have years := printable_of_read found
  obtain ⟨expressions, rfl⟩ := exists_expressions_of_read found
  refine ⟨nodup_weeklyRules expressions, nodup_holidayRules expressions, years, ?_, ?_⟩
  · intro rule listed season limited
    exact ⟨season.first.inYear, season.last.inYear⟩
  · intro rule listed hours given
    exact ⟨hours.first.inDay, hours.last.inDay⟩

/-- Repeated days and hours, a day beyond its month and the end of the day are no exception. -/
theorem wellFormed_of_read_repeated :
    let repeated := "2020-2025 Dec 24 - Jan 99 Mo,Mo-We,PH 10:00-12:00,10:00-12:00".toList
    let overriding := "PH off; Aug off; Mo 10:00-24:00".toList
    ∃ schedule, (read (repeated ++ ';' :: overriding)).outcome = .ok schedule ∧
      schedule.rules.length = 6 ∧ schedule.holidayRules = [.closed] ∧ schedule.WellFormed := by
  intro repeated overriding
  -- Three weekdays have hours once each, and the hours of holidays are overridden.
  have evaluated : ∃ schedule, (read (repeated ++ ';' :: overriding)).outcome = .ok schedule ∧
      schedule.rules.length = 6 ∧ schedule.holidayRules = [.closed] :=
    ⟨_, rfl, by decide +kernel, by decide +kernel⟩
  obtain ⟨schedule, found, count, holidays⟩ := evaluated
  exact ⟨schedule, found, count, holidays, wellFormed_of_read found⟩

end Schedule

end OpeningTimes
