import OpeningTimes.Proofs.Rule.Kinds
import OpeningTimes.Proofs.Timetable.Evaluation

/-!
What one more rule changes about a time.

A closed season closes its dates. A weekly rule counts where no closed season and no holiday rule is
in its way, and there it competes with the narrowest of the weekly rules that apply.
-/

namespace OpeningTimes

/--
A rule is narrower than another one when only it is limited to years.

If both are or neither is, it is narrower when only it is limited to a season.
-/
def WeeklyRule.Narrower (rule other : WeeklyRule) : Prop :=
  rule.years.isSome = true ∧ other.years.isSome = false ∨
    rule.years.isSome = other.years.isSome ∧ rule.season.isSome = true ∧ other.season.isSome = false

/-- Tiers count how narrow a rule is. -/
theorem WeeklyRule.narrower_iff {rule other : WeeklyRule} :
    rule.Narrower other ↔ other.tier < rule.tier := by
  unfold Narrower tier
  -- There are four ways to be limited for each of the two.
  cases rule.years <;> cases rule.season <;> cases other.years <;> cases other.season <;> simp

namespace Schedule

/-- A date is closed when it is within one of the closed seasons among the rules. -/
theorem closedOn_iff {schedule : Schedule} {date : Date} :
    schedule.closedOn date = true ↔
      ∃ season, .closure season ∈ schedule.rules ∧ season.contains date.annualDay = true := by
  unfold closedOn
  simp only [List.any_eq_true, mem_closures]

/-- A rule is one of the narrowest weekly rules that apply on a date. -/
def NarrowestOn (schedule : Schedule) (date : Date) (rule : WeeklyRule) : Prop :=
  rule ∈ schedule.rulesOn date ∧ ∀ other ∈ schedule.rulesOn date, ¬ other.Narrower rule

end Schedule

namespace Timetable

/-- Weekly rules are overruled on the dates of closed seasons and on the holidays with a rule. -/
inductive Overruled (timetable : Timetable) (date : Date) : Prop where
  /-- A closed season contains the date. -/
  | closed {season : Season} (listed : .closure season ∈ timetable.schedule.rules)
    (inside : season.contains date.annualDay = true) : Overruled timetable date
  /-- The date is a holiday, and there is a rule for holidays. -/
  | holiday {rule : HolidayRule} (listed : date ∈ timetable.holidays.dates)
    (ruled : .holiday rule ∈ timetable.schedule.rules) : Overruled timetable date

/-- Weekly rules are overruled where a closed season or a holiday rule decides. -/
theorem overruled_iff {timetable : Timetable} {date : Date} :
    timetable.Overruled date ↔ timetable.schedule.closedOn date = true ∨
      ∃ rule, timetable.holidayRuleOn? date = some rule := by
  constructor
  · rintro (⟨listed, inside⟩ | ⟨listed, ruled⟩)
    · exact .inl (Schedule.closedOn_iff.mpr ⟨_, listed, inside⟩)
    · right
      -- Where there is any holiday rule, one of them is in force.
      cases inForce : timetable.schedule.holidayRule? with
      | none => exact absurd ruled (Schedule.holidayRule?_eq_none_iff.mp inForce _)
      | some first => exact ⟨first, holidayRuleOn?_eq_some_iff.mpr ⟨listed, inForce⟩⟩
  · rintro (closed | ⟨rule, decides⟩)
    · obtain ⟨season, listed, inside⟩ := Schedule.closedOn_iff.mp closed
      exact .closed listed inside
    · obtain ⟨listed, inForce⟩ := holidayRuleOn?_eq_some_iff.mp decides
      exact .holiday listed (Schedule.mem_of_holidayRule? inForce)

/-- Where weekly rules are not overruled, a time is open by one of those that decide. -/
theorem isOpenAt_iff_of_not_overruled {timetable : Timetable} {time : LocalTime}
    (free : ¬ timetable.Overruled time.date) : timetable.isOpenAt time = true ↔
      ∃ rule ∈ timetable.schedule.decidingRules time.date,
        rule.hours.contains time.clock.dayTime = true := by
  rw [overruled_iff, not_or, Bool.not_eq_true, not_exists, ← Option.eq_none_iff_forall_ne_some]
    at free
  -- What is left of the conditions is that a deciding rule contains the time.
  rw [isOpenAt_iff]
  simp [free]

/-- A timetable becomes another one by a further rule, put anywhere among its rules. -/
inductive Adds (rule : Rule) : Timetable → Timetable → Prop where
  /-- The rule comes between some rules in front and some behind. -/
  | between (front back : List Rule) (holidays : HolidaySet) :
    Adds rule ⟨⟨front ++ back⟩, holidays⟩ ⟨⟨front ++ rule :: back⟩, holidays⟩

namespace Adds

variable {before after : Timetable} {date : Date} {time : LocalTime}

/-- The further rule joins the rules, wherever it is put. -/
theorem mem_rules {rule other : Rule} (adds : Adds rule before after) :
    other ∈ after.schedule.rules ↔ other = rule ∨ other ∈ before.schedule.rules := by
  cases adds
  simp only [List.mem_append, List.mem_cons]
  exact or_left_comm

/-- A rule that is not for holidays leaves the holiday rules as they are. -/
theorem holidayRuleOn?_eq {rule : Rule} (adds : Adds rule before after)
    (working : ∀ holiday, rule ≠ .holiday holiday) (date : Date) :
    after.holidayRuleOn? date = before.holidayRuleOn? date := by
  obtain ⟨front, back, holidays⟩ := adds
  have alone : Schedule.holidayRule? ⟨[rule]⟩ = none := by
    rw [Schedule.holidayRule?_eq_none_iff]
    intro holiday listed
    exact working holiday (List.mem_singleton.mp listed).symm
  -- So the first of the holiday rules stays the first.
  have first : Schedule.holidayRule? ⟨front ++ rule :: back⟩ =
      Schedule.holidayRule? ⟨front ++ back⟩ := by
    rw [← List.singleton_append, Schedule.holidayRule?_append, Schedule.holidayRule?_append, alone,
      Option.none_or, ← Schedule.holidayRule?_append]
  unfold holidayRuleOn?
  rw [first]

section Closure

variable {season : Season} (adds : Adds (.closure season) before after)

include adds

/-- A further closed season closes the dates that it contains. -/
theorem closedOn_closure : after.schedule.closedOn date =
    (before.schedule.closedOn date || season.contains date.annualDay) := by
  rw [Bool.eq_iff_iff, Bool.or_eq_true, Schedule.closedOn_iff, Schedule.closedOn_iff]
  simp only [adds.mem_rules, Rule.closure.injEq, or_and_right, exists_or, exists_eq_left]
  exact or_comm

/-- A further closed season leaves the deciding rules as they are. -/
theorem mem_decidingRules_closure {rule : WeeklyRule} :
    rule ∈ after.schedule.decidingRules date ↔ rule ∈ before.schedule.decidingRules date := by
  simp [Schedule.mem_decidingRules, Schedule.mem_rulesOn, Schedule.mem_weeklyRules, adds.mem_rules]

/-- A further closed season closes the times of its dates and no others. -/
theorem isOpenAt_closure (time : LocalTime) : after.isOpenAt time =
    (before.isOpenAt time && !season.contains time.date.annualDay) := by
  rw [Bool.eq_iff_iff, Bool.and_eq_true, Bool.not_eq_true', isOpenAt_iff, isOpenAt_iff,
    adds.closedOn_closure, adds.holidayRuleOn?_eq nofun, Bool.or_eq_false_iff]
  simp only [adds.mem_decidingRules_closure]
  exact and_right_comm

end Closure

section Weekly

variable {rule : WeeklyRule} (adds : Adds (.weekly rule) before after)

include adds

/-- A further weekly rule leaves the closed dates as they are. -/
theorem closedOn_weekly : after.schedule.closedOn date = before.schedule.closedOn date := by
  rw [Bool.eq_iff_iff, Schedule.closedOn_iff, Schedule.closedOn_iff]
  simp [adds.mem_rules]

/-- A further weekly rule is overruled on the same dates as the others. -/
theorem overruled_weekly_iff : after.Overruled date ↔ before.Overruled date := by
  rw [overruled_iff, overruled_iff, adds.closedOn_weekly, adds.holidayRuleOn?_eq nofun]

/-- A further weekly rule applies beside the others, if it applies at all. -/
theorem mem_rulesOn_weekly {other : WeeklyRule} : other ∈ after.schedule.rulesOn date ↔
    other = rule ∧ rule.appliesOn date = true ∨ other ∈ before.schedule.rulesOn date := by
  simp only [Schedule.mem_rulesOn, Schedule.mem_weeklyRules, adds.mem_rules, Rule.weekly.injEq,
    or_and_right]
  refine or_congr_left (and_congr_right ?_)
  rintro rfl
  rfl

/-- Where weekly rules are overruled, a further one changes nothing. -/
theorem isOpenAt_of_overruled (overruled : before.Overruled time.date) :
    after.isOpenAt time = before.isOpenAt time := by
  unfold isOpenAt
  rw [adds.closedOn_weekly, adds.holidayRuleOn?_eq nofun]
  rcases overruled_iff.mp overruled with closed | ⟨holiday, decides⟩
  · rw [closed, if_pos rfl, if_pos rfl]
  · -- The rule for the holiday decides, whatever weekly rules there are.
    rw [decides]
    cases holiday <;> rfl

/-- A rule that does not apply changes nothing. -/
theorem isOpenAt_of_not_appliesOn (idle : rule.appliesOn time.date = false) :
    after.isOpenAt time = before.isOpenAt time := by
  have same (other : WeeklyRule) :
      other ∈ after.schedule.rulesOn time.date ↔ other ∈ before.schedule.rulesOn time.date := by
    simp [adds.mem_rulesOn_weekly, idle]
  -- With the same rules that apply, the same ones decide.
  rw [Bool.eq_iff_iff, isOpenAt_iff, isOpenAt_iff, adds.closedOn_weekly,
    adds.holidayRuleOn?_eq nofun]
  simp only [Schedule.mem_decidingRules, same]

variable (applies : rule.appliesOn date = true)

include applies

/-- A rule that applies decides with the others of its tier, and takes part in the comparison. -/
theorem mem_decidingRules_weekly {other : WeeklyRule} :
    other ∈ after.schedule.decidingRules date ↔
      (other = rule ∨ other ∈ before.schedule.rulesOn date) ∧ rule.tier ≤ other.tier ∧
        ∀ third ∈ before.schedule.rulesOn date, third.tier ≤ other.tier := by
  simp [Schedule.mem_decidingRules, adds.mem_rulesOn_weekly, applies]

/-- A rule decides nothing where a narrower one applies. -/
theorem mem_decidingRules_of_narrower {narrower : WeeklyRule}
    (listed : narrower ∈ before.schedule.rulesOn date) (narrow : narrower.Narrower rule)
    {other : WeeklyRule} : other ∈ after.schedule.decidingRules date ↔
      other ∈ before.schedule.decidingRules date := by
  rw [adds.mem_decidingRules_weekly applies, Schedule.mem_decidingRules]
  rw [WeeklyRule.narrower_iff] at narrow
  constructor
  · rintro ⟨rfl | applying, -, highest⟩
    · -- The rule itself is not of the highest tier.
      exact absurd (highest narrower listed) (Nat.not_le.mpr narrow)
    · exact ⟨applying, highest⟩
  · rintro ⟨applying, highest⟩
    exact ⟨.inr applying, Nat.le_of_lt (Nat.lt_of_lt_of_le narrow (highest narrower listed)),
      highest⟩

/-- A rule decides beside the narrowest ones when it is as narrow as these. -/
theorem mem_decidingRules_of_alike {narrowest : WeeklyRule}
    (leading : before.schedule.NarrowestOn date narrowest) (notWider : ¬ narrowest.Narrower rule)
    (notNarrower : ¬ rule.Narrower narrowest) {other : WeeklyRule} :
    other ∈ after.schedule.decidingRules date ↔
      other = rule ∨ other ∈ before.schedule.decidingRules date := by
  -- The tier of the rule is that of the narrowest one, which is the highest.
  obtain ⟨listed, most⟩ := leading
  simp only [WeeklyRule.narrower_iff, Nat.not_lt] at most notWider notNarrower
  rw [adds.mem_decidingRules_weekly applies, Schedule.mem_decidingRules]
  constructor
  · rintro ⟨same | applying, -, highest⟩
    · exact .inl same
    · exact .inr ⟨applying, highest⟩
  · rintro (rfl | ⟨applying, highest⟩)
    · exact ⟨.inl rfl, Nat.le_refl _, fun third listed => Nat.le_trans (most third listed) notWider⟩
    · exact ⟨.inr applying, Nat.le_trans notNarrower (highest narrowest listed), highest⟩

/-- A rule that is narrower than all that apply decides alone. -/
theorem mem_decidingRules_of_narrowest
    (narrowest : ∀ other ∈ before.schedule.rulesOn date, rule.Narrower other)
    {other : WeeklyRule} : other ∈ after.schedule.decidingRules date ↔ other = rule := by
  simp only [WeeklyRule.narrower_iff] at narrowest
  rw [adds.mem_decidingRules_weekly applies]
  constructor
  · rintro ⟨same | applying, highest, -⟩
    · exact same
    · -- Any other one that applies is of a lower tier.
      exact absurd highest (Nat.not_le.mpr (narrowest other applying))
  · rintro rfl
    exact ⟨.inl rfl, Nat.le_refl _, fun third listed => Nat.le_of_lt (narrowest third listed)⟩

end Weekly

end Adds

/--
A further closed season closes the times of its dates, and nothing else.

A further weekly rule changes nothing where weekly rules are overruled or where it does not apply.
Elsewhere it has no effect if a narrower rule applies, opens beside the narrowest ones if it is as
narrow as these, and decides alone if it is narrower than all that apply.
-/
theorem isOpenAt_of_adds (before after : Timetable) (time : LocalTime) :
    (∀ season, Adds (.closure season) before after →
      after.isOpenAt time = (before.isOpenAt time && !season.contains time.date.annualDay)) ∧
    ∀ rule, Adds (.weekly rule) before after →
      (before.Overruled time.date ∨ rule.appliesOn time.date = false →
        after.isOpenAt time = before.isOpenAt time) ∧
      (¬ before.Overruled time.date → rule.appliesOn time.date = true →
        (∀ narrowest, before.schedule.NarrowestOn time.date narrowest →
          (narrowest.Narrower rule → after.isOpenAt time = before.isOpenAt time) ∧
          (¬ narrowest.Narrower rule → ¬ rule.Narrower narrowest → after.isOpenAt time =
            (before.isOpenAt time || rule.hours.contains time.clock.dayTime)) ∧
          (rule.Narrower narrowest →
            after.isOpenAt time = rule.hours.contains time.clock.dayTime)) ∧
        (before.schedule.rulesOn time.date = [] →
          after.isOpenAt time = rule.hours.contains time.clock.dayTime)) := by
  refine ⟨fun season adds => adds.isOpenAt_closure time, fun rule adds => ⟨?_, ?_⟩⟩
  · rintro (overruled | idle)
    · exact adds.isOpenAt_of_overruled overruled
    · exact adds.isOpenAt_of_not_appliesOn idle
  · intro free applies
    have freeToo : ¬ after.Overruled time.date := mt adds.overruled_weekly_iff.mp free
    -- A rule that is narrower than all that apply decides alone, also where there are none.
    have alone (all : ∀ other ∈ before.schedule.rulesOn time.date, rule.Narrower other) :
        after.isOpenAt time = rule.hours.contains time.clock.dayTime := by
      rw [Bool.eq_iff_iff, isOpenAt_iff_of_not_overruled freeToo]
      simp only [adds.mem_decidingRules_of_narrowest applies all, exists_eq_left]
    refine ⟨fun narrowest leading => ⟨?_, ?_, ?_⟩, ?_⟩
    · -- The same rules decide as before.
      intro narrow
      rw [Bool.eq_iff_iff, isOpenAt_iff_of_not_overruled freeToo,
        isOpenAt_iff_of_not_overruled free]
      simp only [adds.mem_decidingRules_of_narrower applies leading.1 narrow]
    · -- The rule decides beside those that did before.
      intro notWider notNarrower
      rw [Bool.eq_iff_iff, Bool.or_eq_true, isOpenAt_iff_of_not_overruled freeToo,
        isOpenAt_iff_of_not_overruled free]
      simp only [adds.mem_decidingRules_of_alike applies leading notWider notNarrower,
        or_and_right, exists_or, exists_eq_left]
      exact or_comm
    · intro narrow
      refine alone fun other applying => ?_
      -- None of the others is narrower than the narrowest one, which the rule exceeds.
      have most := leading.2 other applying
      rw [WeeklyRule.narrower_iff] at narrow most ⊢
      omega
    · -- Where no rule applies, there is none to be narrower than.
      intro noRules
      exact alone fun other applying => absurd (noRules ▸ applying) List.not_mem_nil

/-- A winter rule put in front closes a Monday morning, and so does a closed winter put behind. -/
theorem isOpenAt_of_adds_winter :
    let morning : Hours := ⟨⟨600, by decide⟩, ⟨720, by decide⟩⟩
    let afternoon : Hours := ⟨⟨840, by decide⟩, ⟨960, by decide⟩⟩
    let winter : Season := ⟨⟨.october, 31, by decide, by decide⟩, .firstOf .march⟩
    let usual : WeeklyRule := ⟨.monday, morning, none, none⟩
    let wintry : WeeklyRule := ⟨.monday, afternoon, some winter, none⟩
    let before : Timetable := ⟨⟨[.weekly usual, .holiday .closed]⟩, .empty⟩
    let inFront : Timetable := ⟨⟨[.weekly wintry, .weekly usual, .holiday .closed]⟩, .empty⟩
    let behind : Timetable := ⟨⟨[.weekly usual, .holiday .closed, .closure winter]⟩, .empty⟩
    let time : LocalTime := ⟨⟨737821, by decide, by decide⟩, ⟨37800, 0, by decide, by decide⟩⟩
    before.isOpenAt time = true ∧
      (Adds (.closure winter) before behind ∧ winter.contains time.date.annualDay = true ∧
        behind.isOpenAt time = (before.isOpenAt time && !winter.contains time.date.annualDay)) ∧
      Adds (.weekly wintry) before inFront ∧ ¬ before.Overruled time.date ∧
        wintry.appliesOn time.date = true ∧ before.schedule.NarrowestOn time.date usual ∧
        wintry.Narrower usual ∧ wintry.hours.contains time.clock.dayTime = false ∧
        inFront.isOpenAt time = wintry.hours.contains time.clock.dayTime := by
  intro morning afternoon winter usual wintry before inFront behind time
  have addsBehind : Adds (.closure winter) before behind :=
    .between [.weekly usual, .holiday .closed] [] .empty
  have addsInFront : Adds (.weekly wintry) before inFront :=
    .between [] [.weekly usual, .holiday .closed] .empty
  have free : ¬ before.Overruled time.date := by
    rw [overruled_iff, show before.holidayRuleOn? time.date = none by decide +kernel]
    simp only [reduceCtorEq, exists_false, or_false]
    decide +kernel
  have applies : wintry.appliesOn time.date = true := by decide +kernel
  have leading : before.schedule.NarrowestOn time.date usual := by
    unfold Schedule.NarrowestOn
    rw [show before.schedule.rulesOn time.date = [usual] by decide +kernel]
    simp [WeeklyRule.narrower_iff]
  have narrower : wintry.Narrower usual := .inr ⟨rfl, rfl, rfl⟩
  have weekly := (isOpenAt_of_adds before inFront time).2 wintry addsInFront
  exact ⟨by decide +kernel, ⟨addsBehind, by decide +kernel,
    (isOpenAt_of_adds before behind time).1 winter addsBehind⟩, addsInFront, free, applies, leading,
    narrower, by decide +kernel, ((weekly.2 free applies).1 usual leading).2.2 narrower⟩

end Timetable

end OpeningTimes
