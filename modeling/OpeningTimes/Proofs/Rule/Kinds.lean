import OpeningTimes.Rule.Schedule

/-! The weekly rules, closed seasons and holiday rules of a schedule are those among its rules. -/

namespace OpeningTimes

namespace Schedule

variable {schedule : Schedule}

/-- The weekly rules of a schedule are those among its rules. -/
theorem mem_weeklyRules {rule : WeeklyRule} :
    rule ∈ schedule.weeklyRules ↔ .weekly rule ∈ schedule.rules := by
  unfold weeklyRules
  rw [List.mem_filterMap]
  constructor
  · -- Only a weekly rule is found as one.
    rintro ⟨other, listed, found⟩
    cases other <;> cases found
    exact listed
  · exact fun listed => ⟨_, listed, rfl⟩

/-- The closed seasons of a schedule are those among its rules. -/
theorem mem_closures {season : Season} :
    season ∈ schedule.closures ↔ .closure season ∈ schedule.rules := by
  unfold closures
  rw [List.mem_filterMap]
  constructor
  · -- Only a closed season is found as one.
    rintro ⟨other, listed, found⟩
    cases other <;> cases found
    exact listed
  · exact fun listed => ⟨_, listed, rfl⟩

/-- The holiday rule in force is one of the rules. -/
theorem mem_of_holidayRule? {rule : HolidayRule} (ruled : schedule.holidayRule? = some rule) :
    .holiday rule ∈ schedule.rules := by
  obtain ⟨other, listed, found⟩ := List.mem_filterMap.mp (List.mem_of_head? ruled)
  -- Only a holiday rule is found as one.
  cases other <;> cases found
  exact listed

/-- The holiday rule of two lists is the one of the first list, or else that of the second. -/
theorem holidayRule?_append (left right : List Rule) :
    holidayRule? ⟨left ++ right⟩ = (holidayRule? ⟨left⟩).or (holidayRule? ⟨right⟩) := by
  simp [holidayRule?, holidayRules]

/-- Without holiday rules in a list there is none in force. -/
theorem holidayRule?_eq_none_iff {rules : List Rule} :
    holidayRule? ⟨rules⟩ = none ↔ ∀ rule, .holiday rule ∉ rules := by
  unfold holidayRule? holidayRules
  simp only [List.head?_eq_none_iff, List.filterMap_eq_nil_iff]
  constructor
  · intro nothing rule listed
    cases nothing _ listed
  · -- Only the holiday rules among the rules are looked at.
    intro absent rule listed
    cases rule with
    | weekly _ => rfl
    | closure _ => rfl
    | holiday rule => exact absurd listed (absent rule)

end Schedule

end OpeningTimes
