import OpeningTimes.Expression.Reader

/-! Day numbers that no month has give way to the nearest day that some month has. -/

namespace OpeningTimes

/-- The day number of some month that is nearest to any number. -/
def nearestDay (number : Nat) : Nat :=
  if number = 0 then 1 else min number 31

/-- A number is nearest to itself when some month has such a day. -/
theorem nearestDay_eq_self_iff {number : Nat} :
    nearestDay number = number ↔ 1 ≤ number ∧ number ≤ 31 := by
  unfold nearestDay
  split <;> omega

/-- Some month has the nearest day. -/
theorem nearestDay_bounds (number : Nat) : 1 ≤ nearestDay number ∧ nearestDay number ≤ 31 := by
  unfold nearestDay
  split <;> omega

namespace AnnualDay

/-- The day of a month that is nearest to any number. -/
def nearest (month : Month) (number : Nat) : AnnualDay :=
  ⟨month, nearestDay number, (nearestDay_bounds number).1, (nearestDay_bounds number).2⟩

/-- Numbers with the same nearest day lead to the same day of a month. -/
theorem nearest_eq {number other : Nat} (same : nearestDay number = nearestDay other)
    (month : Month) : nearest month number = nearest month other := by
  simp only [nearest, same]

/-- The number of a day is nearest to itself. -/
theorem nearest_self (annual : AnnualDay) : nearest annual.month annual.day = annual := by
  have kept := nearestDay_eq_self_iff.mpr ⟨annual.one_le_day, annual.day_le⟩
  simp only [nearest, kept]

end AnnualDay

namespace Token

variable {token : Token}

/-- A number below 256 is read as the nearest day, with a warning if that is another number. -/
theorem readDayOf_eq {number : Nat} (read : readByte? token.text = some number)
    (month : Month) : token.readDayOf month =
      ⟨if nearestDay number = number then [] else [⟨month, number⟩],
        .ok (.nearest month number)⟩ := by
  have found : AnnualDay.of? month (nearestDay number) = some (.nearest month number) :=
    dif_pos (nearestDay_bounds number)
  have kept : (if number = 0 then 1 else min number 31) = nearestDay number := rfl
  unfold readDayOf
  simp only [read, kept, found]
  by_cases same : nearestDay number = number
  · rw [if_neg (not_not_intro same), if_pos same]
    rfl
  · rw [if_pos same, if_neg same]
    rfl

/-- A token that denotes no number below 256 is refused as the number of a day. -/
theorem readDayOf_eq_refuse (read : readByte? token.text = none) (month : Month) :
    token.readDayOf month = .refuse .dayNumber token := by
  unfold readDayOf
  simp only [read]

end Token

end OpeningTimes
