import OpeningTimes.Proofs.Timetable.Closing
import OpeningTimes.Proofs.Timetable.ZonedAnswer

/-! The order and the number of equal rules do not matter, apart from the holiday rule in force. -/

namespace OpeningTimes

namespace Schedule

/-- Two schedules have the same rules, and the same holiday rule is in force. -/
structure SameRules (left right : Schedule) : Prop where
  /-- A rule of one schedule is a rule of the other. -/
  rules : ∀ rule, rule ∈ left.rules ↔ rule ∈ right.rules
  /-- The first holiday rule is the same, or there is none in both. -/
  first : left.holidayRule? = right.holidayRule?

namespace SameRules

variable {left right : Schedule}

/-- The other way round the rules are the same as well. -/
theorem symm (same : SameRules left right) : SameRules right left :=
  ⟨fun rule => (same.rules rule).symm, same.first.symm⟩

/-- With the same rules and holidays, a timetable closes at least what the other one does. -/
theorem closesMore (same : SameRules left right) (holidays : HolidaySet) :
    Timetable.ClosesMore ⟨left, holidays⟩ ⟨right, holidays⟩ := by
  refine ⟨?_, ?_, same.first.symm, fun date listed => listed, fun date listed => .inl listed⟩
  · intro rule
    rw [mem_weeklyRules, mem_weeklyRules, same.rules]
  · -- A closed season closes wherever it stands among the rules.
    intro season listed
    rwa [mem_closures, ← same.rules, ← mem_closures]

end SameRules

end Schedule

namespace Timetable

variable {left right : Schedule} (same : left.SameRules right) (holidays : HolidaySet)

include same

/-- The same times are open. -/
theorem isOpenAt_eq_of_sameRules (time : LocalTime) :
    isOpenAt ⟨left, holidays⟩ time = isOpenAt ⟨right, holidays⟩ time := by
  -- Each of the two closes at least what the other one does.
  rw [Bool.eq_iff_iff]
  exact ⟨(same.symm.closesMore holidays).isOpenAt, (same.closesMore holidays).isOpenAt⟩

/-- The same dates are open. -/
theorem isOpenOn_eq_of_sameRules (date : Date) :
    isOpenOn ⟨left, holidays⟩ date = isOpenOn ⟨right, holidays⟩ date := by
  rw [Bool.eq_iff_iff]
  exact ⟨(same.symm.closesMore holidays).isOpenOn, (same.closesMore holidays).isOpenOn⟩

/-- The same openings are candidates. -/
theorem mem_candidates_of_sameRules (now opening : LocalTime) :
    opening ∈ candidates ⟨left, holidays⟩ now ↔ opening ∈ candidates ⟨right, holidays⟩ now :=
  ⟨(same.symm.closesMore holidays).mem_candidates, (same.closesMore holidays).mem_candidates⟩

/-- The same first opening is found. -/
theorem firstOpening?_eq_of_sameRules (now : LocalTime) :
    firstOpening? ⟨left, holidays⟩ now = firstOpening? ⟨right, holidays⟩ now := by
  -- The least candidate does not depend on the order of the candidates.
  ext opening
  simp only [firstOpening?_eq_some_iff, mem_candidates_of_sameRules same holidays,
    isOpenAt_eq_of_sameRules same holidays]

/-- The same answers are given. -/
theorem nextOpen?_eq_of_sameRules (time : LocalTime) :
    nextOpen? ⟨left, holidays⟩ time = nextOpen? ⟨right, holidays⟩ time := by
  unfold nextOpen?
  rw [isOpenAt_eq_of_sameRules same holidays, firstOpening?_eq_of_sameRules same holidays]

end Timetable

/--
The value of an answer depends on two things only: which times are open, and which opening is first.

The records beside it also count the proposals, of which a repeated rule makes more.
-/
theorem Reckoning.value_nextOpen_congr {Moment : Type} (reckoning : Reckoning Moment)
    {left right : Timetable} (moment : Moment)
    (opens : ∀ time, left.isOpenAt time = right.isOpenAt time)
    (first : ∀ now, left.firstOpening? now = right.firstOpening? now) :
    (reckoning.nextOpen left moment).value = (reckoning.nextOpen right moment).value := by
  unfold nextOpen
  cases reckoning.reading? moment with
  | none => rfl
  | some time =>
    simp only [Timetable.search, opens, first]
    -- Both sides go through the same three cases: an open time, no opening, or an opening.
    cases right.isOpenAt time with
    | true => rfl
    | false => cases right.firstOpening? time.startOfMinute <;> rfl

/--
Timetables with the same rules give the same answers, however time is reckoned.

Neither the order of the rules nor their repetitions matter, except for which holiday rule is first.
-/
theorem answers_eq_of_sameRules {Moment : Type} (reckoning : Reckoning Moment)
    {left right : Schedule} (same : left.SameRules right) (holidays : HolidaySet) :
    (∀ moment, reckoning.isOpenAt ⟨left, holidays⟩ moment =
      reckoning.isOpenAt ⟨right, holidays⟩ moment) ∧
    (∀ date, Timetable.isOpenOn ⟨left, holidays⟩ date =
      Timetable.isOpenOn ⟨right, holidays⟩ date) ∧
    ∀ moment, (reckoning.nextOpen ⟨left, holidays⟩ moment).value =
      (reckoning.nextOpen ⟨right, holidays⟩ moment).value := by
  have opens := Timetable.isOpenAt_eq_of_sameRules same holidays
  have first := Timetable.firstOpening?_eq_of_sameRules same holidays
  refine ⟨?_, ?_, ?_⟩
  · intro moment
    -- An instant is as open as the local time that clocks show at it.
    unfold Reckoning.isOpenAt
    simp only [opens]
  · exact Timetable.isOpenOn_eq_of_sameRules same holidays
  · intro moment
    exact reckoning.value_nextOpen_congr moment opens first

/-- Mondays in another order and written twice are answered by the same Monday in Tokyo. -/
theorem answers_eq_of_sameRules_mondays :
    let morning : Hours := ⟨⟨600, by decide⟩, ⟨720, by decide⟩⟩
    let monday : Rule := .weekly ⟨.monday, morning, none, none⟩
    let february : Rule := .closure (.ofMonths .february .february)
    let left : Schedule := ⟨[monday, .holiday .closed, february, .holiday (.hours morning)]⟩
    let right : Schedule :=
      ⟨[february, .holiday .closed, monday, .holiday (.hours morning), .holiday .closed, monday]⟩
    let holiday : Date := ⟨737849, by decide, by decide⟩
    let holidays : HolidaySet := .ofList [holiday]
    let tokyo : Zone := ⟨"Tokyo".toList, ⟨32400, some "JST".toList⟩, []⟩
    let sunday : Instant :=
      ⟨⟨⟨737820, by decide, by decide⟩, ⟨54000, 0, by decide, by decide⟩⟩, tokyo⟩
    let answer : Instant :=
      ⟨⟨⟨737856, by decide, by decide⟩, ⟨3600, 0, by decide, by decide⟩⟩, tokyo⟩
    left.SameRules right ∧ left ≠ right ∧
      (Reckoning.inZone tokyo).isOpenAt ⟨right, holidays⟩ answer = .ok true ∧
      Timetable.isOpenOn ⟨right, holidays⟩ holiday = false ∧
      ((Reckoning.inZone tokyo).nextOpen ⟨right, holidays⟩ sunday).value = .ok (some answer) := by
  intro morning monday february left right holiday holidays tokyo sunday answer
  have forth : ∀ rule ∈ left.rules, rule ∈ right.rules := by decide
  have back : ∀ rule ∈ right.rules, rule ∈ left.rules := by decide
  have same : left.SameRules right := ⟨fun rule => ⟨forth rule, back rule⟩, rfl⟩
  obtain ⟨times, dates, answers⟩ :=
    answers_eq_of_sameRules (Reckoning.inZone tokyo) same holidays
  -- Clocks show the beginning of February, and the opening is on the eighth of March.
  let now : LocalTime := ⟨⟨737821, by decide, by decide⟩, .midnight⟩
  let opening : LocalTime :=
    ⟨⟨737856, by decide, by decide⟩, ⟨36000, 0, by decide, by decide⟩⟩
  refine ⟨same, by decide, ?_, ?_, ?_⟩
  · rw [← times]
    exact Reckoning.isOpenAt_eq_true_iff.mpr ⟨opening, by decide +kernel⟩
  · rw [← dates]
    decide +kernel
  · rw [← answers]
    exact Reckoning.nextOpen_eq_some_iff.mpr
      ⟨now, by decide +kernel, .inr ⟨by decide +kernel, opening, by decide +kernel⟩⟩

end OpeningTimes
