import OpeningTimes.Proofs.Timetable.OpenDates
import OpeningTimes.Proofs.Timetable.Soundness

/-!
Closing more dates opens nothing, and it brings no answer forward.

The rules that open stay the same, so whatever is a candidate afterwards was one before.
-/

namespace OpeningTimes

namespace Timetable

/-- A timetable closes at least what another one does, and both open by the same rules. -/
structure ClosesMore (before after : Timetable) : Prop where
  /-- The weekly rules are the same. -/
  weekly : ∀ rule, rule ∈ after.schedule.weeklyRules ↔ rule ∈ before.schedule.weeklyRules
  /-- No closed season is taken away. -/
  closures : ∀ season ∈ before.schedule.closures, season ∈ after.schedule.closures
  /-- The same holiday rule is in force. -/
  ruled : after.schedule.holidayRule? = before.schedule.holidayRule?
  /-- No holiday is taken away. -/
  kept : ∀ date ∈ before.holidays.dates, date ∈ after.holidays.dates
  /-- Holidays are added only where they are closed. -/
  added : ∀ date ∈ after.holidays.dates,
    date ∈ before.holidays.dates ∨ before.schedule.holidayRule? = some .closed

namespace ClosesMore

variable {before after : Timetable} (closes : ClosesMore before after)

include closes

/-- A date that no closed season contains afterwards was in none before. -/
theorem closedOn_eq_false {date : Date} (outside : after.schedule.closedOn date = false) :
    before.schedule.closedOn date = false := by
  unfold Schedule.closedOn at *
  rw [List.any_eq_false] at *
  -- Each of the earlier closed seasons is still there.
  intro season listed
  exact outside season (closes.closures season listed)

/-- What decides about a date as a holiday stays, unless the date has become a closed holiday. -/
theorem holidayRuleOn?_cases (date : Date) :
    after.holidayRuleOn? date = before.holidayRuleOn? date ∨
      after.holidayRuleOn? date = some .closed := by
  by_cases listed : date ∈ after.holidays.dates
  · rcases closes.added date listed with same | closed
    · -- A date that was a holiday before is decided by the same rule.
      left
      unfold holidayRuleOn?
      rw [HolidaySet.contains_iff.mpr listed, HolidaySet.contains_iff.mpr same, closes.ruled]
    · right
      exact holidayRuleOn?_eq_some_iff.mpr ⟨listed, closes.ruled.trans closed⟩
  · -- A date that is no holiday was none before.
    have unlisted : date ∉ before.holidays.dates := by
      intro earlier
      exact listed (closes.kept date earlier)
    left
    unfold holidayRuleOn?
    simp [HolidaySet.contains, listed, unlisted]

/-- The same weekly rules apply on a date. -/
theorem mem_rulesOn_iff {date : Date} {rule : WeeklyRule} :
    rule ∈ after.schedule.rulesOn date ↔ rule ∈ before.schedule.rulesOn date := by
  rw [Schedule.mem_rulesOn, Schedule.mem_rulesOn, closes.weekly]

/-- The same weekly rules decide about a date. -/
theorem mem_decidingRules_iff {date : Date} {rule : WeeklyRule} :
    rule ∈ after.schedule.decidingRules date ↔ rule ∈ before.schedule.decidingRules date := by
  -- The highest tier is that of the rules that apply, which are the same.
  simp only [Schedule.mem_decidingRules, closes.mem_rulesOn_iff]

/-- A time that is open afterwards was open before. -/
theorem isOpenAt {time : LocalTime} (opens : after.isOpenAt time = true) :
    before.isOpenAt time = true := by
  rw [isOpenAt_iff] at opens ⊢
  obtain ⟨outside, decided⟩ := opens
  refine ⟨closes.closedOn_eq_false outside, ?_⟩
  simp only [closes.mem_decidingRules_iff] at decided
  rcases closes.holidayRuleOn?_cases time.date with same | closed
  · rwa [same] at decided
  · -- On a closed holiday nothing would be open.
    simp [closed] at decided

/-- A date that is open afterwards was open before. -/
theorem isOpenOn {date : Date} (opens : after.isOpenOn date = true) :
    before.isOpenOn date = true := by
  rw [isOpenOn_iff] at opens ⊢
  obtain ⟨outside, decided⟩ := opens
  refine ⟨closes.closedOn_eq_false outside, ?_⟩
  simp only [closes.mem_rulesOn_iff] at decided
  rcases closes.holidayRuleOn?_cases date with same | closed
  · rwa [same] at decided
  · -- A closed holiday would not be open.
    simp [closed] at decided

/-- An opening that is a candidate afterwards was one before. -/
theorem mem_candidates {now opening : LocalTime} (member : opening ∈ after.candidates now) :
    opening ∈ before.candidates now := by
  rw [mem_candidates_iff] at member ⊢
  rcases member with ⟨proposed, outside, working⟩ | ⟨date, hours, ruled, notOver, found⟩
  · -- The same rule proposed it, and neither a closed season nor a holiday was in its way.
    left
    simp only [mem_proposals, closes.weekly] at proposed ⊢
    refine ⟨proposed, closes.closedOn_eq_false outside, ?_⟩
    rcases closes.holidayRuleOn?_cases opening.date with same | closed
    · rwa [same] at working
    · exact absurd closed working
  · -- The hours of a holiday are not those of a closed one, so the date was a holiday before.
    right
    refine ⟨date, hours, ?_, notOver, found⟩
    rcases closes.holidayRuleOn?_cases date with same | closed
    · rwa [same] at ruled
    · cases closed.symm.trans ruled

/-- An answer given afterwards has an answer before that is no later. -/
theorem exists_nextOpen?_le {time later : LocalTime} (found : after.nextOpen? time = some later) :
    ∃ sooner, before.nextOpen? time = some sooner ∧ sooner ≤ later := by
  cases state : before.isOpenAt time with
  | true =>
    -- A time that was open was its own answer, and no answer is in the past.
    refine ⟨time, nextOpen?_of_isOpenAt state, ?_⟩
    rcases nextOpen?_cases found with ⟨-, rfl⟩ | ⟨-, -, behind, -⟩
    · exact Std.le_refl _
    · exact LocalTime.le_of_lt behind
  | false =>
    -- A time that was closed still is, so both timetables search from the same minute.
    have shut : after.isOpenAt time = false := by
      rw [← Bool.not_eq_true]
      intro opens
      rw [closes.isOpenAt opens] at state
      contradiction
    rw [nextOpen?, shut, if_neg Bool.false_ne_true] at found
    rw [nextOpen?, state, if_neg Bool.false_ne_true]
    obtain ⟨⟨member, notBefore, opens⟩, -⟩ := firstOpening?_eq_some_iff.mp found
    exact exists_firstOpening?_le (closes.mem_candidates member) notBefore (closes.isOpenAt opens)

end ClosesMore

/-- One way to close more. -/
inductive Closing : Timetable → Timetable → Prop where
  /-- A closed season is put anywhere among the rules. -/
  | season (front back : List Rule) (season : Season) (holidays : HolidaySet) :
    Closing ⟨⟨front ++ back⟩, holidays⟩ ⟨⟨front ++ .closure season :: back⟩, holidays⟩
  /-- Dates become holidays, which are closed. -/
  | holidays {schedule : Schedule} {fewer more : HolidaySet}
    (closed : schedule.holidayRule? = some .closed)
    (all : ∀ date ∈ fewer.dates, date ∈ more.dates) :
    Closing ⟨schedule, fewer⟩ ⟨schedule, more⟩

/-- Each way to close more leaves alone what opens. -/
theorem Closing.closesMore {before after : Timetable} (closing : Closing before after) :
    ClosesMore before after := by
  cases closing with
  | season front back season holidays =>
    refine ⟨?_, ?_, ?_, fun date listed => listed, fun date listed => .inl listed⟩
    · intro rule
      simp [Schedule.mem_weeklyRules]
    · intro other listed
      rw [Schedule.mem_closures, List.mem_append] at listed
      rw [Schedule.mem_closures, List.mem_append, List.mem_cons]
      -- The earlier closed seasons stay on their side of the new one.
      rcases listed with inFront | behind
      · exact .inl inFront
      · exact .inr (.inr behind)
    · -- A closed season is no holiday rule, so the first one of these stays the first.
      show Schedule.holidayRule? ⟨front ++ ([.closure season] ++ back)⟩ = _
      rw [Schedule.holidayRule?_append, Schedule.holidayRule?_append,
        Schedule.holidayRule?_append]
      rfl
  | holidays closed all =>
    exact ⟨fun rule => Iff.rfl, fun season listed => listed, rfl, all, fun date _ => .inr closed⟩

end Timetable

/--
Closing more opens no time and no date, and it brings no answer forward.

So a search that finds an opening afterwards found one before that was no later, however far away.
-/
theorem nextOpen_le_of_closing {before after : Timetable} (closing : before.Closing after) :
    (∀ time, Reckoning.wallClock.isOpenAt after time = .ok true →
      Reckoning.wallClock.isOpenAt before time = .ok true) ∧
    (∀ date, after.isOpenOn date = true → before.isOpenOn date = true) ∧
    ∀ time later, (Reckoning.wallClock.nextOpen after time).value = .ok (some later) →
      ∃ sooner, (Reckoning.wallClock.nextOpen before time).value = .ok (some sooner) ∧
        sooner ≤ later := by
  have closes := closing.closesMore
  simp only [Reckoning.isOpenAt_wallClock, Reckoning.nextOpen_wallClock, Except.ok.injEq]
  refine ⟨?_, ?_, ?_⟩
  · intro time opens
    exact closes.isOpenAt opens
  · intro date opens
    exact closes.isOpenOn opens
  · intro time later found
    exact closes.exists_nextOpen?_le found

/--
Closing every first of January moves an answer in 2030 from the first Tuesday to the second one.

A Monday that becomes a holiday is no longer its own answer when holidays are closed.
-/
theorem nextOpen_le_of_closing_newYear :
    let morning : Hours := ⟨⟨600, by decide⟩, ⟨720, by decide⟩⟩
    let newYear : Season := ⟨.firstOf .january, .firstOf .january⟩
    let tuesdays : Rule := .weekly ⟨.tuesday, morning, none, some (.only (.ofNat 2030))⟩
    let shortened : Timetable :=
      ⟨⟨[.weekly ⟨.monday, morning, some newYear, none⟩, .closure newYear, tuesdays]⟩, .empty⟩
    let nextTuesday : LocalTime :=
      ⟨⟨741084, by decide, by decide⟩, ⟨36000, 0, by decide, by decide⟩⟩
    let mondays : Schedule := ⟨[.weekly ⟨.monday, morning, none, none⟩, .holiday .closed]⟩
    let monday : LocalTime := ⟨⟨737821, by decide, by decide⟩, ⟨37815, 0, by decide, by decide⟩⟩
    let nextMonday : LocalTime := ⟨⟨737828, by decide, by decide⟩, ⟨36000, 0, by decide, by decide⟩⟩
    (NewYearMondays.timetable.Closing shortened ∧
      (Reckoning.wallClock.nextOpen shortened NewYearMondays.june).value = .ok (some nextTuesday) ∧
      ∃ sooner, (Reckoning.wallClock.nextOpen NewYearMondays.timetable NewYearMondays.june).value =
        .ok (some sooner) ∧ sooner ≤ nextTuesday) ∧
    Timetable.Closing ⟨mondays, .empty⟩ ⟨mondays, .ofList [monday.date]⟩ ∧
      (Reckoning.wallClock.nextOpen ⟨mondays, .ofList [monday.date]⟩ monday).value =
        .ok (some nextMonday) ∧
      ∃ sooner, (Reckoning.wallClock.nextOpen ⟨mondays, .empty⟩ monday).value =
        .ok (some sooner) ∧ sooner ≤ nextMonday := by
  intro morning newYear tuesdays shortened nextTuesday mondays monday nextMonday
  have closing : NewYearMondays.timetable.Closing shortened :=
    .season [.weekly ⟨.monday, morning, some newYear, none⟩] [tuesdays] newYear .empty
  have found : (Reckoning.wallClock.nextOpen shortened NewYearMondays.june).value =
      .ok (some nextTuesday) := by
    rw [Reckoning.nextOpen_wallClock]
    exact congrArg Except.ok (by decide +kernel)
  have closingToo : Timetable.Closing ⟨mondays, .empty⟩ ⟨mondays, .ofList [monday.date]⟩ :=
    .holidays rfl (fun date listed => absurd listed List.not_mem_nil)
  have foundToo : (Reckoning.wallClock.nextOpen ⟨mondays, .ofList [monday.date]⟩ monday).value =
      .ok (some nextMonday) := by
    rw [Reckoning.nextOpen_wallClock]
    exact congrArg Except.ok (by decide +kernel)
  exact ⟨⟨closing, found, (nextOpen_le_of_closing closing).2.2 _ _ found⟩,
    closingToo, foundToo, (nextOpen_le_of_closing closingToo).2.2 _ _ foundToo⟩

end OpeningTimes
