import OpeningTimes.Proofs.Calendar.Weekly
import OpeningTimes.Proofs.Timetable.Candidate
import OpeningTimes.Proofs.Timetable.Evaluation
import OpeningTimes.Timetable.Reckoning

/-!
The next opening is the first open time among those that the search reaches.

Everything open in the coming year is reached, so the answer is exact for that year.
-/

namespace OpeningTimes

/-- The openings that a rule proposes are those of the searched dates on which it applies. -/
theorem WeeklyRule.mem_proposals {rule : WeeklyRule} {now opening : LocalTime} :
    opening ∈ rule.proposals now ↔
      ∃ date, rule.Searches now.date date ∧ rule.appliesOn date = true ∧
        rule.hours.openingAfter? now date = some opening := by
  unfold proposals Searches
  simp only [List.mem_flatMap, List.mem_filterMap, List.mem_filter, Date.mem_onWeekday]
  constructor
  · rintro ⟨range, listed, date, ⟨⟨begun, running, -⟩, applies⟩, opens⟩
    exact ⟨date, ⟨range, listed, begun, running⟩, applies, opens⟩
  · -- A rule that applies does so on its weekday, so the date is among those looked at.
    rintro ⟨date, ⟨range, listed, begun, running⟩, applies, opens⟩
    exact ⟨range, listed, date, ⟨⟨begun, running, (appliesOn_iff.mp applies).1⟩, applies⟩, opens⟩

namespace Timetable

/-- The openings that a timetable proposes are those of its weekly rules. -/
theorem mem_proposals {timetable : Timetable} {now opening : LocalTime} :
    opening ∈ timetable.proposals now ↔
      ∃ rule ∈ timetable.schedule.weeklyRules, opening ∈ rule.proposals now :=
  List.mem_flatMap

/--
Candidates are what the weekly rules propose and what the hours of holidays add.

Proposals in closed seasons and on closed holidays are left out.
-/
theorem mem_candidates_iff {timetable : Timetable} {now opening : LocalTime} :
    opening ∈ timetable.candidates now ↔
      (opening ∈ timetable.proposals now ∧ timetable.schedule.closedOn opening.date = false ∧
        timetable.holidayRuleOn? opening.date ≠ some .closed) ∨
      ∃ date hours, timetable.holidayRuleOn? date = some (.hours hours) ∧ now.date ≤ date ∧
        hours.openingAfter? now date = some opening := by
  unfold candidates
  simp only [ne_eq, holidayRuleOn?_eq_some_iff]
  -- The holiday rule in force tells what becomes of the proposals outside of closed seasons.
  cases ruled : timetable.schedule.holidayRule? with
  | none => simp
  | some rule =>
    cases rule with
    | hours hours =>
      -- Hours of holidays add the openings of the listed dates.
      simp [HolidaySet.startingAt, and_assoc]
    | closed =>
      -- Listed dates are closed, which leaves out what is proposed for them.
      simp [← Bool.not_eq_true, and_assoc, and_comm]

/-- Every candidate is a whole minute. -/
theorem isWholeMinute_of_mem_candidates {timetable : Timetable} {now opening : LocalTime}
    (member : opening ∈ timetable.candidates now) : opening.IsWholeMinute := by
  -- A candidate comes from a weekly rule or from the hours of a holiday.
  rcases mem_candidates_iff.mp member with ⟨proposed, -, -⟩ | ⟨date, hours, -, -, found⟩
  · obtain ⟨rule, -, proposes⟩ := mem_proposals.mp proposed
    obtain ⟨date, -, -, found⟩ := WeeklyRule.mem_proposals.mp proposes
    exact Hours.openingAfter?_isWholeMinute found
  · exact Hours.openingAfter?_isWholeMinute found

/-- The first opening is the least candidate that is open and not in the past. -/
theorem firstOpening?_eq_some_iff {timetable : Timetable} {now opening : LocalTime} :
    timetable.firstOpening? now = some opening ↔
      (opening ∈ timetable.candidates now ∧ now ≤ opening ∧ timetable.isOpenAt opening = true) ∧
        ∀ other ∈ timetable.candidates now, now ≤ other →
          timetable.isOpenAt other = true → opening ≤ other := by
  unfold firstOpening?
  rw [List.min?_eq_some_iff]
  simp only [List.mem_filter, Bool.and_eq_true, decide_eq_true_eq, and_imp]

/-- A candidate that is open and not in the past is not earlier than the first opening. -/
theorem exists_firstOpening?_le {timetable : Timetable} {now other : LocalTime}
    (member : other ∈ timetable.candidates now) (after : now ≤ other)
    (opens : timetable.isOpenAt other = true) :
    ∃ opening, timetable.firstOpening? now = some opening ∧ opening ≤ other := by
  cases found : timetable.firstOpening? now with
  | some opening =>
    exact ⟨opening, rfl, (firstOpening?_eq_some_iff.mp found).2 other member after opens⟩
  | none =>
    -- The candidate itself is among those that the minimum is taken of.
    unfold firstOpening? at found
    rw [List.min?_eq_none_iff] at found
    have listed : other ∈ (timetable.candidates now).filter fun opening =>
        now ≤ opening && timetable.isOpenAt opening :=
      List.mem_filter.mpr ⟨member, by simp [after, opens]⟩
    rw [found] at listed
    contradiction

/--
A time is reached from a date when the search looks at what opens it.

That is the holiday rule of its date, or a deciding rule that is searched on that date.
-/
def Reaches (timetable : Timetable) (today : Date) (time : LocalTime) : Prop :=
  (∃ hours, timetable.holidayRuleOn? time.date = some (.hours hours)) ∨
    ∃ rule ∈ timetable.schedule.decidingRules time.date,
      rule.hours.contains time.clock.dayTime = true ∧ rule.Searches today time.date

/-- An open time that is reached has a first opening in front of it. -/
theorem exists_firstOpening?_of_reaches {timetable : Timetable} {now time : LocalTime}
    (whole : now.IsWholeMinute) (after : now ≤ time) (opens : timetable.isOpenAt time = true)
    (reached : timetable.Reaches now.date time) :
    ∃ opening, timetable.firstOpening? now = some opening ∧ opening ≤ time := by
  have inMinutes := (LocalTime.le_iff_minuteRank whole).mp after
  have notBefore := LocalTime.date_le_of_minuteRank_le inMinutes
  -- It is enough to find an open candidate on the same date, as the hours are the same all day.
  have enough (opening : LocalTime) (member : opening ∈ timetable.candidates now)
      (later : now.minuteRank ≤ opening.minuteRank) (openToo : timetable.isOpenAt opening = true)
      (before : opening ≤ time) :
      ∃ opening, timetable.firstOpening? now = some opening ∧ opening ≤ time := by
    obtain ⟨first, found, least⟩ := exists_firstOpening?_le member
      ((LocalTime.le_iff_minuteRank whole).mpr later) openToo
    exact ⟨first, found, Std.le_trans least before⟩
  obtain ⟨outside, decided⟩ := isOpenAt_iff.mp opens
  rcases decided with ⟨hours, ruled, contained⟩ | ⟨working, -⟩
  · -- On a holiday with hours, these have an opening of their own.
    obtain ⟨opening, found, sameDate, containedToo, later, before⟩ :=
      Hours.exists_openingAfter? inMinutes contained
    have member : opening ∈ timetable.candidates now :=
      mem_candidates_iff.mpr (.inr ⟨_, hours, ruled, notBefore, found⟩)
    refine enough opening member later ?_ before
    rw [isOpenAt_iff, sameDate]
    exact ⟨outside, .inl ⟨hours, ruled, containedToo⟩⟩
  · rcases reached with ⟨hours, ruled⟩ | ⟨rule, decides, contained, searched⟩
    · rw [working] at ruled
      contradiction
    · -- On any other date the deciding rule is searched and proposes an opening.
      obtain ⟨listed, applies⟩ := Schedule.mem_rulesOn.mp (Schedule.mem_decidingRules.mp decides).1
      obtain ⟨opening, found, sameDate, containedToo, later, before⟩ :=
        Hours.exists_openingAfter? inMinutes contained
      have proposed : opening ∈ timetable.proposals now :=
        mem_proposals.mpr ⟨rule, listed, WeeklyRule.mem_proposals.mpr ⟨_, searched, applies, found⟩⟩
      have notClosed : timetable.holidayRuleOn? opening.date ≠ some .closed := by
        simp [sameDate, working]
      have member : opening ∈ timetable.candidates now :=
        mem_candidates_iff.mpr (.inl ⟨proposed, sameDate ▸ outside, notClosed⟩)
      refine enough opening member later ?_ before
      rw [isOpenAt_iff, sameDate]
      exact ⟨outside, .inr ⟨working, rule, decides, containedToo⟩⟩

/-- Every open time of the next 365 days is reached, away from the ends of the calendar. -/
theorem reaches_of_isOpenAt {timetable : Timetable} {today : Date} {time : LocalTime}
    (opens : timetable.isOpenAt time = true) (after : today ≤ time.date)
    (near : time.date.number ≤ today.number + 365) (earliest : -262142 ≤ today.year)
    (latest : today.year ≤ 262140) : timetable.Reaches today time := by
  obtain ⟨-, decided⟩ := isOpenAt_iff.mp opens
  rcases decided with ⟨hours, ruled, -⟩ | ⟨-, rule, decides, contained⟩
  · exact .inl ⟨hours, ruled⟩
  · -- A deciding rule applies on the date, so it is searched there.
    have applies := (Schedule.mem_rulesOn.mp (Schedule.mem_decidingRules.mp decides).1).2
    have permits := (WeeklyRule.appliesOn_iff.mp applies).2
    exact .inr ⟨rule, decides, contained,
      WeeklyRule.searches_of_permits permits after near earliest latest⟩

/-- A search from a closed time finds a later whole minute that is open. -/
theorem firstOpening?_spec {timetable : Timetable} {time opening : LocalTime}
    (shut : timetable.isOpenAt time = false)
    (found : timetable.firstOpening? time.startOfMinute = some opening) :
    opening.IsWholeMinute ∧ time < opening ∧ timetable.isOpenAt opening = true := by
  obtain ⟨⟨member, after, opens⟩, -⟩ := firstOpening?_eq_some_iff.mp found
  have whole := isWholeMinute_of_mem_candidates member
  refine ⟨whole, ?_, opens⟩
  rw [LocalTime.lt_iff_minuteRank whole]
  rw [LocalTime.le_iff_minuteRank time.isWholeMinute_startOfMinute,
    LocalTime.minuteRank_startOfMinute] at after
  -- The minute of the time itself is closed, so the opening is in another one.
  have different : time.minuteRank ≠ opening.minuteRank := by
    intro same
    obtain ⟨sameDate, sameTime⟩ := LocalTime.eq_of_minuteRank same
    rw [isOpenAt_congr sameDate sameTime, opens] at shut
    contradiction
  omega

/-- A search from a closed time finds nothing behind an open time that is reached. -/
theorem exists_firstOpening?_of_later {timetable : Timetable} {time later : LocalTime}
    (after : time ≤ later) (opens : timetable.isOpenAt later = true)
    (reached : timetable.Reaches time.date later) :
    ∃ opening, timetable.firstOpening? time.startOfMinute = some opening ∧ opening ≤ later :=
  exists_firstOpening?_of_reaches time.isWholeMinute_startOfMinute
    (Std.le_trans time.startOfMinute_le after) opens reached

end Timetable

namespace Reckoning

/-- Asked about local times, a timetable answers with its next open one. -/
theorem nextOpen_wallClock (timetable : Timetable) (time : LocalTime) :
    (wallClock.nextOpen timetable time).value = .ok (timetable.nextOpen? time) := by
  unfold nextOpen Timetable.nextOpen?
  simp only [wallClock, Timetable.search]
  split
  · rfl
  · cases timetable.firstOpening? time.startOfMinute <;> rfl

end Reckoning

/-- A whole minute behind a time is open, at most a number of days after its date. -/
structure Timetable.OpenMinuteWithin (timetable : Timetable) (days : Int)
    (time minute : LocalTime) : Prop where
  /-- The minute has no seconds. -/
  whole : minute.IsWholeMinute
  /-- The minute begins after the time. -/
  later : time < minute
  /-- The date of the minute is at most the given number of days ahead. -/
  near : minute.date.number ≤ time.date.number + days
  /-- The minute is open. -/
  opens : timetable.isOpenAt minute = true

/--
The next opening is exact for the coming year.

An open time is its own answer, and a closed one is answered by the first open minute of the next
365 days. No answer at all means that nothing is open in these days.
-/
theorem nextOpen_exact_within_year (timetable : Timetable) (time : LocalTime)
    (earliest : -262142 ≤ time.date.year) (latest : time.date.year ≤ 262140) :
    (timetable.isOpenAt time.startOfMinute = true →
      (Reckoning.wallClock.nextOpen timetable time).value = .ok (some time)) ∧
    (timetable.isOpenAt time.startOfMinute = false →
      (∃ minute, timetable.OpenMinuteWithin 365 time minute) →
      ∃ first, timetable.OpenMinuteWithin 365 time first ∧
        (∀ minute, timetable.OpenMinuteWithin 365 time minute → first ≤ minute) ∧
        (Reckoning.wallClock.nextOpen timetable time).value = .ok (some first)) ∧
    ((Reckoning.wallClock.nextOpen timetable time).value = .ok none →
      ∀ later, time ≤ later → later.date.number ≤ time.date.number + 365 →
        timetable.isOpenAt later = false) := by
  rw [Reckoning.nextOpen_wallClock, Timetable.isOpenAt_startOfMinute]
  unfold Timetable.nextOpen?
  cases state : timetable.isOpenAt time with
  | true => simp
  | false =>
    -- Whatever is open in the coming year has an opening in front of it.
    have reaching (later : LocalTime) (after : time ≤ later)
        (near : later.date.number ≤ time.date.number + 365)
        (opens : timetable.isOpenAt later = true) :
        ∃ opening, timetable.firstOpening? time.startOfMinute = some opening ∧ opening ≤ later :=
      Timetable.exists_firstOpening?_of_later after opens
        (Timetable.reaches_of_isOpenAt opens (LocalTime.date_le_of_le after) near earliest latest)
    refine ⟨fun opens => absurd opens Bool.false_ne_true, fun _ minuteAhead => ?_,
      fun noOpening later after near => ?_⟩
    · -- The first opening lies in front of an open minute, and so of every other one.
      obtain ⟨minute, isMinute⟩ := minuteAhead
      obtain ⟨first, found, before⟩ :=
        reaching minute (LocalTime.le_of_lt isMinute.later) isMinute.near isMinute.opens
      obtain ⟨whole, later, opens⟩ := Timetable.firstOpening?_spec state found
      have near := Date.le_iff_number.mp (LocalTime.date_le_of_le before)
      have bound := isMinute.near
      have isFirst : timetable.OpenMinuteWithin 365 time first := ⟨whole, later, by omega, opens⟩
      refine ⟨first, isFirst, fun other isOther => ?_, by simp [found]⟩
      obtain ⟨same, foundToo, notLater⟩ :=
        reaching other (LocalTime.le_of_lt isOther.later) isOther.near isOther.opens
      rw [found, Option.some.injEq] at foundToo
      exact foundToo ▸ notLater
    · -- An open time would have an opening in front of it.
      cases opens : timetable.isOpenAt later with
      | false => rfl
      | true =>
        obtain ⟨opening, found, -⟩ := reaching later after near opens
        simp [found] at noOpening

/-- A wrapping season is answered by its next occurrence, whose first days are closed. -/
theorem nextOpen_exact_winterMondays :
    let hours : Hours := ⟨⟨600, by decide⟩, ⟨840, by decide⟩⟩
    let winter : Season := ⟨⟨.october, 31, by decide, by decide⟩, .firstOf .march⟩
    let timetable : Timetable :=
      ⟨⟨[.weekly ⟨.monday, hours, some winter, none⟩, .closure (.ofMonths .november .november)]⟩,
        .empty⟩
    let time : LocalTime := ⟨⟨737863, by decide, by decide⟩, ⟨45015, 0, by decide, by decide⟩⟩
    let opening : LocalTime := ⟨⟨738129, by decide, by decide⟩, ⟨36000, 0, by decide, by decide⟩⟩
    (-262142 ≤ time.date.year ∧ time.date.year ≤ 262140) ∧
      timetable.isOpenAt time.startOfMinute = false ∧
      timetable.OpenMinuteWithin 365 time opening ∧
      ∃ first, timetable.OpenMinuteWithin 365 time first ∧
        (∀ minute, timetable.OpenMinuteWithin 365 time minute → first ≤ minute) ∧
        (Reckoning.wallClock.nextOpen timetable time).value = .ok (some first) := by
  intro hours winter timetable time opening
  have years : -262142 ≤ time.date.year ∧ time.date.year ≤ 262140 := by decide +kernel
  have shut : timetable.isOpenAt time.startOfMinute = false := by decide +kernel
  have within : timetable.OpenMinuteWithin 365 time opening :=
    ⟨by decide +kernel, by decide +kernel, by decide +kernel, by decide +kernel⟩
  have withinYear := nextOpen_exact_within_year timetable time years.1 years.2
  exact ⟨years, shut, within, withinYear.2.1 shut ⟨opening, within⟩⟩

/--
Of the open times in front of an answer, the search has reached none.

The answer is therefore the first open time exactly when everything open in front of it is reached.
Whatever it passes over is more than 365 days ahead.
-/
theorem nextOpen_first_iff_reached {timetable : Timetable} {time answer : LocalTime}
    (found : (Reckoning.wallClock.nextOpen timetable time).value = .ok (some answer)) :
    ((∀ earlier, time ≤ earlier → earlier < answer → timetable.isOpenAt earlier = false) ↔
      ∀ earlier, time ≤ earlier → earlier < answer → timetable.isOpenAt earlier = true →
        timetable.Reaches time.date earlier) ∧
    ∀ earlier, time ≤ earlier → earlier < answer → timetable.isOpenAt earlier = true →
      ¬ timetable.Reaches time.date earlier ∧ (-262142 ≤ time.date.year → time.date.year ≤ 262140 →
        time.date.number + 365 < earlier.date.number) := by
  rw [Reckoning.nextOpen_wallClock, Except.ok.injEq] at found
  have unreached (earlier : LocalTime) (after : time ≤ earlier) (before : earlier < answer)
      (opens : timetable.isOpenAt earlier = true) : ¬ timetable.Reaches time.date earlier := by
    intro reached
    unfold Timetable.nextOpen? at found
    split at found
    · -- An open time is its own answer, with nothing in front of it.
      cases found
      rw [LocalTime.lt_iff_rank] at before
      rw [LocalTime.le_iff_rank] at after
      omega
    · -- The answer would not be later than a time that is reached.
      obtain ⟨opening, foundToo, notLater⟩ :=
        Timetable.exists_firstOpening?_of_later after opens reached
      rw [found, Option.some.injEq] at foundToo
      rw [← foundToo, LocalTime.le_iff_rank] at notLater
      rw [LocalTime.lt_iff_rank] at before
      omega
  refine ⟨⟨fun first earlier after before opens => ?_, fun reaches earlier after before => ?_⟩,
    fun earlier after before opens => ⟨unreached earlier after before opens, fun low high => ?_⟩⟩
  · rw [first earlier after before] at opens
    contradiction
  · cases opens : timetable.isOpenAt earlier with
    | false => rfl
    | true =>
      have reached := reaches earlier after before opens
      exact absurd reached (unreached earlier after before opens)
  · -- Within a year the search would have reached it.
    by_cases near : earlier.date.number ≤ time.date.number + 365
    · have reached :=
        Timetable.reaches_of_isOpenAt opens (LocalTime.date_le_of_le after) near low high
      exact absurd reached (unreached earlier after before opens)
    · omega

namespace NewYearMondays

/-- A place that opens on the first of January when it is a Monday, and on the Tuesdays of 2030. -/
def timetable : Timetable :=
  let morning : Hours := ⟨⟨600, by decide⟩, ⟨720, by decide⟩⟩
  let newYear : Season := ⟨.firstOf .january, .firstOf .january⟩
  ⟨⟨[.weekly ⟨.monday, morning, some newYear, none⟩,
    .weekly ⟨.tuesday, morning, none, some (.only (.ofNat 2030))⟩]⟩, .empty⟩

/-- The first of June 2021. -/
def june : LocalTime := ⟨⟨737941, by decide, by decide⟩, .midnight⟩

/-- The morning of the first of January 2024, a Monday. -/
def monday : LocalTime :=
  ⟨⟨738885, by decide, by decide⟩, ⟨36000, 0, by decide, ClockTime.midnight.nanosecond_lt⟩⟩

/-- The morning of the first of January 2030, a Tuesday. -/
def tuesday : LocalTime :=
  ⟨⟨741077, by decide, by decide⟩, ⟨36000, 0, by decide, ClockTime.midnight.nanosecond_lt⟩⟩

/-- Besides the year 2030 only two first days are searched, and neither of them is a Monday. -/
theorem nextOpen_june :
    (Reckoning.wallClock.nextOpen timetable june).value = .ok (some tuesday) := by
  rw [Reckoning.nextOpen_wallClock]
  exact congrArg Except.ok (by decide +kernel)

/-- The open Monday lies between the question and the answer. -/
theorem monday_between : june ≤ monday ∧ monday < tuesday ∧ timetable.isOpenAt monday = true := by
  decide +kernel

end NewYearMondays

/-- From June 2021 on the answer lies in 2030, and the open Monday in front of it is not reached. -/
theorem nextOpen_first_iff_reached_newYear :
    (Reckoning.wallClock.nextOpen NewYearMondays.timetable NewYearMondays.june).value =
        .ok (some NewYearMondays.tuesday) ∧
      ¬ NewYearMondays.timetable.Reaches NewYearMondays.june.date NewYearMondays.monday ∧
      NewYearMondays.june.date.number + 365 < NewYearMondays.monday.date.number := by
  obtain ⟨after, before, opens⟩ := NewYearMondays.monday_between
  have years : -262142 ≤ NewYearMondays.june.date.year ∧
      NewYearMondays.june.date.year ≤ 262140 := by
    decide +kernel
  have passedOver := (nextOpen_first_iff_reached NewYearMondays.nextOpen_june).2
  obtain ⟨unreached, distant⟩ := passedOver NewYearMondays.monday after before opens
  exact ⟨NewYearMondays.nextOpen_june, unreached, distant years.1 years.2⟩

/-- An answer need not be the first open time. -/
theorem nextOpen_passes_over_newYear :
    ¬ ∀ (timetable : Timetable) (time answer earlier : LocalTime),
      (Reckoning.wallClock.nextOpen timetable time).value = .ok (some answer) →
        time ≤ earlier → earlier < answer → timetable.isOpenAt earlier = false := by
  intro always
  obtain ⟨after, before, opens⟩ := NewYearMondays.monday_between
  have shut := always _ _ _ _ NewYearMondays.nextOpen_june after before
  exact Bool.false_ne_true (shut.symm.trans opens)

end OpeningTimes
