import OpeningTimes.Proofs.Timetable.Soundness

/-!
A question asked later does not lose an answer that is still to come.

What is searched on a date from some day on is searched there from every later day up to that date.
-/

namespace OpeningTimes

namespace Season

/-- An occurrence is over by the end of the year after the one in which it begins. -/
theorem last_year_le {season : Season} {year : Int} {first last : Date}
    (occurs : season.occurrence? year = some (first, last)) : last.year ≤ year + 1 := by
  have lastYear := (occurrence?_years occurs).2
  -- Only a season that wraps goes on in the next year.
  split at lastYear <;> omega

/-- What lies ahead of a later date lies ahead of an earlier one too, by as many years more. -/
theorem occurrenceAhead?_of_later_iff {season : Season} {start later : Date} {range : DateRange}
    {apart : Nat} (after : start ≤ later) (years : later.year = start.year + apart) (ahead : Nat) :
    season.occurrenceAhead? later ahead = some range ↔
      season.occurrenceAhead? start (apart + ahead) = some range ∧ later ≤ range.last := by
  -- Both count to the same year, and the occurrence has to go on until the later date.
  have sameYear : later.year - 1 + ahead = start.year - 1 + (apart + ahead : Nat) := by omega
  rw [occurrenceAhead?_eq_some_iff, occurrenceAhead?_eq_some_iff, sameYear]
  constructor
  · rintro ⟨occurs, lasting⟩
    exact ⟨⟨occurs, Int.le_trans after lasting⟩, lasting⟩
  · rintro ⟨⟨occurs, -⟩, lasting⟩
    exact ⟨occurs, lasting⟩

/-- An occurrence that is searched from a date on is so from every later date up to its end. -/
theorem mem_searchedOccurrences_of_later {season : Season} {start later : Date} {range : DateRange}
    (after : start ≤ later) (lasting : later ≤ range.last)
    (member : range ∈ (season.occurrencesFrom start).take searchedOccurrences) :
    range ∈ (season.occurrencesFrom later).take searchedOccurrences := by
  obtain ⟨ahead, near, found, few⟩ := mem_searchedOccurrences_iff.mp member
  have occurs := (occurrenceAhead?_eq_some_iff.mp found).1
  -- It ends in the year of the later date at the earliest, so it begins at most one year before.
  have notEarlier := Date.year_le_of_le after
  have notOver := Date.year_le_of_le lasting
  have ending := last_year_le occurs
  obtain ⟨apart, years⟩ : ∃ apart : Nat, later.year = start.year + apart :=
    ⟨(later.year - start.year).toNat, by omega⟩
  obtain ⟨further, rfl⟩ : ∃ further, ahead = apart + further := ⟨ahead - apart, by omega⟩
  have foundToo := (occurrenceAhead?_of_later_iff after years further).mpr ⟨found, lasting⟩
  refine mem_searchedOccurrences_iff.mpr ⟨further, by omega, foundToo, ?_⟩
  -- The occurrences in front of it that lie ahead of the later date lie ahead of the start too.
  calc (List.range further).countP (fun earlier => (season.occurrenceAhead? later earlier).isSome)
    _ ≤ (List.range further).countP
        (fun earlier => (season.occurrenceAhead? start (apart + earlier)).isSome) := by
      refine List.countP_mono_left fun earlier _ there => ?_
      obtain ⟨other, lies⟩ := Option.isSome_iff_exists.mp there
      rw [((occurrenceAhead?_of_later_iff after years earlier).mp lies).1]
      rfl
    _ ≤ (List.range (apart + further)).countP
        (fun earlier => (season.occurrenceAhead? start earlier).isSome) := by
      rw [List.range_add, List.countP_append, List.countP_map]
      exact Nat.le_add_left _ _
    _ < searchedOccurrences := few

end Season

namespace WeeklyRule

/-- From a later day on the search of a rule starts later, but on no date behind both of them. -/
theorem yearBounds?_of_later {rule : WeeklyRule} {today later start : Date} {bound : Option Date}
    (after : today ≤ later) (bounded : rule.yearBounds? today = some (start, bound)) :
    ∃ restart, rule.yearBounds? later = some (restart, bound) ∧ start ≤ restart ∧
      ∀ date, later ≤ date → start ≤ date → restart ≤ date := by
  obtain ⟨opening, closing, always, -⟩ := rule.exists_yearLimits
  cases (always today).symm.trans bounded
  refine ⟨_, always later, ?_⟩
  -- The first day of the years, if they have one, stays where it is.
  cases opening with
  | none => exact ⟨after, fun date notBefore _ => notBefore⟩
  | some first =>
    obtain ⟨notBefore, begun⟩ := laterDate_le_iff.mp (Int.le_refl (laterDate later first).number)
    exact ⟨laterDate_le_iff.mpr ⟨Int.le_trans after notBefore, begun⟩, fun date notOver started =>
      laterDate_le_iff.mpr ⟨notOver, (laterDate_le_iff.mp started).2⟩⟩

/-- A date in an open range is in one of those from a later start on, up to that date. -/
theorem exists_openRange_of_later {rule : WeeklyRule} {start later date : Date}
    (after : start ≤ later) (notBefore : later ≤ date) (early : date.year ≤ 262140)
    (inRange : ∃ range ∈ rule.openRanges start, range.first ≤ date ∧ date ≤ range.last) :
    ∃ range ∈ rule.openRanges later, range.first ≤ date ∧ date ≤ range.last := by
  obtain ⟨range, listed, begun, running⟩ := inRange
  unfold openRanges at listed ⊢
  cases limited : rule.season with
  | none =>
    -- The days ahead of the later start go further.
    simp only [limited, Option.mem_toList, Option.map_eq_some_iff] at listed
    obtain ⟨untilEnd, counted, rfl⟩ := listed
    have number := Date.addDays?_eq_some_iff.mp counted
    have yearOrder := Date.year_le_of_le notBefore
    obtain ⟨horizon, found, further⟩ := exists_horizon (show later.year ≤ 262140 by omega)
    simp only [found, Option.map_some, Option.toList_some, List.mem_singleton, exists_eq_left]
    refine ⟨notBefore, ?_⟩
    simp only [Date.le_iff_number, searchDays] at *
    omega
  | some season =>
    -- The occurrence with the date in it is searched from the later start on as well.
    rw [limited] at listed
    obtain ⟨occurrence, searched, rfl⟩ := List.mem_map.mp listed
    have lasting : later ≤ occurrence.last := Int.le_trans notBefore running
    have searchedToo := Season.mem_searchedOccurrences_of_later after lasting searched
    exact ⟨_, List.mem_map.mpr ⟨occurrence, searchedToo, rfl⟩,
      laterDate_le_iff.mpr ⟨(laterDate_le_iff.mp begun).1, notBefore⟩, running⟩

/-- A date on which a rule is searched stays searched until it comes. -/
theorem Searches.of_later {rule : WeeklyRule} {today later date : Date}
    (searched : rule.Searches today date) (after : today ≤ later) (notBefore : later ≤ date)
    (early : date.year ≤ 262140) : rule.Searches later date := by
  obtain ⟨start, bound, bounded, within, range, listed, begun, running⟩ := searches_iff.mp searched
  obtain ⟨restart, boundedToo, ordered, least⟩ := yearBounds?_of_later after bounded
  -- The search has started by that date, as the range in question has begun.
  have notYet := least date notBefore (Int.le_trans (le_first_of_mem_openRanges listed) begun)
  exact searches_iff.mpr ⟨restart, bound, boundedToo, within,
    exists_openRange_of_later ordered notYet early ⟨range, listed, begun, running⟩⟩

end WeeklyRule

namespace Hours

/-- An opening found for a date is found there until it comes. -/
theorem openingAfter?_of_later {hours : Hours} {now later opening : LocalTime} {date : Date}
    (found : hours.openingAfter? now date = some opening)
    (after : now.minuteRank ≤ later.minuteRank) (before : later.minuteRank < opening.minuteRank) :
    later.date ≤ date ∧ hours.openingAfter? later date = some opening := by
  unfold openingAfter? openingOn? at *
  obtain ⟨time, first, placed⟩ := Option.bind_eq_some_iff.mp found
  obtain ⟨fromStart, opens, least⟩ := openingFrom?_spec first
  have rank := (LocalTime.at?_spec placed).2
  have ending := time.minutes_le
  unfold LocalTime.minuteRank at rank before
  have notOver : later.date ≤ date := by
    rw [Date.le_iff_number]
    omega
  have order := Date.le_iff_number.mp (LocalTime.date_le_of_minuteRank_le after)
  refine ⟨notOver, Option.bind_eq_some_iff.mpr ⟨time, openingFrom?_eq_some_iff.mpr ?_, placed⟩⟩
  by_cases today : date = later.date
  · -- On the later day itself the search starts later than before, but not behind the opening.
    rw [if_pos today]
    subst today
    refine ⟨?_, opens, fun other afterStart => least other ?_⟩
    · rw [DayTime.le_iff_minutes]
      omega
    · exact Nat.le_trans (searchStart_le after) afterStart
  · -- Any date behind both days is searched from its beginning.
    have different : date ≠ now.date := by
      rintro rfl
      exact today (Date.eq_of_number (Int.le_antisymm order notOver))
    rw [if_neg different] at fromStart least
    rw [if_neg today]
    exact ⟨fromStart, opens, least⟩

end Hours

namespace Timetable

/-- A candidate stays one until its minute comes, away from the end of the calendar. -/
theorem mem_candidates_of_later {timetable : Timetable} {now later opening : LocalTime}
    (member : opening ∈ timetable.candidates now) (early : opening.date.year ≤ 262140)
    (after : now.minuteRank ≤ later.minuteRank) (before : later.minuteRank < opening.minuteRank) :
    opening ∈ timetable.candidates later := by
  rcases mem_candidates_iff.mp member with
    ⟨proposed, outside, working⟩ | ⟨date, hours, ruled, -, found⟩
  · -- The rule that proposes it is searched on its date from the later day on as well.
    obtain ⟨rule, listed, proposes⟩ := mem_proposals.mp proposed
    obtain ⟨date, searched, applies, found⟩ := WeeklyRule.mem_proposals.mp proposes
    obtain ⟨notOver, foundToo⟩ := Hours.openingAfter?_of_later found after before
    have year := Date.year_le_of_le (Hours.date_le_of_openingAfter? found)
    have searchedToo :=
      searched.of_later (LocalTime.date_le_of_minuteRank_le after) notOver (by omega)
    have proposesToo := WeeklyRule.mem_proposals.mpr ⟨date, searchedToo, applies, foundToo⟩
    exact mem_candidates_iff.mpr
      (.inl ⟨mem_proposals.mpr ⟨rule, listed, proposesToo⟩, outside, working⟩)
  · -- The hours of a holiday do not depend on when the question is asked.
    obtain ⟨notOver, foundToo⟩ := Hours.openingAfter?_of_later found after before
    exact mem_candidates_iff.mpr (.inr ⟨date, hours, ruled, notOver, foundToo⟩)

/-- An opening that is found stays in reach of every question asked in front of it. -/
theorem exists_firstOpening?_of_found {timetable : Timetable} {time later opening : LocalTime}
    (found : timetable.firstOpening? time.startOfMinute = some opening)
    (early : opening.date.year ≤ 262140) (after : time ≤ later) (before : later < opening) :
    ∃ sooner, timetable.firstOpening? later.startOfMinute = some sooner ∧ sooner ≤ opening := by
  obtain ⟨⟨member, -, opens⟩, -⟩ := firstOpening?_eq_some_iff.mp found
  have whole := isWholeMinute_of_mem_candidates member
  -- Leaving out the seconds of both questions changes nothing about their order.
  have memberToo : opening ∈ timetable.candidates later.startOfMinute := by
    refine mem_candidates_of_later member early ?_ ?_
    · simpa using LocalTime.minuteRank_le_of_le after
    · simpa using (LocalTime.lt_iff_minuteRank whole).mp before
  have notBehind : later.startOfMinute ≤ opening :=
    Std.le_trans later.startOfMinute_le (LocalTime.le_of_lt before)
  exact exists_firstOpening?_le memberToo notBehind opens

end Timetable

/--
A question asked later, but not behind the answer, is answered no later than before.

Only answers in the last two years of the calendar are not covered.
-/
theorem nextOpen_keeps_opening {timetable : Timetable} {time answer later : LocalTime}
    (found : (Reckoning.wallClock.nextOpen timetable time).value = .ok (some answer))
    (early : answer.date.year ≤ 262140) (after : time ≤ later) (before : later ≤ answer) :
    ∃ sooner, (Reckoning.wallClock.nextOpen timetable later).value = .ok (some sooner) ∧
      later ≤ sooner ∧ sooner ≤ answer := by
  simp only [Reckoning.nextOpen_wallClock, Except.ok.injEq] at *
  cases state : timetable.isOpenAt later with
  | true =>
    -- An open time is its own answer.
    exact ⟨later, Timetable.nextOpen?_of_isOpenAt state, Std.le_refl _, before⟩
  | false =>
    unfold Timetable.nextOpen? at found ⊢
    split at found
    · -- An open time that is its own answer leaves no room for another one.
      rename_i opens
      cases found
      rw [Std.le_antisymm before after, opens] at state
      contradiction
    · -- The answer is open, so the later question is still in front of it.
      have opens := (Timetable.firstOpening?_eq_some_iff.mp found).1.2.2
      have different : later.rank ≠ answer.rank := by
        intro same
        rw [LocalTime.eq_of_rank same, opens] at state
        contradiction
      have notYet : later < answer := by
        rw [LocalTime.le_iff_rank] at before
        rw [LocalTime.lt_iff_rank]
        omega
      obtain ⟨sooner, foundToo, order⟩ :=
        Timetable.exists_firstOpening?_of_found found early after notYet
      obtain ⟨-, behind, -⟩ := Timetable.firstOpening?_spec state foundToo
      refine ⟨sooner, ?_, LocalTime.le_of_lt behind, order⟩
      rw [state, if_neg Bool.false_ne_true, foundToo]

/-- Asked a year later, more first days of January are searched, and the answer may come sooner. -/
theorem nextOpen_keeps_opening_newYear :
    let nextJune : LocalTime := ⟨⟨738306, by decide, by decide⟩, .midnight⟩
    NewYearMondays.june ≤ nextJune ∧ nextJune ≤ NewYearMondays.tuesday ∧
      ∃ sooner, (Reckoning.wallClock.nextOpen NewYearMondays.timetable nextJune).value =
          .ok (some sooner) ∧
        nextJune ≤ sooner ∧ sooner ≤ NewYearMondays.tuesday := by
  intro nextJune
  have between : NewYearMondays.june ≤ nextJune ∧ nextJune ≤ NewYearMondays.tuesday := by
    decide +kernel
  have early : NewYearMondays.tuesday.date.year ≤ 262140 := by decide +kernel
  exact ⟨between.1, between.2,
    nextOpen_keeps_opening NewYearMondays.nextOpen_june early between.1 between.2⟩

end OpeningTimes
