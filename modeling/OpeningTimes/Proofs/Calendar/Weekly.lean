import OpeningTimes.Calendar.Date

/-!
Going from week to week finds every date of a weekday.

One step keeps the weekday and passes over no date that falls on it.
A run therefore finds all of them in order, until it reaches its bound or leaves the calendar.
-/

namespace OpeningTimes

namespace Date

variable {date first last next later : Date} {day : Weekday}

/-- The weekday of a date is told by the remainder of its number. -/
theorem weekday_index (date : Date) : (date.weekday.index : Int) = date.number % 7 := by
  unfold weekday
  rw [Weekday.index_ofIndex]
  omega

/-- The weekday of a date is the one whose index the number leaves. -/
theorem weekday_eq_iff : date.weekday = day ↔ (day.index : Int) = date.number % 7 := by
  rw [← weekday_index]
  constructor
  · rintro rfl
    rfl
  · -- Weekdays are told apart by their indices.
    intro same
    rw [← Weekday.ofIndex_index date.weekday, ← Weekday.ofIndex_index day, Int.ofNat_inj.mp same]

/-- The next date on a weekday is the one within a week. -/
theorem nextOn?_eq_some_iff : date.nextOn? day = some next ↔
    date ≤ next ∧ next.number < date.number + 7 ∧ next.weekday = day := by
  have index : (day.index : Int) < 7 := by cases day <;> decide
  unfold nextOn?
  rw [addDays?_eq_some_iff, Weekday.toNat_daysUntil, weekday_index, weekday_eq_iff, le_iff_number]
  omega

/-- The weekday of a later date comes no later than on that date. -/
theorem exists_nextOn? (ordered : date ≤ later) :
    ∃ next, date.nextOn? later.weekday = some next ∧ next ≤ later := by
  rw [le_iff_number] at ordered
  have earliest := date.earliest_le
  have latest := later.le_latest
  -- Whole weeks before the later date, it is the weekday for the first time.
  let next : Date := ⟨later.number - (later.number - date.number) / 7 * 7, by omega, by omega⟩
  have number : next.number = later.number - (later.number - date.number) / 7 * 7 := rfl
  refine ⟨next, nextOn?_eq_some_iff.mpr ⟨?_, ?_, ?_⟩, ?_⟩
  · rw [le_iff_number]
    omega
  · omega
  · rw [weekday_eq_iff, weekday_index]
    omega
  · rw [le_iff_number]
    omega

/--
From a date on, its weekday comes on that date and then from a week later on.

Where no week is left in the calendar, the weekday does not come again.
-/
theorem onward_iff_step (first date : Date) : first ≤ date ∧ date.weekday = first.weekday ↔
    date = first ∨ ∃ later, first.weekLater? = some later ∧
      later ≤ date ∧ date.weekday = later.weekday := by
  simp only [weekLater?, addDays?_eq_some_iff, weekday_eq_iff, weekday_index, le_iff_number]
  constructor
  · rintro ⟨ordered, sameDay⟩
    by_cases same : date.number = first.number
    · exact .inl (eq_of_number same)
    · -- Another date of the weekday is at least a week ahead, so a week is left.
      have earliest := first.earliest_le
      have latest := date.le_latest
      let later : Date := ⟨first.number + 7, by omega, by omega⟩
      have number : later.number = first.number + 7 := rfl
      exact .inr ⟨later, number, by omega, by omega⟩
  · rintro (rfl | ⟨later, number, ordered, sameDay⟩)
    · exact ⟨Int.le_refl _, rfl⟩
    · omega

/-- A run from week to week finds the dates of the weekday from its start up to the bound, and no other. -/
theorem mem_weeklyUntil {start : Option Date} : date ∈ weeklyUntil last start ↔
    ∃ first, start = some first ∧
      (first ≤ date ∧ date.weekday = first.weekday) ∧ date ≤ last := by
  fun_induction weeklyUntil last start with
  | case1 =>
    -- Behind the end of the calendar there is no date.
    simp only [List.not_mem_nil, reduceCtorEq, false_and, exists_false]
  | case2 first within ih =>
    -- The run finds its start, and the rest of it begins a week later.
    simp only [List.mem_cons, ih, Option.some.injEq, exists_eq_left', onward_iff_step first]
    constructor
    · rintro (rfl | ⟨later, found, onward, bounded⟩)
      · exact ⟨.inl rfl, within⟩
      · exact ⟨.inr ⟨later, found, onward⟩, bounded⟩
    · rintro ⟨rfl | ⟨later, found, onward⟩, bounded⟩
      · exact .inl rfl
      · exact .inr ⟨later, found, onward, bounded⟩
  | case3 first beyond =>
    -- Whatever comes from a start behind the bound on is behind it as well.
    simp only [List.not_mem_nil, false_iff, Option.some.injEq, exists_eq_left']
    rintro ⟨⟨ordered, -⟩, bounded⟩
    exact beyond (Int.le_trans ordered bounded)

/-- A run from week to week finds its dates one after the other. -/
theorem pairwise_weeklyUntil (last : Date) (start : Option Date) :
    (weeklyUntil last start).Pairwise (· < ·) := by
  fun_induction weeklyUntil last start with
  | case1 => exact .nil
  | case2 first within ih =>
    refine List.pairwise_cons.mpr ⟨fun date found => ?_, ih⟩
    -- The rest of the run begins a week later.
    obtain ⟨later, step, ⟨ordered, -⟩, -⟩ := mem_weeklyUntil.mp found
    have number := addDays?_eq_some_iff.mp step
    rw [le_iff_number] at ordered
    rw [lt_iff_number]
    omega
  | case3 => exact .nil

/-- Going from week to week finds the dates of a weekday between two dates and no other. -/
theorem mem_onWeekday :
    date ∈ onWeekday day first last ↔ first ≤ date ∧ date ≤ last ∧ date.weekday = day := by
  unfold onWeekday
  rw [mem_weeklyUntil]
  constructor
  · rintro ⟨next, found, ⟨ordered, sameDay⟩, bounded⟩
    obtain ⟨fromFirst, -, onDay⟩ := nextOn?_eq_some_iff.mp found
    exact ⟨Int.le_trans fromFirst ordered, bounded, sameDay.trans onDay⟩
  · -- The weekday comes no later than on the date itself, and from then on week by week.
    rintro ⟨ordered, bounded, rfl⟩
    obtain ⟨next, found, notLater⟩ := exists_nextOn? ordered
    exact ⟨next, found, ⟨notLater, (nextOn?_eq_some_iff.mp found).2.2.symm⟩, bounded⟩

/--
The dates of a weekday between two dates come in increasing order, each of them once.

They are all of them, up to the last supported date, and none when the first date is after the last.
-/
theorem onWeekday_exact (day : Weekday) (first last : Date) :
    (onWeekday day first last).Pairwise (· < ·) ∧
      ∀ date, date ∈ onWeekday day first last ↔
        first ≤ date ∧ date ≤ last ∧ date.weekday = day :=
  ⟨pairwise_weeklyUntil _ _, fun _ => mem_onWeekday⟩

/-- The last supported date is found on its weekday, and the week behind it ends the run. -/
example : (ofNumber? latestDay).map (fun last =>
      ((last.addDays? (-10)).toList.flatMap fun first => onWeekday .monday first last).map text) =
    some ["+262142-12-24".toList, "+262142-12-31".toList] := by
  decide +kernel

end Date

end OpeningTimes
