import OpeningTimes.Proofs.Timetable.NextOpening

/-! Every answer is an open time that is not in the past, and it is the answer about itself. -/

namespace OpeningTimes

namespace Timetable

/--
An answer repeats an open time, or it is an opening behind a closed one.

In the second case no time of the same minute is open, and the opening is a later whole minute.
-/
theorem nextOpen?_cases {timetable : Timetable} {time answer : LocalTime}
    (found : timetable.nextOpen? time = some answer) :
    (timetable.isOpenAt time = true ∧ answer = time) ∨
      (timetable.isOpenAt time = false ∧ answer.IsWholeMinute ∧ time < answer ∧
        timetable.isOpenAt answer = true) := by
  unfold nextOpen? at found
  -- Only a closed time leads to a search.
  split at found
  · rename_i opens
    cases found
    exact .inl ⟨opens, rfl⟩
  · rename_i shut
    rw [Bool.not_eq_true] at shut
    exact .inr ⟨shut, firstOpening?_spec shut found⟩

/-- An open time is the answer about itself. -/
theorem nextOpen?_of_isOpenAt {timetable : Timetable} {time : LocalTime}
    (opens : timetable.isOpenAt time = true) : timetable.nextOpen? time = some time := by
  rw [nextOpen?, if_pos opens]

/-- An answer is not behind an open time that is reached. -/
theorem exists_nextOpen?_of_reaches {timetable : Timetable} {time later : LocalTime}
    (after : time ≤ later) (opens : timetable.isOpenAt later = true)
    (reached : timetable.Reaches time.date later) :
    ∃ answer, timetable.nextOpen? time = some answer ∧ answer ≤ later := by
  cases state : timetable.isOpenAt time with
  | true => exact ⟨time, nextOpen?_of_isOpenAt state, after⟩
  | false =>
    -- A closed time is answered by the first opening.
    rw [nextOpen?, state, if_neg Bool.false_ne_true]
    exact exists_firstOpening?_of_later after opens reached

/-- Times of the same minute are open together. -/
theorem isOpenAt_eq_of_startOfMinute {timetable : Timetable} {left right : LocalTime}
    (same : left.startOfMinute = right.startOfMinute) :
    timetable.isOpenAt left = timetable.isOpenAt right := by
  rw [← isOpenAt_startOfMinute timetable left, same, isOpenAt_startOfMinute]

end Timetable

/--
An answer is open, it is not in the past, and asking about it gives it back.

It is the time in question exactly when that time is open.
Otherwise the minute of that time is closed, and the answer is a whole minute behind it.
-/
theorem nextOpen_sound {timetable : Timetable} {time answer : LocalTime}
    (found : (Reckoning.wallClock.nextOpen timetable time).value = .ok (some answer)) :
    time ≤ answer ∧ Reckoning.wallClock.isOpenAt timetable answer = .ok true ∧
      (answer = time ↔ Reckoning.wallClock.isOpenAt timetable time = .ok true) ∧
      (answer ≠ time → answer.IsWholeMinute ∧ time < answer ∧
        ∀ other : LocalTime, other.startOfMinute = time.startOfMinute →
          Reckoning.wallClock.isOpenAt timetable other = .ok false) ∧
      (Reckoning.wallClock.nextOpen timetable answer).value = .ok (some answer) := by
  rw [Reckoning.nextOpen_wallClock, Except.ok.injEq] at found
  simp only [Reckoning.nextOpen_wallClock, Reckoning.isOpenAt_wallClock, Except.ok.injEq]
  rcases Timetable.nextOpen?_cases found with ⟨opens, rfl⟩ | ⟨shut, whole, later, opens⟩
  · -- An open time is its own answer.
    refine ⟨Std.le_refl _, opens, ⟨fun _ => opens, fun _ => rfl⟩, ?_, found⟩
    intro different
    exact absurd rfl different
  · -- The answer is open and the time is not, so they differ.
    have different : answer ≠ time := by
      intro same
      rw [same, shut] at opens
      contradiction
    refine ⟨LocalTime.le_of_lt later, opens, ?_, ?_, Timetable.nextOpen?_of_isOpenAt opens⟩
    · rw [shut]
      exact ⟨fun same => absurd same different, fun impossible => nomatch impossible⟩
    · intro _
      refine ⟨whole, later, fun other same => ?_⟩
      rw [Timetable.isOpenAt_eq_of_startOfMinute same, shut]

/-- In the leap second that ends the last day but one, the answer begins the last day. -/
theorem nextOpen_sound_lastDay :
    let hours : Hours := ⟨.dayStart, ⟨120, by decide⟩⟩
    let yearEnd : Season := ⟨.lastOf .december, .lastOf .december⟩
    let timetable : Timetable := ⟨⟨[.weekly ⟨.monday, hours, some yearEnd, none⟩]⟩, .empty⟩
    let time : LocalTime :=
      ⟨⟨latestDay - 1, by decide, by decide⟩, ⟨86399, 1500000000, by decide, by decide⟩⟩
    let answer : LocalTime := ⟨⟨latestDay, by decide, by decide⟩, .midnight⟩
    (Reckoning.wallClock.nextOpen timetable time).value = .ok (some answer) ∧
      time ≤ answer ∧ Reckoning.wallClock.isOpenAt timetable answer = .ok true ∧
      (Reckoning.wallClock.nextOpen timetable answer).value = .ok (some answer) := by
  intro hours yearEnd timetable time answer
  have found : (Reckoning.wallClock.nextOpen timetable time).value = .ok (some answer) := by
    rw [Reckoning.nextOpen_wallClock]
    exact congrArg Except.ok (by decide +kernel)
  obtain ⟨notBefore, opens, -, -, again⟩ := nextOpen_sound found
  exact ⟨found, notBefore, opens, again⟩

end OpeningTimes
