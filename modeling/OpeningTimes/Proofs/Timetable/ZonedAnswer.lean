import OpeningTimes.Proofs.Timetable.Soundness
import OpeningTimes.Proofs.Zone.Readings

/-!
Answers about instants of a zone, whose clocks may be set back or forward.

Setting them back can put an answer into the past, and setting them forward can make it closed.
-/

namespace OpeningTimes

namespace Reckoning

variable {Moment : Type} {reckoning : Reckoning Moment} {timetable : Timetable}
  {moment answer : Moment}

/--
An answer repeats an open moment, or it is what the answer about the local time stands for.

The moment is read on the clock first, and only a closed one leads to an opening.
-/
theorem nextOpen_eq_some_iff :
    (reckoning.nextOpen timetable moment).value = .ok (some answer) ↔
      ∃ now, reckoning.reading? moment = some now ∧
        ((timetable.isOpenAt now = true ∧ answer = moment) ∨
          (timetable.isOpenAt now = false ∧ ∃ opening, timetable.nextOpen? now = some opening ∧
            (reckoning.resolve opening).value = some answer)) := by
  unfold nextOpen
  cases reckoning.reading? moment with
  | none => simp
  | some now =>
    cases opens : timetable.isOpenAt now with
    | true =>
      simp only [Option.some.injEq, exists_eq_left', opens]
      simp [eq_comm]
    | false =>
      -- The opening of the search is the answer about the local time.
      have searched : timetable.nextOpen? now = timetable.firstOpening? now.startOfMinute := by
        simp [Timetable.nextOpen?, opens]
      simp only [Option.some.injEq, exists_eq_left', opens, Timetable.search, searched]
      cases timetable.firstOpening? now.startOfMinute with
      | none => simp
      | some opening => cases resolved : (reckoning.resolve opening).value <;> simp [resolved]

end Reckoning

/--
The answer about a closed instant belongs to the opening that its local time leads to.

It is the first instant at which clocks show that opening, or the next minute that they show at all.
Where they skip a whole day it is the opening as universal time.
-/
theorem nextOpen_inZone_cases {zone : Zone} {timetable : Timetable} {moment answer : Instant}
    (found : ((Reckoning.inZone zone).nextOpen timetable moment).value = .ok (some answer)) :
    ∃ now, moment.readingIn? zone = some now ∧
      ((timetable.isOpenAt now = true ∧ answer = moment) ∨
        (timetable.isOpenAt now = false ∧ ∃ opening, timetable.nextOpen? now = some opening ∧
          opening.IsWholeMinute ∧ now < opening ∧ timetable.isOpenAt opening = true ∧
            ((∃ shown, zone.ShowsFirst opening shown ∧ opening ≤ shown ∧
                zone.earliest? shown = some answer) ∨
              (zone.SkipsMinutes opening (Zone.longestGap + 1) ∧ answer = ⟨opening, zone⟩)))) := by
  obtain ⟨now, shown, repeated | ⟨shut, opening, next, resolved⟩⟩ :=
    Reckoning.nextOpen_eq_some_iff.mp found
  · exact ⟨now, shown, .inl repeated⟩
  · refine ⟨now, shown, .inr ⟨shut, opening, next, ?_⟩⟩
    rcases Timetable.nextOpen?_cases next with ⟨opens, -⟩ | ⟨-, whole, later, opens⟩
    · rw [shut] at opens
      contradiction
    · -- The opening is a whole minute, from which the search behind a gap counts on.
      have plain := whole.nanosecond_lt
      refine ⟨whole, later, opens, ?_⟩
      rcases Zone.resolve_cases plain resolved with ⟨first, showsFirst, earliest⟩ | skips
      · exact .inl ⟨first, showsFirst, showsFirst.le plain, earliest⟩
      · exact .inr skips

/--
An answer is in the past exactly when clocks have shown the local time of its opening before.

That local time is later than the one in question, so the clocks were set back in the meantime.
Behind a gap of more than a day the opening counts as universal time, which may have passed.
-/
theorem nextOpen_inZone_past_iff {zone : Zone} {timetable : Timetable} {moment answer : Instant}
    (found : ((Reckoning.inZone zone).nextOpen timetable moment).value = .ok (some answer)) :
    answer.universal < moment.universal ↔
      ∃ now opening, moment.readingIn? zone = some now ∧ timetable.isOpenAt now = false ∧
        timetable.nextOpen? now = some opening ∧
          ((∃ shown, zone.ShowsFirst opening shown ∧ now < shown ∧
              ∃ earlier : Instant, earlier.readingIn? zone = some shown ∧
                earlier.universal < moment.universal) ∨
            (zone.SkipsMinutes opening (Zone.longestGap + 1) ∧ opening < moment.universal)) := by
  obtain ⟨now, shownNow, ⟨opens, rfl⟩ | ⟨shut, opening, next, -, later, -, stands⟩⟩ :=
    nextOpen_inZone_cases found
  · -- An open instant is its own answer, and it is not closed.
    constructor
    · intro past
      exact absurd past (Int.lt_irrefl _)
    · rintro ⟨_, _, shownToo, shut, -⟩
      rw [shownNow, Option.some.injEq] at shownToo
      rw [← shownToo, opens] at shut
      contradiction
  constructor
  · intro past
    refine ⟨now, opening, shownNow, shut, next, ?_⟩
    rcases stands with ⟨shown, showsFirst, notBefore, earliest⟩ | ⟨skips, rfl⟩
    · -- The answer itself is the earlier instant that shows its local time.
      have reads := (Zone.earliest?_spec earliest).2.1
      exact .inl ⟨shown, showsFirst, Int.lt_of_lt_of_le later notBefore, answer, reads, past⟩
    · exact .inr ⟨skips, past⟩
  · rintro ⟨_, _, shownToo, -, nextToo, sooner⟩
    cases shownNow.symm.trans shownToo
    cases next.symm.trans nextToo
    rcases stands with ⟨shown, showsFirst, -, earliest⟩ | ⟨skips, rfl⟩
    · rcases sooner with ⟨_, showsToo, -, earlier, reads, past⟩ | ⟨skips, -⟩
      · -- The answer is no later than any instant with the same local time.
        cases showsFirst.unique showsToo
        have least := (Zone.earliest?_spec earliest).2.2 earlier reads
        exact Int.lt_of_le_of_lt least past
      · exact absurd showsFirst skips.not_showsFirst
    · rcases sooner with ⟨_, showsToo, -⟩ | ⟨-, past⟩
      · exact absurd showsToo skips.not_showsFirst
      · exact past

namespace EarlySundays

/-- The clocks of London in the year 2021, on summer time from March to October. -/
def london : Zone :=
  ⟨"London".toList, ⟨0, some "GMT".toList⟩,
    [⟨1616893200, ⟨3600, some "BST".toList⟩⟩, ⟨1635642000, ⟨0, some "GMT".toList⟩⟩]⟩

/-- Every Sunday from 01:15 to 01:45, which clocks skip in March and show twice in October. -/
def timetable : Timetable :=
  ⟨⟨[.weekly ⟨.sunday, ⟨⟨75, by decide⟩, ⟨105, by decide⟩⟩, none, none⟩]⟩, .empty⟩

/-- The last day of October at 01:00, when clocks have just been set back to 01:00. -/
def setBack : Instant :=
  ⟨⟨⟨738093, by decide, by decide⟩,
    ⟨3600, 0, by decide, ClockTime.midnight.nanosecond_lt⟩⟩, london⟩

/-- The opening of that day. -/
def autumnOpening : LocalTime :=
  ⟨⟨738093, by decide, by decide⟩, ⟨4500, 0, by decide, ClockTime.midnight.nanosecond_lt⟩⟩

/-- The same day at 00:15, when clocks show the opening for the first time. -/
def firstShown : Instant :=
  ⟨⟨⟨738093, by decide, by decide⟩,
    ⟨900, 0, by decide, ClockTime.midnight.nanosecond_lt⟩⟩, london⟩

/-- Clocks show 01:00, the opening follows, and it was first shown in the past. -/
theorem setBack_facts :
    setBack.readingIn? london = some setBack.universal ∧
      timetable.isOpenAt setBack.universal = false ∧
      timetable.nextOpen? setBack.universal = some autumnOpening ∧
      setBack.universal < autumnOpening ∧ autumnOpening.clock.nanosecond < nanosPerSecond ∧
      london.earliest? autumnOpening = some firstShown ∧
      firstShown.universal < setBack.universal := by
  decide +kernel

/-- The opening is taken for the first time that clocks show it. -/
theorem nextOpen_setBack :
    ((Reckoning.inZone london).nextOpen timetable setBack).value = .ok (some firstShown) := by
  obtain ⟨reads, shut, next, -, -, earliest, -⟩ := setBack_facts
  rw [Reckoning.nextOpen_eq_some_iff]
  exact ⟨_, reads, .inr ⟨shut, autumnOpening, next, Zone.resolve_of_earliest? earliest⟩⟩

/-- Clocks show the opening at an instant that is supported. -/
theorem shows_autumnOpening : london.Shows autumnOpening := by
  obtain ⟨-, -, -, -, -, earliest, -⟩ := setBack_facts
  exact Zone.exists_earliest?_iff.mp ⟨firstShown, earliest⟩

end EarlySundays

/-- The opening is found behind the hour that has just been repeated, so the answer has passed. -/
theorem nextOpen_inZone_past_iff_setBack :
    ((Reckoning.inZone EarlySundays.london).nextOpen EarlySundays.timetable
        EarlySundays.setBack).value = .ok (some EarlySundays.firstShown) ∧
      EarlySundays.firstShown.universal < EarlySundays.setBack.universal := by
  obtain ⟨reads, shut, next, later, plain, earliest, past⟩ := EarlySundays.setBack_facts
  have showsFirst := EarlySundays.shows_autumnOpening.showsFirst plain
  have shownBefore := (Zone.earliest?_spec earliest).2.1
  refine ⟨EarlySundays.nextOpen_setBack, ?_⟩
  rw [nextOpen_inZone_past_iff EarlySundays.nextOpen_setBack]
  exact ⟨_, _, reads, shut, next, .inl ⟨_, showsFirst, later, _, shownBefore, past⟩⟩

/-- An answer may lie in the past. -/
theorem nextOpen_inZone_answers_past :
    ¬ ∀ (zone : Zone) (timetable : Timetable) (moment answer : Instant),
      ((Reckoning.inZone zone).nextOpen timetable moment).value = .ok (some answer) →
        moment.universal ≤ answer.universal := by
  intro always
  have notBefore := always _ _ _ _ EarlySundays.nextOpen_setBack
  obtain ⟨-, -, -, -, -, -, past⟩ := EarlySundays.setBack_facts
  exact absurd past (Int.not_lt.mpr notBefore)

/--
An answer is open exactly when the instant was, or clocks show its opening or an open time next.

Behind a gap of more than a day it is open when its own local time is.
-/
theorem nextOpen_inZone_open_iff {zone : Zone} {timetable : Timetable} {moment answer : Instant}
    (found : ((Reckoning.inZone zone).nextOpen timetable moment).value = .ok (some answer)) :
    (Reckoning.inZone zone).isOpenAt timetable answer = .ok true ↔
      ∃ now, moment.readingIn? zone = some now ∧
        (timetable.isOpenAt now = true ∨
          ∃ opening, timetable.nextOpen? now = some opening ∧
            (zone.Shows opening ∨
              (∃ shown, zone.ShowsFirst opening shown ∧ timetable.isOpenAt shown = true) ∨
              (zone.SkipsMinutes opening (Zone.longestGap + 1) ∧
                (Reckoning.inZone zone).isOpenAt timetable ⟨opening, zone⟩ = .ok true))) := by
  rw [Reckoning.isOpenAt_eq_true_iff]
  obtain ⟨now, shownNow, ⟨opens, rfl⟩ | ⟨shut, opening, next, whole, -, opens, stands⟩⟩ :=
    nextOpen_inZone_cases found
  · exact ⟨fun _ => ⟨now, shownNow, .inl opens⟩, fun _ => ⟨now, shownNow, opens⟩⟩
  constructor
  · rintro ⟨read, reads, opensRead⟩
    refine ⟨now, shownNow, .inr ⟨opening, next, .inr ?_⟩⟩
    rcases stands with ⟨shown, showsFirst, -, earliest⟩ | ⟨skips, rfl⟩
    · -- Clocks show the first such minute at the answer.
      cases reads.symm.trans (Zone.earliest?_spec earliest).2.1
      exact .inl ⟨read, showsFirst, opensRead⟩
    · exact .inr ⟨skips, Reckoning.isOpenAt_eq_true_iff.mpr ⟨read, reads, opensRead⟩⟩
  · rintro ⟨_, shownToo, opensNow | ⟨_, nextToo, reason⟩⟩
    · cases shownNow.symm.trans shownToo
      rw [shut] at opensNow
      contradiction
    cases shownNow.symm.trans shownToo
    cases next.symm.trans nextToo
    rcases stands with ⟨shown, showsFirst, -, earliest⟩ | ⟨skips, rfl⟩
    · -- The first such minute is open, be it the opening itself or another one.
      refine ⟨shown, (Zone.earliest?_spec earliest).2.1, ?_⟩
      rcases reason with shows | ⟨_, showsToo, opensShown⟩ | ⟨skips, -⟩
      · rw [showsFirst.unique (shows.showsFirst whole.nanosecond_lt)]
        exact opens
      · rw [showsFirst.unique showsToo]
        exact opensShown
      · exact absurd showsFirst skips.not_showsFirst
    · -- No minute of a whole day is shown.
      rcases reason with shows | ⟨_, showsToo, -⟩ | ⟨-, opensItself⟩
      · exact absurd (shows.showsFirst whole.nanosecond_lt) skips.not_showsFirst
      · exact absurd showsToo skips.not_showsFirst
      · exact Reckoning.isOpenAt_eq_true_iff.mp opensItself

namespace EarlySundays

/-- The noon in front of the Sunday on which clocks go forward. -/
def saturdayNoon : Instant :=
  ⟨⟨⟨737875, by decide, by decide⟩,
    ⟨43200, 0, by decide, ClockTime.midnight.nanosecond_lt⟩⟩, london⟩

/-- The opening of that Sunday, which clocks skip. -/
def springOpening : LocalTime :=
  ⟨⟨737876, by decide, by decide⟩, ⟨4500, 0, by decide, ClockTime.midnight.nanosecond_lt⟩⟩

/-- That Sunday at 01:00, when clocks go forward to 02:00. -/
def setForward : Instant :=
  ⟨⟨⟨737876, by decide, by decide⟩,
    ⟨3600, 0, by decide, ClockTime.midnight.nanosecond_lt⟩⟩, london⟩

/-- Clocks show 02:00 at that instant, which is behind closing time. -/
def endOfGap : LocalTime :=
  ⟨⟨737876, by decide, by decide⟩, ⟨7200, 0, by decide, ClockTime.midnight.nanosecond_lt⟩⟩

/-- The opening is skipped, and behind the gap it is past closing time. -/
theorem saturdayNoon_facts :
    saturdayNoon.readingIn? london = some saturdayNoon.universal ∧
      timetable.isOpenAt saturdayNoon.universal = false ∧
      timetable.nextOpen? saturdayNoon.universal = some springOpening ∧
      (london.resolve springOpening).value = some setForward ∧
      setForward.readingIn? london = some endOfGap ∧ timetable.isOpenAt endOfGap = false := by
  decide +kernel

/-- The answer is the end of the gap. -/
theorem nextOpen_saturdayNoon :
    ((Reckoning.inZone london).nextOpen timetable saturdayNoon).value =
      .ok (some setForward) := by
  obtain ⟨reads, shut, next, resolved, -⟩ := saturdayNoon_facts
  rw [Reckoning.nextOpen_eq_some_iff]
  exact ⟨_, reads, .inr ⟨shut, springOpening, next, resolved⟩⟩

end EarlySundays

/-- The answer that is over shows its opening, so it is an open instant. -/
theorem nextOpen_inZone_open_iff_setBack :
    ((Reckoning.inZone EarlySundays.london).nextOpen EarlySundays.timetable
        EarlySundays.setBack).value = .ok (some EarlySundays.firstShown) ∧
      (Reckoning.inZone EarlySundays.london).isOpenAt EarlySundays.timetable
        EarlySundays.firstShown = .ok true := by
  obtain ⟨reads, -, next, -⟩ := EarlySundays.setBack_facts
  refine ⟨EarlySundays.nextOpen_setBack, ?_⟩
  rw [nextOpen_inZone_open_iff EarlySundays.nextOpen_setBack]
  exact ⟨_, reads, .inr ⟨_, next, .inl EarlySundays.shows_autumnOpening⟩⟩

/-- An answer may be a closed instant. -/
theorem nextOpen_inZone_answers_closed :
    ¬ ∀ (zone : Zone) (timetable : Timetable) (moment answer : Instant),
      ((Reckoning.inZone zone).nextOpen timetable moment).value = .ok (some answer) →
        (Reckoning.inZone zone).isOpenAt timetable answer = .ok true := by
  intro always
  have opens := always _ _ _ _ EarlySundays.nextOpen_saturdayNoon
  obtain ⟨now, shown, opensNow⟩ := Reckoning.isOpenAt_eq_true_iff.mp opens
  obtain ⟨-, -, -, -, reads, shut⟩ := EarlySundays.saturdayNoon_facts
  cases shown.symm.trans reads
  rw [shut] at opensNow
  contradiction

end OpeningTimes
