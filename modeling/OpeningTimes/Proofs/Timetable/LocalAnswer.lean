import OpeningTimes.Proofs.Timetable.ZonedAnswer

/-!
Asked about an instant, a timetable answers as it does about what clocks show at it.

The answer about the local time is found again in the zone, as long as clocks show it there.
-/

namespace OpeningTimes

namespace Zone

variable {zone : Zone} {time : LocalTime}

/-- A local time leads to the instants that show it, from the first one to the last one. -/
def FindsReadings (zone : Zone) (time : LocalTime) : Prop :=
  match (zone.readings time).ends? with
  | none => ∀ instant : Instant, instant.readingIn? zone ≠ some time
  | some (first, last) => first.readingIn? zone = some time ∧ last.readingIn? zone = some time ∧
      ∀ instant : Instant, instant.readingIn? zone = some time →
        first.universal ≤ instant.universal ∧ instant.universal ≤ last.universal

/-- A local time that some instant shows has an earliest one. -/
theorem FindsReadings.exists_earliest? (finds : zone.FindsReadings time) {instant : Instant}
    (shown : instant.readingIn? zone = some time) :
    ∃ first, zone.earliest? time = some first := by
  unfold FindsReadings at finds
  rw [earliest?_eq_ends?]
  split at finds
  · exact absurd shown (finds instant)
  · rename_i first last found
    rw [found]
    exact ⟨first, rfl⟩

/-- Where all instants that show a local time are supported, it leads to them. -/
theorem findsReadings_of_supported (supported : ∀ timestamp,
    zone.ShowsAt time.timestamp timestamp →
      ∃ universal, LocalTime.ofTimestamp? timestamp = some universal) :
    zone.FindsReadings time := by
  unfold FindsReadings
  split
  · -- An instant that shows the time would have an earliest one in front of it.
    rename_i hidden
    intro instant shown
    have shownAt := (Instant.readingIn?_eq_some_iff.mp shown).1
    have missing : zone.earliest? time = none := by rw [earliest?_eq_ends?, hidden, Option.map_none]
    exact earliest?_eq_none_iff.mp missing ⟨⟨_, shownAt⟩, supported⟩
  · -- Every instant that shows the time does so under an offset between the extreme ones.
    rename_i first last found
    obtain ⟨ahead, behind, highest, lowest, started, ended⟩ := ends?_eq_some_iff.mp found
    obtain ⟨fits, most⟩ := List.max?_eq_some_iff.mp highest
    obtain ⟨fitsToo, least⟩ := List.min?_eq_some_iff.mp lowest
    refine ⟨reads_of_instantUnder? fits started, reads_of_instantUnder? fitsToo ended, ?_⟩
    intro instant shown
    obtain ⟨offset, member, under⟩ := exists_instantUnder?_of_reads shown
    exact ⟨(instantUnder?_le_iff started under).mpr (most offset member),
      (instantUnder?_le_iff under ended).mpr (least offset member)⟩

/-- Clocks that are less than a day off find all readings but those of the first and last date. -/
theorem findsReadings_of_within
    (short : ∀ offset ∈ zone.offsets, offset.seconds.natAbs < secondsPerDay)
    (after : earliestDay < time.date.number) (before : time.date.number < latestDay) :
    zone.FindsReadings time :=
  findsReadings_of_supported fun _ => (covers_of_within short after before).supported

end Zone

/-- An instant of a zone shows a local time, and no instant does so before it. -/
structure Instant.IsEarliest (instant : Instant) (zone : Zone) (time : LocalTime) : Prop where
  /-- The instant is given in the zone. -/
  home : instant.zone = zone
  /-- The clocks of the zone show the local time at it. -/
  reads : instant.readingIn? zone = some time
  /-- Other instants that show the local time do not precede it. -/
  first : ∀ other : Instant, other.readingIn? zone = some time →
    instant.universal ≤ other.universal

/-- No opening is found when there is none for the local time. -/
theorem Reckoning.nextOpen_eq_none_iff {Moment : Type} {reckoning : Reckoning Moment}
    {timetable : Timetable} {moment : Moment} :
    (reckoning.nextOpen timetable moment).value = .ok none ↔
      ∃ now, reckoning.reading? moment = some now ∧ timetable.nextOpen? now = none := by
  unfold nextOpen Timetable.nextOpen?
  cases reckoning.reading? moment with
  | none => simp
  | some now =>
    simp only [Option.some.injEq, exists_eq_left', Timetable.search]
    split
    · simp
    · -- An opening that is found leads to an instant or to a fault, but not to no answer.
      cases timetable.firstOpening? now.startOfMinute with
      | none => simp
      | some opening => cases resolved : (reckoning.resolve opening).value <;> simp [resolved]

/--
Instants are answered by what clocks show at them.

An opening that clocks show is answered by the first instant at which they do so. That instant is
open, so it is the answer about itself.
-/
theorem nextOpen_inZone_refines_wallClock {zone : Zone} {moment : Instant} {now : LocalTime}
    (timetable : Timetable) (shown : moment.readingIn? zone = some now) :
    (Reckoning.inZone zone).isOpenAt timetable moment =
        Reckoning.wallClock.isOpenAt timetable now ∧
    (((Reckoning.inZone zone).nextOpen timetable moment).value = .ok none ↔
      (Reckoning.wallClock.nextOpen timetable now).value = .ok none) ∧
    (Reckoning.wallClock.isOpenAt timetable now = .ok true →
      ((Reckoning.inZone zone).nextOpen timetable moment).value = .ok (some moment)) ∧
    (Reckoning.wallClock.isOpenAt timetable now = .ok false → ∀ opening,
      (Reckoning.wallClock.nextOpen timetable now).value = .ok (some opening) →
      (∃ instant : Instant, instant.readingIn? zone = some opening) → zone.FindsReadings opening →
        ∃ answer, ((Reckoning.inZone zone).nextOpen timetable moment).value = .ok (some answer) ∧
          answer.IsEarliest zone opening ∧
          (Reckoning.inZone zone).isOpenAt timetable answer = .ok true ∧
          ((Reckoning.inZone zone).nextOpen timetable answer).value = .ok (some answer)) := by
  simp only [Reckoning.nextOpen_wallClock, Reckoning.isOpenAt_wallClock, Except.ok.injEq]
  refine ⟨?_, ?_, fun opens => ?_, fun shut opening next ⟨instant, reads⟩ finds => ?_⟩
  · -- Openness is asked of the local time.
    unfold Reckoning.isOpenAt Reckoning.inZone
    simp only [shown]
  · rw [Reckoning.nextOpen_eq_none_iff]
    show (∃ time, moment.readingIn? zone = some time ∧ _) ↔ _
    rw [shown]
    simp
  · exact Reckoning.nextOpen_eq_some_iff.mpr ⟨now, shown, .inl ⟨opens, rfl⟩⟩
  · -- The opening has an earliest instant, and the opening of a closed time is open.
    obtain ⟨answer, earliest⟩ := finds.exists_earliest? reads
    obtain ⟨home, answerReads, first⟩ := Zone.earliest?_spec earliest
    have opens : timetable.isOpenAt opening = true := by
      rcases Timetable.nextOpen?_cases next with ⟨opensNow, -⟩ | ⟨-, -, -, opens⟩
      · rw [shut] at opensNow
        contradiction
      · exact opens
    have resolved := Zone.resolve_of_earliest? earliest
    exact ⟨answer,
      Reckoning.nextOpen_eq_some_iff.mpr ⟨now, shown, .inr ⟨shut, opening, next, resolved⟩⟩,
      ⟨home, answerReads, first⟩,
      Reckoning.isOpenAt_eq_true_iff.mpr ⟨opening, answerReads, opens⟩,
      Reckoning.nextOpen_eq_some_iff.mpr ⟨opening, answerReads, .inl ⟨opens, rfl⟩⟩⟩

namespace EarlySundays

/-- The noon in front of the Sunday on which clocks are set back, as it is given in Kathmandu. -/
def autumnNoon : Instant :=
  ⟨⟨⟨738092, by decide, by decide⟩,
    ⟨43200, 0, saturdayNoon.universal.clock.second_lt, ClockTime.midnight.nanosecond_lt⟩⟩,
    ⟨"Kathmandu".toList, ⟨20700, none⟩, []⟩⟩

/-- What the clocks of London show at that noon. -/
def londonNoon : LocalTime :=
  ⟨⟨738092, by decide, by decide⟩, ⟨46800, 0, by decide, ClockTime.midnight.nanosecond_lt⟩⟩

/-- London is on summer time at that noon, and its clocks show the next opening twice. -/
theorem autumnNoon_facts :
    autumnNoon.readingIn? london = some londonNoon ∧ timetable.isOpenAt londonNoon = false ∧
      timetable.nextOpen? londonNoon = some autumnOpening ∧
      firstShown.readingIn? london = some autumnOpening := by
  decide +kernel

/-- London finds the opening, as its clocks are never a day off. -/
theorem findsReadings_autumnOpening : london.FindsReadings autumnOpening :=
  Zone.findsReadings_of_within (by decide) (by decide) (by decide)

end EarlySundays

/-- Asked at noon in another zone, the answer is the first of the two instants of the opening. -/
theorem nextOpen_inZone_refines_wallClock_autumn :
    EarlySundays.autumnNoon.readingIn? EarlySundays.london = some EarlySundays.londonNoon ∧
      ∃ answer, ((Reckoning.inZone EarlySundays.london).nextOpen EarlySundays.timetable
          EarlySundays.autumnNoon).value = .ok (some answer) ∧
        answer.IsEarliest EarlySundays.london EarlySundays.autumnOpening ∧
        (Reckoning.inZone EarlySundays.london).isOpenAt EarlySundays.timetable answer = .ok true ∧
        ((Reckoning.inZone EarlySundays.london).nextOpen EarlySundays.timetable answer).value =
          .ok (some answer) := by
  obtain ⟨shown, shut, next, reads⟩ := EarlySundays.autumnNoon_facts
  have refined := nextOpen_inZone_refines_wallClock EarlySundays.timetable shown
  rw [Reckoning.nextOpen_wallClock, next] at refined
  exact ⟨shown, refined.2.2.2 (congrArg Except.ok shut) _ rfl ⟨_, reads⟩
    EarlySundays.findsReadings_autumnOpening⟩

end OpeningTimes
