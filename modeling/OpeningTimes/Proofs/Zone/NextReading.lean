import OpeningTimes.Proofs.Timetable.LocalAnswer
import OpeningTimes.Zone.Named
import Mathlib.Data.List.Basic

/-!
Every local time stands for the first instant that shows it, or that shows the next time that exists.

Clocks that change on whole minutes leave gaps of whole minutes, which the search cannot step over.
-/

namespace OpeningTimes

namespace Zone

variable {zone : Zone} {time shown : LocalTime}

/-- Some instant shows a local time on the clocks of a zone. -/
def Reads (zone : Zone) (time : LocalTime) : Prop :=
  ∃ instant : Instant, instant.readingIn? zone = some time

/-- The first local time behind another one that clocks show at all. -/
structure IsNextReading (zone : Zone) (time next : LocalTime) : Prop where
  /-- It is later than the other one. -/
  later : time < next
  /-- Some instant shows it. -/
  reads : zone.Reads next
  /-- No local time between the two is shown. -/
  first : ∀ other, time < other → zone.Reads other → next ≤ other

/-- Clocks change on whole minutes, by offsets of whole minutes. -/
structure OnMinutes (zone : Zone) : Prop where
  /-- The changes take place on whole minutes. -/
  changes : ∀ transition ∈ zone.transitions, transition.timestamp % 60 = 0
  /-- The offsets are whole minutes. -/
  offsets : ∀ offset ∈ zone.offsets, offset.seconds % 60 = 0

/-- A local time with an earliest instant is shown first at that one. -/
theorem isEarliest_of_earliest? {instant : Instant} (found : zone.earliest? time = some instant) :
    instant.IsEarliest zone time := by
  obtain ⟨home, reads, first⟩ := earliest?_spec found
  exact ⟨home, reads, first⟩

/-- A covered local time is shown when some instant reads it. -/
theorem Reads.shows (reads : zone.Reads time) (covers : zone.Covers time) : zone.Shows time := by
  obtain ⟨instant, reading⟩ := reads
  exact ⟨⟨_, (Instant.readingIn?_eq_some_iff.mp reading).1⟩, fun _ => covers.supported⟩

/-- A local time that clocks show is read at its earliest instant. -/
theorem Shows.reads (shows : zone.Shows time) : zone.Reads time := by
  obtain ⟨instant, found⟩ := exists_earliest?_iff.mpr shows
  exact ⟨instant, (isEarliest_of_earliest? found).reads⟩

namespace OnMinutes

/-- The offset does not change within a minute. -/
theorem offsetAt_startOfMinute (even : zone.OnMinutes) (timestamp : Int) :
    zone.offsetAt (timestamp - timestamp % 60) = zone.offsetAt timestamp := by
  unfold offsetAt
  apply List.foldl_ext
  intro current transition listed
  have whole := even.changes transition listed
  -- A change at a whole minute has taken place by the beginning of a minute or not within it.
  have same : transition.timestamp ≤ timestamp - timestamp % 60 ↔
      transition.timestamp ≤ timestamp := by
    omega
  simp only [same]

/-- A minute begins on clocks when it begins in universal time. -/
theorem showsAt_startOfMinute (even : zone.OnMinutes) {timestamp : Int}
    (shown : zone.ShowsAt time.timestamp timestamp) :
    zone.ShowsAt time.startOfMinute.timestamp (timestamp - timestamp % 60) := by
  have whole := even.offsets _ (zone.offsetAt_mem_offsets timestamp)
  -- The offset is one of whole minutes, so both sides are as many seconds behind theirs.
  unfold ShowsAt at *
  rw [even.offsetAt_startOfMinute, LocalTime.timestamp_startOfMinute]
  omega

/-- The beginning of a minute is covered when a time of the minute is. -/
theorem covers_startOfMinute (even : zone.OnMinutes) (covers : zone.Covers time) :
    zone.Covers time.startOfMinute := by
  intro offset member
  have within := covers offset member
  have whole := even.offsets offset member
  have start := time.seconds_startOfMinute
  -- The days that instants lie on begin at whole minutes as well.
  unfold WithinCalendar at *
  simp only [secondsPerDay] at *
  omega

/-- The beginning of a minute is shown when some time of the minute is read. -/
theorem shows_startOfMinute (even : zone.OnMinutes) (covers : zone.Covers time)
    (reads : zone.Reads time) : zone.Shows time.startOfMinute := by
  obtain ⟨⟨timestamp, shown⟩, -⟩ := reads.shows covers
  exact ⟨⟨_, even.showsAt_startOfMinute shown⟩,
    fun _ => (even.covers_startOfMinute covers).supported⟩

end OnMinutes

/-- No time is read between a whole minute and the first minute from there on that is shown. -/
theorem SkipsMinutes.le_of_reads {minutes : Nat} {other : LocalTime}
    (skips : zone.SkipsMinutes time minutes) (even : zone.OnMinutes) (whole : time.IsWholeMinute)
    (passed : time.addSeconds? (60 * (minutes : Int)) = some shown) (after : time ≤ other)
    (covers : zone.Covers other) (reads : zone.Reads other) : shown ≤ other := by
  -- Both are compared by the minutes that have passed until then.
  obtain ⟨wholeShown, counted⟩ := (LocalTime.addSeconds?_minutes_iff whole minutes).mp passed
  obtain ⟨count, distance, start⟩ := LocalTime.exists_addSeconds?_startOfMinute whole after
  rw [LocalTime.le_iff_minuteRank wholeShown]
  by_contra before
  -- The minute of the time would be one of those that are skipped.
  exact skips count (by omega) _ start (even.shows_startOfMinute covers reads)

/-- The search behind a gap ends with an instant when clocks show some minute that lies ahead. -/
theorem exists_behindGap {current : LocalTime} {limit passed total : Nat}
    (plain : time.clock.nanosecond < nanosPerSecond)
    (reached : time.addSeconds? (60 * (passed : Int)) = some current) (ahead : passed < total)
    (ends : time.addSeconds? (60 * (total : Int)) = some shown) (shows : zone.Shows shown) :
    ∃ instant, (zone.behindGap time limit current).value = some instant := by
  -- Each step goes on by a minute, which is supported as it is not behind the one that is shown.
  induction limit generalizing passed current with
  | zero => exact ⟨_, rfl⟩
  | succ limit ih =>
    have supported : ∃ next, time.addSeconds? (60 * ((passed + 1 : Nat) : Int)) = some next := by
      rw [LocalTime.addSeconds?_eq_shift? plain] at reached ends ⊢
      rw [LocalTime.exists_shift?_iff]
      exact (LocalTime.exists_shift?_iff.mp ⟨_, reached⟩).between
        (LocalTime.exists_shift?_iff.mp ⟨_, ends⟩) (by omega) (by omega)
    obtain ⟨next, moved⟩ := supported
    rw [behindGap, addSeconds?_succ plain reached, moved]
    dsimp only
    cases found : zone.earliest? next with
    | some instant => exact ⟨instant, rfl⟩
    | none =>
      -- The minute that is shown is not the next one, so it is still ahead.
      have other : passed + 1 ≠ total := by
        rintro rfl
        rw [moved, Option.some.injEq] at ends
        exact earliest?_eq_none_iff.mp found (ends ▸ shows)
      exact ih moved (by omega)

/-- A local time that some instant reads stands for the first one that does. -/
theorem resolve_of_reads (covers : zone.Covers time) (reads : zone.Reads time) :
    ∃ answer, (zone.resolve time).value = some answer ∧ answer.IsEarliest zone time := by
  obtain ⟨answer, found⟩ := exists_earliest?_iff.mpr (reads.shows covers)
  exact ⟨answer, resolve_of_earliest? found, isEarliest_of_earliest? found⟩

/-- A local time that is skipped stands for the first instant of the next minute that is shown. -/
theorem resolve_of_shows {minutes : Nat} (plain : time.clock.nanosecond < nanosPerSecond)
    (hidden : ¬ zone.Shows time) (within : minutes ≤ longestGap)
    (ends : time.addSeconds? (60 * (minutes : Int)) = some shown) (shows : zone.Shows shown) :
    ∃ answer first, (zone.resolve time).value = some answer ∧ zone.ShowsFirst time first ∧
      answer.IsEarliest zone first := by
  have missing := earliest?_eq_none_iff.mpr hidden
  have start := addSeconds?_zero plain
  -- The local time itself is not the minute that is shown.
  have ahead : 0 < minutes := by
    refine Nat.pos_of_ne_zero ?_
    rintro rfl
    rw [start, Option.some.injEq] at ends
    exact hidden (ends ▸ shows)
  obtain ⟨answer, found⟩ : ∃ answer, (zone.resolve time).value = some answer := by
    rw [resolve_of_earliest?_eq_none missing]
    exact exists_behindGap plain start ahead ends shows
  -- The search does not give up, as it would have passed over the minute that is shown.
  rcases resolve_cases plain found with ⟨first, showsFirst, earliest⟩ | ⟨skips, -⟩
  · exact ⟨answer, first, found, showsFirst, isEarliest_of_earliest? earliest⟩
  · exact absurd shows (skips minutes (Nat.lt_succ_of_le within) shown ends)

/-- The minute that is shown first is the next local time that exists at all. -/
theorem ShowsFirst.isNextReading {later : LocalTime} (showsFirst : zone.ShowsFirst time shown)
    (even : zone.OnMinutes) (whole : time.IsWholeMinute) (hidden : ¬ zone.Reads time)
    (after : time < later) (begun : zone.Covers time) (ended : zone.Covers later)
    (reads : zone.Reads later) : zone.IsNextReading time shown := by
  have notBefore := showsFirst.le whole.nanosecond_lt
  obtain ⟨minutes, -, skips, passed, shows⟩ := showsFirst
  have bound := skips.le_of_reads even whole passed (LocalTime.le_of_lt after) ended reads
  refine ⟨?_, shows.reads, ?_⟩
  · -- The local time itself is not shown.
    refine Int.lt_iff_le_and_ne.mpr ⟨notBefore, fun same => ?_⟩
    exact hidden (LocalTime.eq_of_rank same ▸ shows.reads)
  · intro other behind readsOther
    -- What lies behind the later time is behind the minute, and the rest is covered.
    rcases Int.le_total other.rank later.rank with inside | outside
    · have covers := begun.between ended (LocalTime.le_of_lt behind) inside
      exact skips.le_of_reads even whole passed (LocalTime.le_of_lt behind) covers readsOther
    · exact Std.le_trans bound outside

/--
A local time that some instant reads stands for the first instant that does.

A whole minute that none reads stands for the first instant of the next local time that exists, if
there is one within a day.
-/
theorem resolve_firstReading (zone : Zone) :
    (∀ (instant : Instant) (time : LocalTime), instant.readingIn? zone = some time →
      zone.Covers time → ∃ answer, (zone.resolve time).value = some answer ∧
        answer.IsEarliest zone time ∧ answer.universal ≤ instant.universal) ∧
    (zone.OnMinutes → ∀ time later : LocalTime, time.IsWholeMinute → ¬ zone.Reads time →
      time < later → later.seconds ≤ time.seconds + secondsPerDay → zone.Reads later →
      zone.Covers time → zone.Covers later →
        ∃ answer next, (zone.resolve time).value = some answer ∧ answer.IsEarliest zone next ∧
          zone.IsNextReading time next) := by
  constructor
  · intro instant time reading covers
    obtain ⟨answer, resolved, earliest⟩ := resolve_of_reads covers ⟨instant, reading⟩
    exact ⟨answer, resolved, earliest, earliest.first instant reading⟩
  · intro even time later whole hidden after near reads begun ended
    -- The minute of the later time is shown too, and it is at most a day ahead.
    have shows := even.shows_startOfMinute ended reads
    obtain ⟨minutes, distance, ends⟩ :=
      LocalTime.exists_addSeconds?_startOfMinute whole (LocalTime.le_of_lt after)
    have within : minutes ≤ longestGap := by
      have first := time.seconds_ediv_sixty
      have last := later.seconds_ediv_sixty
      have start := (LocalTime.isWholeMinute_iff.mp whole).1
      unfold longestGap
      simp only [secondsPerDay] at near
      omega
    obtain ⟨answer, next, resolved, showsFirst, earliest⟩ :=
      resolve_of_shows whole.nanosecond_lt (hidden ∘ Shows.reads) within ends shows
    exact ⟨answer, next, resolved, earliest,
      showsFirst.isNextReading even whole hidden after begun ended reads⟩

end Zone

namespace EarlySundays

/-- The last day of October at 01:15, when clocks show the opening for the second time. -/
def secondShown : Instant :=
  ⟨autumnOpening, london⟩

/-- London is back on standard time, so its clocks show universal time. -/
theorem reads_secondShown : secondShown.readingIn? london = some autumnOpening := by
  decide +kernel

end EarlySundays

namespace SkippedDay

/-- The clocks of Samoa, which skip the 30th of December 2011. -/
def samoa : Zone :=
  Zone.apia "Pacific/Apia"

/-- The beginning of the day that is skipped. -/
def skipped : LocalTime :=
  ⟨⟨734500, by decide, by decide⟩, .midnight⟩

/-- The beginning of the day behind it. -/
def nextDay : LocalTime :=
  ⟨⟨734501, by decide, by decide⟩, .midnight⟩

/-- The change from one side of the date line to the other. -/
def change : Instant :=
  ⟨⟨skipped.date, ⟨10 * 3600, 0, by decide, ClockTime.midnight.nanosecond_lt⟩⟩, samoa⟩

/-- Clocks do not show the day at all, and the change is the beginning of the one behind it. -/
theorem change_facts :
    samoa.earliest? skipped = none ∧ change.readingIn? samoa = some nextDay ∧
      skipped < nextDay ∧ nextDay.seconds ≤ skipped.seconds + secondsPerDay := by
  decide +kernel

/-- The clocks of Samoa change on whole minutes. -/
theorem onMinutes_samoa : samoa.OnMinutes :=
  ⟨by decide, by decide⟩

/-- Samoa is never a day off, so both days are covered. -/
theorem covers_days : samoa.Covers skipped ∧ samoa.Covers nextDay := by
  have short : ∀ offset ∈ samoa.offsets, offset.seconds.natAbs < secondsPerDay := by decide
  exact ⟨Zone.covers_of_within short (by decide) (by decide),
    Zone.covers_of_within short (by decide) (by decide)⟩

/-- No instant reads the beginning of the day that is skipped. -/
theorem not_reads_skipped : ¬ samoa.Reads skipped := fun reads =>
  Zone.earliest?_eq_none_iff.mp change_facts.1 (reads.shows covers_days.1)

end SkippedDay

/-- The repeated hour is answered at its first time, and the skipped day at the change behind it. -/
theorem Zone.resolve_firstReading_skippedDay :
    (∃ answer, (EarlySundays.london.resolve EarlySundays.autumnOpening).value = some answer ∧
      answer.IsEarliest EarlySundays.london EarlySundays.autumnOpening ∧
        answer.universal ≤ EarlySundays.secondShown.universal) ∧
    ∃ answer next, (SkippedDay.samoa.resolve SkippedDay.skipped).value = some answer ∧
      answer.IsEarliest SkippedDay.samoa next ∧
        SkippedDay.samoa.IsNextReading SkippedDay.skipped next ∧ next ≤ SkippedDay.nextDay := by
  obtain ⟨-, reads, after, near⟩ := SkippedDay.change_facts
  obtain ⟨covers, coversNext⟩ := SkippedDay.covers_days
  constructor
  · have coversOpening : EarlySundays.london.Covers EarlySundays.autumnOpening :=
      covers_of_within (by decide) (by decide) (by decide)
    exact (resolve_firstReading EarlySundays.london).1 EarlySundays.secondShown _
      EarlySundays.reads_secondShown coversOpening
  · obtain ⟨answer, next, resolved, earliest, nextReading⟩ :=
      (resolve_firstReading SkippedDay.samoa).2 SkippedDay.onMinutes_samoa SkippedDay.skipped
        SkippedDay.nextDay (by decide) SkippedDay.not_reads_skipped after near ⟨_, reads⟩ covers
        coversNext
    exact ⟨answer, next, resolved, earliest, nextReading, nextReading.first _ after ⟨_, reads⟩⟩

end OpeningTimes
