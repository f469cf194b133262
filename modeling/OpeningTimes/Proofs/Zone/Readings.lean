import OpeningTimes.Proofs.Zone.Shift
import OpeningTimes.Zone.Resolution

/-!
The instants at which clocks show a local time, and the instant that it stands for.

It is the first of them, or else the first one of the next minute that clocks show.
-/

namespace OpeningTimes

/-- The first and the last instant at which clocks show a local time, if they do. -/
def Readings.ends? : Readings → Option (Instant × Instant)
  | .none => .none
  | .once instant => some (instant, instant)
  | .repeated first last => some (first, last)

namespace Zone

/-- The clocks of a zone show a reading at a timestamp, both counted in seconds since 1970 began. -/
def ShowsAt (zone : Zone) (reading timestamp : Int) : Prop :=
  timestamp + (zone.offsetAt timestamp).seconds = reading

/-- Clocks show a local time at some timestamp, and at supported ones only. -/
def Shows (zone : Zone) (time : LocalTime) : Prop :=
  (∃ timestamp, zone.ShowsAt time.timestamp timestamp) ∧
    ∀ timestamp, zone.ShowsAt time.timestamp timestamp →
      ∃ universal, LocalTime.ofTimestamp? timestamp = some universal

/-- The offset in force is one of the offsets that the zone ever takes. -/
theorem offsetAt_mem_offsets (zone : Zone) (timestamp : Int) :
    zone.offsetAt timestamp ∈ zone.offsets := by
  -- Each transition keeps the present offset or puts its own in place of it.
  have general : ∀ (transitions : List Transition) (current : ZoneOffset),
      transitions.foldl (fun current transition =>
        if transition.timestamp ≤ timestamp then transition.offset else current) current ∈
        current :: transitions.map Transition.offset := by
    intro transitions
    induction transitions with
    | nil => exact fun current => List.mem_singleton_self current
    | cons first rest ih =>
      intro current
      rw [List.foldl_cons]
      split
      · exact List.mem_cons_of_mem _ (ih first.offset)
      · rcases List.mem_cons.mp (ih current) with unchanged | later
        · exact List.mem_cons.mpr (.inl unchanged)
        · exact List.mem_cons_of_mem _ (List.mem_cons_of_mem _ later)
  exact general zone.transitions zone.base

/-- An offset shows a reading when the clocks do so at the timestamp that it leads to. -/
theorem mem_offsetsShowing {zone : Zone} {reading seconds : Int} :
    seconds ∈ zone.offsetsShowing reading ↔ zone.ShowsAt reading (reading - seconds) := by
  unfold offsetsShowing ShowsAt
  rw [List.mem_filter, decide_eq_true_eq]
  constructor
  · rintro ⟨-, fits⟩
    omega
  · intro shown
    have fits : (zone.offsetAt (reading - seconds)).seconds = seconds := by omega
    -- What is in force at that timestamp is an offset of the zone.
    have listed := List.mem_map_of_mem (f := ZoneOffset.seconds)
      (zone.offsetAt_mem_offsets (reading - seconds))
    exact ⟨fits ▸ listed, fits⟩

/-- Every timestamp that shows a reading does so by an offset. -/
theorem exists_offset_of_showsAt {zone : Zone} {reading timestamp : Int}
    (shown : zone.ShowsAt reading timestamp) :
    ∃ seconds ∈ zone.offsetsShowing reading, timestamp = reading - seconds := by
  have back : reading - (zone.offsetAt timestamp).seconds = timestamp := by
    unfold ShowsAt at shown
    omega
  refine ⟨(zone.offsetAt timestamp).seconds, ?_, back.symm⟩
  rw [mem_offsetsShowing, back]
  exact shown

end Zone

/-- The clocks of a zone show a local time at an instant when they do so at its timestamp. -/
theorem Instant.readingIn?_eq_some_iff {instant : Instant} {zone : Zone} {time : LocalTime} :
    instant.readingIn? zone = some time ↔
      zone.ShowsAt time.timestamp instant.universal.timestamp ∧
        instant.universal.clock.nanosecond = time.clock.nanosecond := by
  unfold readingIn? Zone.ShowsAt LocalTime.timestamp
  rw [LocalTime.shift?_eq_some_iff]
  constructor
  · rintro ⟨placed, fraction⟩
    exact ⟨by omega, fraction.symm⟩
  · rintro ⟨placed, fraction⟩
    exact ⟨by omega, fraction.symm⟩

namespace Zone

variable {zone : Zone} {time : LocalTime}

/-- The instant under an offset has the timestamp that the offset leads to. -/
theorem instantUnder?_spec {instant : Instant} {offset : Int}
    (found : zone.instantUnder? time offset = some instant) :
    instant.zone = zone ∧ instant.universal.timestamp = time.timestamp - offset ∧
      instant.universal.clock.nanosecond = time.clock.nanosecond := by
  obtain ⟨universal, shifted, rfl⟩ := Option.map_eq_some_iff.mp found
  obtain ⟨placed, fraction⟩ := LocalTime.shift?_spec shifted
  refine ⟨rfl, ?_, fraction⟩
  show universal.seconds - LocalTime.epoch.seconds = time.seconds - LocalTime.epoch.seconds - offset
  omega

/-- There is an instant under an offset exactly when the offset leads to a supported timestamp. -/
theorem exists_instantUnder?_iff {offset : Int} :
    (∃ instant, zone.instantUnder? time offset = some instant) ↔
      ∃ universal, LocalTime.ofTimestamp? (time.timestamp - offset) = some universal := by
  have same : LocalTime.epoch.seconds + (time.timestamp - offset) = time.seconds + -offset := by
    unfold LocalTime.timestamp
    omega
  rw [LocalTime.exists_ofTimestamp?_iff, same, ← LocalTime.exists_shift?_iff]
  unfold instantUnder?
  constructor
  · rintro ⟨instant, found⟩
    obtain ⟨universal, shifted, -⟩ := Option.map_eq_some_iff.mp found
    exact ⟨universal, shifted⟩
  · rintro ⟨universal, shifted⟩
    exact ⟨_, Option.map_eq_some_iff.mpr ⟨universal, shifted, rfl⟩⟩

/-- The instant under an offset that fits shows the local time. -/
theorem reads_of_instantUnder? {instant : Instant} {offset : Int}
    (fits : offset ∈ zone.offsetsShowing time.timestamp)
    (found : zone.instantUnder? time offset = some instant) :
    instant.readingIn? zone = some time := by
  obtain ⟨-, placed, fraction⟩ := instantUnder?_spec found
  rw [Instant.readingIn?_eq_some_iff, placed]
  exact ⟨mem_offsetsShowing.mp fits, fraction⟩

/-- Every instant that shows a local time is the one under an offset that fits. -/
theorem exists_instantUnder?_of_reads {instant : Instant}
    (shown : instant.readingIn? zone = some time) :
    ∃ offset ∈ zone.offsetsShowing time.timestamp,
      zone.instantUnder? time offset = some ⟨instant.universal, zone⟩ := by
  obtain ⟨shownAt, fraction⟩ := Instant.readingIn?_eq_some_iff.mp shown
  obtain ⟨offset, fits, placed⟩ := exists_offset_of_showsAt shownAt
  refine ⟨offset, fits, Option.map_eq_some_iff.mpr ⟨_, ?_, rfl⟩⟩
  -- Going back by the offset leads to the universal time of the instant.
  unfold LocalTime.timestamp at placed
  rw [LocalTime.shift?_eq_some_iff]
  exact ⟨by omega, fraction⟩

/-- The further the clocks are ahead, the earlier is the instant. -/
theorem instantUnder?_le_iff {first second : Instant} {ahead behind : Int}
    (found : zone.instantUnder? time ahead = some first)
    (foundToo : zone.instantUnder? time behind = some second) :
    first.universal ≤ second.universal ↔ behind ≤ ahead := by
  obtain ⟨-, placed, fraction⟩ := instantUnder?_spec found
  obtain ⟨-, placedToo, fractionToo⟩ := instantUnder?_spec foundToo
  rw [LocalTime.le_iff_seconds (fraction.trans fractionToo.symm)]
  unfold LocalTime.timestamp at placed placedToo
  omega

/-- The earliest instant of a local time is the first one. -/
theorem earliest?_eq_ends? : zone.earliest? time = (zone.readings time).ends?.map Prod.fst := by
  unfold earliest?
  cases zone.readings time <;> rfl

/-- The first and the last instant of a local time are those under the extreme offsets that fit. -/
theorem ends?_eq_some_iff {first last : Instant} :
    (zone.readings time).ends? = some (first, last) ↔ ∃ ahead behind,
      (zone.offsetsShowing time.timestamp).max? = some ahead ∧
        (zone.offsetsShowing time.timestamp).min? = some behind ∧
          zone.instantUnder? time ahead = some first ∧
            zone.instantUnder? time behind = some last := by
  unfold readings
  -- Where one of the four parts is missing, neither side holds.
  cases highest : (zone.offsetsShowing time.timestamp).max? with
  | none => simp [highest, Readings.ends?]
  | some ahead =>
    cases lowest : (zone.offsetsShowing time.timestamp).min? with
    | none => simp [highest, lowest, Readings.ends?]
    | some behind =>
      cases started : zone.instantUnder? time ahead with
      | none => simp [highest, lowest, started, Readings.ends?]
      | some earliest =>
        cases ended : zone.instantUnder? time behind with
        | none => simp [highest, lowest, started, ended, Readings.ends?]
        | some latest =>
          simp only [highest, lowest, started, ended]
          by_cases same : ahead = behind
          · -- One offset alone has one instant, which is the first and the last one.
            subst same
            cases started.symm.trans ended
            simp [started, Readings.ends?]
          · simp [same, started, ended, Readings.ends?]

/-- The earliest instant is the one under the highest offset, if the lowest one has one too. -/
theorem earliest?_eq_some_iff {instant : Instant} :
    zone.earliest? time = some instant ↔ ∃ ahead behind last,
      (zone.offsetsShowing time.timestamp).max? = some ahead ∧
        (zone.offsetsShowing time.timestamp).min? = some behind ∧
          zone.instantUnder? time ahead = some instant ∧
            zone.instantUnder? time behind = some last := by
  rw [earliest?_eq_ends?, Option.map_eq_some_iff]
  constructor
  · rintro ⟨⟨first, last⟩, found, rfl⟩
    obtain ⟨ahead, behind, parts⟩ := ends?_eq_some_iff.mp found
    exact ⟨ahead, behind, last, parts⟩
  · rintro ⟨ahead, behind, last, parts⟩
    exact ⟨(instant, last), ends?_eq_some_iff.mpr ⟨ahead, behind, parts⟩, rfl⟩

/-- Clocks show a local time exactly when it has an earliest instant. -/
theorem exists_earliest?_iff :
    (∃ instant, zone.earliest? time = some instant) ↔ zone.Shows time := by
  simp only [earliest?_eq_some_iff]
  constructor
  · rintro ⟨first, ahead, behind, last, highest, lowest, started, ended⟩
    have listed := (List.max?_eq_some_iff.mp highest).1
    refine ⟨⟨_, mem_offsetsShowing.mp listed⟩, fun timestamp shown => ?_⟩
    -- Every other timestamp lies between the first and the last one.
    obtain ⟨seconds, member, rfl⟩ := exists_offset_of_showsAt shown
    have below := (List.max?_eq_some_iff.mp highest).2 seconds member
    have above := (List.min?_eq_some_iff.mp lowest).2 seconds member
    have begun := exists_instantUnder?_iff.mp ⟨first, started⟩
    have finished := exists_instantUnder?_iff.mp ⟨last, ended⟩
    rw [LocalTime.exists_ofTimestamp?_iff] at begun finished ⊢
    exact begun.between finished (by omega) (by omega)
  · rintro ⟨⟨timestamp, shown⟩, supported⟩
    -- The highest and the lowest offset exist, as some offset shows the time.
    obtain ⟨seconds, member, -⟩ := exists_offset_of_showsAt shown
    have filled : zone.offsetsShowing time.timestamp ≠ [] := List.ne_nil_of_mem member
    obtain ⟨ahead, highest⟩ := Option.isSome_iff_exists.mp (List.isSome_max?_of_ne_nil filled)
    obtain ⟨behind, lowest⟩ := Option.isSome_iff_exists.mp (List.isSome_min?_of_ne_nil filled)
    have under (seconds : Int) (member : seconds ∈ zone.offsetsShowing time.timestamp) :
        ∃ instant, zone.instantUnder? time seconds = some instant :=
      exists_instantUnder?_iff.mpr (supported _ (mem_offsetsShowing.mp member))
    obtain ⟨first, started⟩ := under ahead (List.max?_eq_some_iff.mp highest).1
    obtain ⟨last, ended⟩ := under behind (List.min?_eq_some_iff.mp lowest).1
    exact ⟨first, ahead, behind, last, highest, lowest, started, ended⟩

/-- A local time has no earliest instant exactly when it is not shown. -/
theorem earliest?_eq_none_iff : zone.earliest? time = none ↔ ¬ zone.Shows time := by
  rw [← exists_earliest?_iff]
  cases zone.earliest? time <;> simp

/-- Every offset of a zone leads from a local time to a supported one. -/
def Covers (zone : Zone) (time : LocalTime) : Prop :=
  ∀ offset ∈ zone.offsets, WithinCalendar (time.seconds - offset.seconds)

/-- The timestamps that show a covered local time are supported. -/
theorem Covers.supported (covers : zone.Covers time) {timestamp : Int}
    (shown : zone.ShowsAt time.timestamp timestamp) :
    ∃ universal, LocalTime.ofTimestamp? timestamp = some universal := by
  rw [LocalTime.exists_ofTimestamp?_iff]
  have within := covers _ (zone.offsetAt_mem_offsets timestamp)
  unfold ShowsAt LocalTime.timestamp at shown
  rwa [show LocalTime.epoch.seconds + timestamp =
    time.seconds - (zone.offsetAt timestamp).seconds by omega]

/-- Clocks that are less than a day off cover all dates but the first and the last one. -/
theorem covers_of_within
    (short : ∀ offset ∈ zone.offsets, offset.seconds.natAbs < secondsPerDay)
    (after : earliestDay < time.date.number) (before : time.date.number < latestDay) :
    zone.Covers time := by
  intro offset member
  have small := short offset member
  have running := time.clock.second_lt
  -- Less than a day away, the instant is on one of the dates around that of the time.
  unfold WithinCalendar LocalTime.seconds
  simp only [secondsPerDay] at *
  omega

/-- What is covered at both ends of a stretch of time is covered in between. -/
theorem Covers.between {first last : LocalTime} (begun : zone.Covers first)
    (ended : zone.Covers last) (after : first ≤ time) (before : time ≤ last) :
    zone.Covers time := by
  intro offset member
  have notBefore := LocalTime.seconds_le_of_le after
  have notBehind := LocalTime.seconds_le_of_le before
  exact (begun offset member).between (ended offset member) (by omega) (by omega)

/-- The earliest instant of a local time shows it in its zone, and no instant does so before. -/
theorem earliest?_spec {instant : Instant} (found : zone.earliest? time = some instant) :
    instant.zone = zone ∧ instant.readingIn? zone = some time ∧
      ∀ other : Instant, other.readingIn? zone = some time →
        instant.universal ≤ other.universal := by
  obtain ⟨ahead, _, _, highest, -, started, -⟩ := earliest?_eq_some_iff.mp found
  obtain ⟨listed, most⟩ := List.max?_eq_some_iff.mp highest
  refine ⟨(instantUnder?_spec started).1, reads_of_instantUnder? listed started, ?_⟩
  intro other shown
  -- Another instant is shown under an offset that is no higher.
  obtain ⟨seconds, member, under⟩ := exists_instantUnder?_of_reads shown
  exact (instantUnder?_le_iff started under).mpr (most seconds member)

/-- Clocks show none of a number of minutes from a local time on. -/
def SkipsMinutes (zone : Zone) (time : LocalTime) (count : Nat) : Prop :=
  ∀ minutes < count, ∀ skipped,
    time.addSeconds? (60 * (minutes : Int)) = some skipped → ¬ zone.Shows skipped

/-- Clocks show a local time first of the minutes from another one on, at most a day behind. -/
def ShowsFirst (zone : Zone) (time shown : LocalTime) : Prop :=
  ∃ minutes ≤ longestGap, zone.SkipsMinutes time minutes ∧
    time.addSeconds? (60 * (minutes : Int)) = some shown ∧ zone.Shows shown

/-- One more minute is skipped when clocks do not show it. -/
theorem SkipsMinutes.succ {count : Nat} (skips : zone.SkipsMinutes time count)
    (hidden : ∀ skipped, time.addSeconds? (60 * (count : Int)) = some skipped →
      ¬ zone.Shows skipped) : zone.SkipsMinutes time (count + 1) := by
  intro minutes within skipped passed
  rcases Nat.lt_succ_iff_lt_or_eq.mp within with before | rfl
  · exact skips minutes before skipped passed
  · exact hidden skipped passed

/-- The minute that clocks show first is not followed by another one. -/
theorem ShowsFirst.unique {first second : LocalTime} (shows : zone.ShowsFirst time first)
    (alsoShows : zone.ShowsFirst time second) : first = second := by
  obtain ⟨early, -, skips, passed, shown⟩ := shows
  obtain ⟨late, -, alsoSkips, alsoPassed, alsoShown⟩ := alsoShows
  -- Neither of the two minutes comes in front of the other, as it would be skipped there.
  rcases Nat.lt_trichotomy early late with before | rfl | behind
  · exact absurd shown (alsoSkips early before first passed)
  · rw [passed, Option.some.injEq] at alsoPassed
    exact alsoPassed
  · exact absurd alsoShown (skips late behind second alsoPassed)

/-- A day that is skipped has no minute that clocks show. -/
theorem SkipsMinutes.not_showsFirst {shown : LocalTime}
    (skips : zone.SkipsMinutes time (longestGap + 1)) : ¬ zone.ShowsFirst time shown := by
  rintro ⟨minutes, within, -, passed, shows⟩
  exact skips minutes (Nat.lt_succ_of_le within) shown passed shows

/-- No minute has passed at a local time itself. -/
theorem addSeconds?_zero (plain : time.clock.nanosecond < nanosPerSecond) :
    time.addSeconds? (60 * ((0 : Nat) : Int)) = some time := by
  rw [LocalTime.addSeconds?_eq_shift? plain, LocalTime.shift?_eq_some_iff]
  exact ⟨(Int.add_zero _).symm, rfl⟩

/-- One more minute than has passed is a minute after the present one. -/
theorem addSeconds?_succ {current : LocalTime} {passed : Nat}
    (plain : time.clock.nanosecond < nanosPerSecond)
    (reached : time.addSeconds? (60 * (passed : Int)) = some current) :
    current.addSeconds? 60 = time.addSeconds? (60 * ((passed + 1 : Nat) : Int)) := by
  rw [LocalTime.addSeconds?_eq_shift? plain] at reached
  have fraction := (LocalTime.shift?_spec reached).2
  have sum : 60 * (passed : Int) + 60 = 60 * ((passed + 1 : Nat) : Int) := by omega
  rw [LocalTime.addSeconds?_eq_shift? (fraction ▸ plain), LocalTime.addSeconds?_eq_shift? plain,
    LocalTime.shift?_of_shift? reached, sum]

/-- Nothing is skipped among no minutes. -/
theorem SkipsMinutes.zero (zone : Zone) (time : LocalTime) : zone.SkipsMinutes time 0 := by
  intro minutes impossible
  exact absurd impossible (Nat.not_lt_zero minutes)

/-- A local time that clocks show is the first such minute from itself on. -/
theorem Shows.showsFirst (plain : time.clock.nanosecond < nanosPerSecond)
    (shows : zone.Shows time) : zone.ShowsFirst time time :=
  ⟨0, Nat.zero_le _, .zero zone time, addSeconds?_zero plain, shows⟩

/--
The search behind a gap ends at the first minute that clocks show.

Without such a minute it ends with the beginning of the gap as universal time.
-/
theorem behindGap_cases {current : LocalTime} {minutes passed : Nat} {instant : Instant}
    (plain : time.clock.nanosecond < nanosPerSecond)
    (reached : time.addSeconds? (60 * (passed : Int)) = some current)
    (skips : zone.SkipsMinutes time (passed + 1))
    (found : (zone.behindGap time minutes current).value = some instant) :
    (∃ total ≤ passed + minutes, zone.SkipsMinutes time total ∧
      ∃ shown, time.addSeconds? (60 * (total : Int)) = some shown ∧
        zone.earliest? shown = some instant) ∨
      (zone.SkipsMinutes time (passed + minutes + 1) ∧ instant = ⟨time, zone⟩) := by
  -- Each step goes on by a minute, and all minutes behind it are skipped.
  induction minutes generalizing passed current with
  | zero =>
    cases found
    exact .inr ⟨skips, rfl⟩
  | succ minutes ih =>
    rw [behindGap, addSeconds?_succ plain reached] at found
    split at found
    · contradiction
    · rename_i next moved
      split at found
      · -- The next minute is shown.
        rename_i first shown
        cases found
        exact .inl ⟨passed + 1, by omega, skips, next, moved, shown⟩
      · -- The next minute is skipped as well, which is one more of them.
        rename_i missing
        have skipsNext : zone.SkipsMinutes time (passed + 1 + 1) := by
          refine skips.succ fun skipped alsoMoved => ?_
          rw [moved, Option.some.injEq] at alsoMoved
          exact alsoMoved ▸ earliest?_eq_none_iff.mp missing
        have rest := ih moved skipsNext found
        rwa [show passed + 1 + minutes = passed + (minutes + 1) by omega] at rest

/-- A local time that clocks show stands for its earliest instant. -/
theorem resolve_of_earliest? {instant : Instant} (found : zone.earliest? time = some instant) :
    (zone.resolve time).value = some instant := by
  unfold earliest? at found
  unfold resolve
  cases shown : zone.readings time with
  | none => simp [shown] at found
  | once only => simpa [shown] using found
  | repeated first last => simpa [shown] using found

/-- A local time that clocks skip stands for what is found behind the gap. -/
theorem resolve_of_earliest?_eq_none (missing : zone.earliest? time = none) :
    zone.resolve time = zone.behindGap time longestGap time := by
  unfold earliest? at missing
  unfold resolve
  cases shown : zone.readings time with
  | none => rfl
  | once only => simp [shown] at missing
  | repeated first last => simp [shown] at missing

/--
A local time stands for the earliest instant of the minute that clocks show first.

Where they skip a whole day it stands for itself as universal time.
-/
theorem resolve_cases {instant : Instant} (plain : time.clock.nanosecond < nanosPerSecond)
    (found : (zone.resolve time).value = some instant) :
    (∃ shown, zone.ShowsFirst time shown ∧ zone.earliest? shown = some instant) ∨
      (zone.SkipsMinutes time (longestGap + 1) ∧ instant = ⟨time, zone⟩) := by
  cases earliest : zone.earliest? time with
  | some first =>
    -- The local time is shown itself, so no minute has to pass.
    rw [resolve_of_earliest? earliest] at found
    have shows : zone.Shows time := exists_earliest?_iff.mp ⟨first, earliest⟩
    exact .inl ⟨time, shows.showsFirst plain, earliest.trans found⟩
  | none =>
    -- The local time is skipped, and the search goes on from there.
    rw [resolve_of_earliest?_eq_none earliest] at found
    have start := addSeconds?_zero plain
    have skips : zone.SkipsMinutes time (0 + 1) := by
      refine (SkipsMinutes.zero zone time).succ fun skipped passed => ?_
      rw [start, Option.some.injEq] at passed
      exact passed ▸ earliest?_eq_none_iff.mp earliest
    rcases behindGap_cases plain start skips found with
      ⟨total, within, skipsAll, shown, passed, first⟩ | ⟨skipsDay, same⟩
    · refine .inl ⟨shown, ⟨total, by omega, skipsAll, passed, ?_⟩, first⟩
      exact exists_earliest?_iff.mp ⟨instant, first⟩
    · exact .inr ⟨by simpa using skipsDay, same⟩

/-- The minute that clocks show first does not come in front of the local time. -/
theorem ShowsFirst.le {shown : LocalTime} (plain : time.clock.nanosecond < nanosPerSecond)
    (shows : zone.ShowsFirst time shown) : time ≤ shown := by
  obtain ⟨minutes, -, -, passed, -⟩ := shows
  -- Minutes that pass add to the seconds, and keep the nanoseconds.
  rw [LocalTime.addSeconds?_eq_shift? plain] at passed
  obtain ⟨placed, fraction⟩ := LocalTime.shift?_spec passed
  rw [LocalTime.le_iff_seconds fraction.symm]
  omega

end Zone

end OpeningTimes
