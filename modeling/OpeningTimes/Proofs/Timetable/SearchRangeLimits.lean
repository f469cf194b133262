import OpeningTimes.Proofs.Timetable.SearchRange
import Mathlib.Logic.ExistsUnique

/-!
The search ranges of a rule are exact.

They follow each other, they hold dates within the limits of the rule only, and within a year from
the day in question they hold all of these.
-/

namespace OpeningTimes

/-- The dates of a range are those from its first to its last one. -/
def DateRange.Holds (range : DateRange) (date : Date) : Prop :=
  range.first ≤ date ∧ date ≤ range.last

/-- One range is over before another one begins. -/
def DateRange.Precedes (range other : DateRange) : Prop :=
  range.last < other.first

/-- No date is in two ranges one of which precedes the other. -/
theorem DateRange.Precedes.not_holds {range other : DateRange} {date : Date}
    (precedes : range.Precedes other) (holds : range.Holds date) : ¬ other.Holds date := by
  rintro ⟨begun, -⟩
  have running := holds.2
  unfold Precedes at precedes
  rw [Date.lt_iff_number] at precedes
  rw [Date.le_iff_number] at begun running
  omega

/-- Of ranges that follow each other only one holds a date. -/
theorem DateRange.eq_of_pairwise {ranges : List DateRange} {range other : DateRange} {date : Date}
    (ordered : ranges.Pairwise Precedes) (listed : range ∈ ranges) (holds : range.Holds date)
    (listedToo : other ∈ ranges) (holdsToo : other.Holds date) : range = other := by
  induction ordered with
  | nil => cases listed
  | cons precedes _ ih =>
    rcases List.mem_cons.mp listed with rfl | behind
    · rcases List.mem_cons.mp listedToo with rfl | behindToo
      · rfl
      · exact absurd holdsToo ((precedes other behindToo).not_holds holds)
    · rcases List.mem_cons.mp listedToo with rfl | behindToo
      · exact absurd holds ((precedes range behind).not_holds holdsToo)
      · exact ih behind behindToo

namespace Season

variable {season : Season} {year : Int} {first last : Date}

/-- All dates of an occurrence are within the season. -/
theorem contains_of_occurrence? {date : Date}
    (occurs : season.occurrence? year = some (first, last)) (begun : first ≤ date)
    (running : date ≤ last) : season.contains date.annualDay = true := by
  obtain ⟨firstYear, lastYear⟩ := occurrence?_years occurs
  obtain ⟨starts, stops, -⟩ := occurrence?_eq_some_iff.mp occurs
  have notEarlier := Date.year_le_of_le begun
  have notLater := Date.year_le_of_le running
  have afterFirst := (Date.firstFrom?_spec starts).2 date
  have beforeLast := (Date.lastUntil?_spec stops).2 date
  rw [Window.contains_iff]
  cases wraps : season.wraps with
  | false =>
    -- The occurrence begins and ends in the one year, to which the date belongs.
    simp only [wraps, Bool.false_eq_true, if_false] at lastYear beforeLast ⊢
    have inYear : date.year = year := by omega
    exact ⟨(afterFirst inYear).mp begun, (beforeLast inYear).mp running⟩
  | true =>
    simp only [wraps, if_true] at lastYear beforeLast ⊢
    -- In the year of the beginning the date is behind it, in the next one in front of the end.
    by_cases inYear : date.year = year
    · exact .inl ((afterFirst inYear).mp begun)
    · exact .inr ((beforeLast (by omega)).mp running)

/-- An occurrence is over before the one of a later year begins. -/
theorem last_lt_first_of_year_lt {later : Int} {laterFirst laterLast : Date}
    (occurs : season.occurrence? year = some (first, last))
    (occursLater : season.occurrence? later = some (laterFirst, laterLast))
    (ordered : year < later) : last < laterFirst := by
  have lastYear := (occurrence?_years occurs).2
  have laterYear := (occurrence?_years occursLater).1
  by_cases apart : last.year < laterFirst.year
  · exact Date.lt_of_year_lt apart
  · -- Only a season that wraps ends in the year in which the later occurrence begins.
    cases wraps : season.wraps with
    | false =>
      simp only [wraps, Bool.false_eq_true, if_false] at lastYear
      omega
    | true =>
      simp only [wraps, if_true] at lastYear
      -- There it ends on an earlier day of the year than it begins.
      obtain ⟨-, stops, -⟩ := occurrence?_eq_some_iff.mp occurs
      obtain ⟨starts, -, -⟩ := occurrence?_eq_some_iff.mp occursLater
      rw [wraps, if_pos rfl] at stops
      have ends := ((Date.lastUntil?_spec stops).2 last lastYear).mp (Int.le_refl _)
      have begins := ((Date.firstFrom?_spec starts).2 laterFirst laterYear).mp (Int.le_refl _)
      have gap := last_lt_first wraps
      rw [Date.lt_iff_annualDay (by omega)]
      rw [AnnualDay.lt_iff_rank] at gap ⊢
      rw [AnnualDay.le_iff_rank] at ends begins
      omega

/-- The occurrences from a date on follow each other. -/
theorem pairwise_occurrencesFrom (season : Season) (date : Date) :
    (season.occurrencesFrom date).Pairwise DateRange.Precedes := by
  -- They are found year by year.
  show ((List.range 6).filterMap (season.occurrenceAhead? date)).Pairwise DateRange.Precedes
  refine List.Pairwise.filterMap _ ?_ List.pairwise_lt_range
  intro ahead further ordered range found laterRange foundLater
  obtain ⟨occurs, -⟩ := occurrenceAhead?_eq_some_iff.mp found
  obtain ⟨occursLater, -⟩ := occurrenceAhead?_eq_some_iff.mp foundLater
  exact last_lt_first_of_year_lt occurs occursLater (by omega)

end Season

namespace WeeklyRule

variable {rule : WeeklyRule} {today date : Date}

/-- All dates of an open range are within the season of the rule. -/
theorem season_of_mem_openRanges {start : Date} {range : DateRange} {season : Season}
    (listed : range ∈ rule.openRanges start) (holds : range.Holds date)
    (limited : rule.season = some season) : season.contains date.annualDay = true := by
  unfold openRanges at listed
  rw [limited] at listed
  obtain ⟨occurrence, searched, rfl⟩ := List.mem_map.mp listed
  -- What is searched of an occurrence belongs to it.
  obtain ⟨ahead, -, found, -⟩ := Season.mem_searchedOccurrences_iff.mp searched
  have occurs := (Season.occurrenceAhead?_eq_some_iff.mp found).1
  exact Season.contains_of_occurrence? occurs (laterDate_le_iff.mp holds.1).1 holds.2

/-- The open ranges of a rule follow each other. -/
theorem pairwise_openRanges (rule : WeeklyRule) (start : Date) :
    (rule.openRanges start).Pairwise DateRange.Precedes := by
  unfold openRanges
  cases rule.season with
  | none =>
    -- There is one range at most.
    cases start.addDays? searchDays with
    | none => exact List.Pairwise.nil
    | some horizon => exact List.pairwise_singleton _ _
  | some season =>
    have ordered := (season.pairwise_occurrencesFrom start).sublist
      (List.take_sublist searchedOccurrences _)
    refine ordered.map _ fun range other precedes => ?_
    -- A later beginning is all the more behind the end of the range in front.
    exact Int.lt_of_lt_of_le precedes (laterDate_le_iff.mp (Int.le_refl _)).1

/-- A search range is what the last year of a rule leaves of an open range. -/
theorem exists_openRange_of_mem_searchRanges {range : DateRange}
    (listed : range ∈ rule.searchRanges today) :
    ∃ start bound openRange, rule.yearBounds? today = some (start, bound) ∧
      openRange ∈ rule.openRanges start ∧ range.first = openRange.first ∧ range.first ≤ range.last ∧
        ∀ date, date ≤ range.last →
          (∀ last, bound = some last → date ≤ last) ∧ date ≤ openRange.last := by
  unfold searchRanges at listed
  cases bounded : rule.yearBounds? today with
  | none => simp [bounded] at listed
  | some bounds =>
    obtain ⟨start, bound⟩ := bounds
    simp only [bounded, List.mem_filter, List.mem_map, decide_eq_true_eq] at listed
    obtain ⟨⟨openRange, member, rfl⟩, filled⟩ := listed
    exact ⟨start, bound, openRange, rfl, member, rfl, filled, fun _ => le_cut_iff.mp⟩

/-- The search ranges of a rule follow each other. -/
theorem pairwise_searchRanges (rule : WeeklyRule) (today : Date) :
    (rule.searchRanges today).Pairwise DateRange.Precedes := by
  unfold searchRanges
  cases rule.yearBounds? today with
  | none => exact List.Pairwise.nil
  | some bounds =>
    obtain ⟨start, bound⟩ := bounds
    refine List.Pairwise.filter _ ((rule.pairwise_openRanges start).map _ ?_)
    intro range other precedes
    -- An end that is cut short is all the more in front of the beginning of the range behind.
    have ending : bound.elim range.last (earlierDate range.last) ≤ range.last :=
      (le_cut_iff.mp (Int.le_refl _)).2
    exact Int.lt_of_le_of_lt ending precedes

/-- Search ranges are not empty, and none of them begins in the past. -/
theorem bounds_of_mem_searchRanges {range : DateRange} (listed : range ∈ rule.searchRanges today) :
    range.first ≤ range.last ∧ today ≤ range.first := by
  obtain ⟨start, bound, openRange, bounded, member, sameFirst, filled, -⟩ :=
    exists_openRange_of_mem_searchRanges listed
  exact ⟨filled, sameFirst ▸ Int.le_trans (le_of_yearBounds? bounded)
    (le_first_of_mem_openRanges member)⟩

/-- A rule permits all dates of its search ranges. -/
theorem permits_of_mem_searchRanges {range : DateRange} (listed : range ∈ rule.searchRanges today)
    (holds : range.Holds date) : rule.Permits date := by
  obtain ⟨start, bound, openRange, bounded, member, sameFirst, -, cut⟩ :=
    exists_openRange_of_mem_searchRanges listed
  obtain ⟨untilBound, inside⟩ := cut date holds.2
  have begun : openRange.first ≤ date := sameFirst ▸ holds.1
  constructor
  case season =>
    exact fun season limited => season_of_mem_openRanges member ⟨begun, inside⟩ limited
  case years =>
    -- The date lies between the first and the last date of the years.
    obtain ⟨opening, closing, always, within, -⟩ := rule.exists_yearLimits
    cases (always today).symm.trans bounded
    refine (within date).mpr ⟨?_, untilBound⟩
    rintro first rfl
    exact (laterDate_le_iff.mp (Int.le_trans (le_first_of_mem_openRanges member) begun)).2

/--
The search ranges of a rule are not empty, follow each other, and hold no date in the past.

They hold only dates that the rule permits. Away from the ends of the calendar, each such date of
the next 365 days is in exactly one of them.
-/
theorem searchRanges_exact (rule : WeeklyRule) (today : Date) :
    (∀ range ∈ rule.searchRanges today, range.first ≤ range.last ∧ today ≤ range.first ∧
      ∀ date, range.Holds date → rule.Permits date) ∧
    (rule.searchRanges today).Pairwise DateRange.Precedes ∧
    (-262142 ≤ today.year → today.year ≤ 262140 → ∀ date, today ≤ date →
      date.number ≤ today.number + 365 → rule.Permits date →
        ∃! range, range ∈ rule.searchRanges today ∧ range.Holds date) := by
  have ordered := rule.pairwise_searchRanges today
  refine ⟨?_, ordered, ?_⟩
  · intro range listed
    obtain ⟨filled, notPast⟩ := bounds_of_mem_searchRanges listed
    exact ⟨filled, notPast, fun date holds => permits_of_mem_searchRanges listed holds⟩
  · intro earliest latest date after near permits
    obtain ⟨range, listed, holds⟩ := searches_of_permits permits after near earliest latest
    refine ⟨range, ⟨listed, holds⟩, ?_⟩
    rintro other ⟨listedToo, holdsToo⟩
    exact (DateRange.eq_of_pairwise ordered listed holds listedToo holdsToo).symm

/-- A winter between days that no year has is searched from December and up to a last February. -/
theorem searchRanges_exact_winter :
    let winter : Season :=
      ⟨⟨.november, 31, by decide, by decide⟩, ⟨.february, 30, by decide, by decide⟩⟩
    let rule : WeeklyRule :=
      ⟨.monday, Hours.wholeDay, some winter, some ⟨.ofNat 2020, some (.ofNat 2022)⟩⟩
    let today : Date := ⟨737830, by decide, by decide⟩
    let january : Date := ⟨738169, by decide, by decide⟩
    rule.searchRanges today = [⟨today, ⟨737848, by decide, by decide⟩⟩,
      ⟨⟨738124, by decide, by decide⟩, ⟨738213, by decide, by decide⟩⟩] ∧
    (-262142 ≤ today.year ∧ today.year ≤ 262140 ∧ today ≤ january ∧
      january.number ≤ today.number + 365 ∧ rule.Permits january) ∧
    ∃! range, range ∈ rule.searchRanges today ∧ range.Holds january := by
  intro winter rule today january
  have permits : rule.Permits january := by
    constructor
    · rintro _ ⟨⟩
      decide +kernel
    · rintro _ ⟨⟩
      decide +kernel
  have within : -262142 ≤ today.year ∧ today.year ≤ 262140 ∧ today ≤ january ∧
      january.number ≤ today.number + 365 := by decide +kernel
  obtain ⟨earliest, latest, after, near⟩ := within
  exact ⟨by decide +kernel, ⟨earliest, latest, after, near, permits⟩,
    (searchRanges_exact rule today).2.2 earliest latest january after near permits⟩

end WeeklyRule

end OpeningTimes
