import OpeningTimes.Proofs.Calendar.DateBounds
import OpeningTimes.Timetable.SearchRange

/-! A rule is searched on every date of the coming year that is within its limits. -/

namespace OpeningTimes

/-- The later one of two dates is reached when both are. -/
theorem laterDate_le_iff {left right date : Date} :
    laterDate left right ≤ date ↔ left ≤ date ∧ right ≤ date := by
  unfold laterDate
  split
  · rename_i ordered
    exact ⟨fun after => ⟨Int.le_trans ordered after, after⟩, And.right⟩
  · rename_i reversed
    rw [Date.le_iff_number] at reversed
    simp only [Date.le_iff_number]
    omega

/-- The later one of two dates is one of them. -/
theorem laterDate_eq_or (left right : Date) :
    laterDate left right = left ∨ laterDate left right = right := by
  unfold laterDate
  split
  · exact .inr rfl
  · exact .inl rfl

/-- A date does not exceed the earlier one of two dates when it exceeds neither. -/
theorem le_earlierDate_iff {left right date : Date} :
    date ≤ earlierDate left right ↔ date ≤ left ∧ date ≤ right := by
  unfold earlierDate
  split
  · rename_i ordered
    exact ⟨fun before => ⟨before, Int.le_trans before ordered⟩, And.left⟩
  · rename_i reversed
    rw [Date.le_iff_number] at reversed
    simp only [Date.le_iff_number]
    omega

/-- An end that may be cut short goes up to the earlier one of both ends. -/
theorem le_cut_iff {date ending : Date} {bound : Option Date} :
    date ≤ bound.elim ending (earlierDate ending) ↔
      (∀ last, bound = some last → date ≤ last) ∧ date ≤ ending := by
  cases bound with
  | none => simp
  | some last => simp [le_earlierDate_iff, and_comm]

/-- A value is among the first ones found when few of the places in front of it have a value. -/
theorem mem_take_filterMap_range {Value : Type} {find : Nat → Option Value} {count limit : Nat}
    {value : Value} : value ∈ ((List.range count).filterMap find).take limit ↔
      ∃ place < count, find place = some value ∧
        (List.range place).countP (fun earlier => (find earlier).isSome) < limit := by
  induction count with
  | zero => simp
  | succ count ih =>
    rw [List.range_succ, List.filterMap_append, List.take_append, List.mem_append, ih,
      List.length_filterMap_eq_countP]
    simp only [Nat.lt_succ_iff_lt_or_eq, or_and_right, exists_or, exists_eq_left]
    refine or_congr Iff.rfl ?_
    -- The last place is reached when those in front of it leave room.
    cases found : find count with
    | none => simp [found]
    | some other =>
      rw [List.filterMap_cons_some found, List.filterMap_nil, Option.some_inj]
      by_cases room : (List.range count).countP (fun earlier => (find earlier).isSome) < limit
      · rw [List.take_of_length_le (by rw [List.length_singleton]; omega), List.mem_singleton,
          and_iff_left room, eq_comm]
      · rw [show limit - _ = 0 by omega, List.take_zero]
        exact iff_of_false List.not_mem_nil (fun reached => room reached.2)

namespace Season

/-- A season that wraps ends before it begins. -/
theorem last_lt_first {season : Season} (wraps : season.wraps = true) :
    season.last < season.first := by
  unfold Window.wraps at wraps
  simpa using wraps

/-- The dates of an occurrence lie between the bounds of its two years. -/
theorem occurrence?_eq_some_iff {season : Season} {year : Int} {first last : Date} :
    season.occurrence? year = some (first, last) ↔
      Date.firstFrom? year season.first = some first ∧
        Date.lastUntil? (if season.wraps then year + 1 else year) season.last = some last ∧
          first ≤ last := by
  unfold occurrence?
  constructor
  · -- Both bounds are found, and they are in order.
    intro found
    split at found
    · rename_i start stop starts stops
      split at found
      · rename_i ordered
        cases found
        exact ⟨starts, stops, ordered⟩
      · contradiction
    · contradiction
  · rintro ⟨starts, stops, ordered⟩
    simp only [starts, stops, if_pos ordered]

/-- An occurrence begins in its year, and ends there or, past the new year, in the next one. -/
theorem occurrence?_years {season : Season} {year : Int} {first last : Date}
    (occurs : season.occurrence? year = some (first, last)) :
    first.year = year ∧ last.year = if season.wraps then year + 1 else year := by
  obtain ⟨starts, stops, -⟩ := occurrence?_eq_some_iff.mp occurs
  exact ⟨(Date.firstFrom?_spec starts).1, (Date.lastUntil?_spec stops).1⟩

/-- Where a date lies between the bounds, these are in order and make an occurrence. -/
theorem occurrence?_of_between {season : Season} {year : Int} {first last date : Date}
    (starts : Date.firstFrom? year season.first = some first)
    (stops : Date.lastUntil? (if season.wraps then year + 1 else year) season.last = some last)
    (begun : first ≤ date) (running : date ≤ last) :
    season.occurrence? year = some (first, last) :=
  occurrence?_eq_some_iff.mpr ⟨starts, stops, Int.le_trans begun running⟩

/--
A date within a season belongs to an occurrence.

That is the one that begins in the year of the date or, past the new year, in the year before.
-/
theorem exists_occurrence {season : Season} {date : Date} (earliest : -262142 ≤ date.year)
    (latest : date.year ≤ 262141) (inSeason : season.contains date.annualDay = true) :
    ∃ year first last, season.occurrence? year = some (first, last) ∧ first ≤ date ∧ date ≤ last ∧
      (year = date.year ∧ season.first ≤ date.annualDay ∨
        year = date.year - 1 ∧ season.wraps = true) := by
  rw [Window.contains_iff] at inSeason
  -- The bounds of a year always exist, only their order is left to show.
  have starts (year : Int) (low : -262143 ≤ year) (high : year ≤ 262142) :=
    Date.exists_firstFrom? low high season.first
  have stops (year : Int) (low : -262143 ≤ year) (high : year ≤ 262142) :=
    Date.exists_lastUntil? low high season.last
  cases wraps : season.wraps with
  | false =>
    -- Both bounds are in the year of the date.
    rw [wraps, if_neg Bool.false_ne_true] at inSeason
    obtain ⟨first, foundFirst, -, afterFirst⟩ := starts date.year (by omega) (by omega)
    obtain ⟨last, foundLast, -, beforeLast⟩ := stops date.year (by omega) (by omega)
    have begun := (afterFirst date rfl).mpr inSeason.1
    have running := (beforeLast date rfl).mpr inSeason.2
    refine ⟨date.year, first, last, occurrence?_of_between foundFirst ?_ begun running, begun,
      running, .inl ⟨rfl, inSeason.1⟩⟩
    rw [wraps]
    exact foundLast
  | true =>
    rw [wraps, if_pos rfl] at inSeason
    rcases inSeason with begins | ends
    · -- The occurrence of this year ends in the next one, which all of this year precedes.
      obtain ⟨first, foundFirst, -, afterFirst⟩ := starts date.year (by omega) (by omega)
      obtain ⟨last, foundLast, lastYear, -⟩ := stops (date.year + 1) (by omega) (by omega)
      have begun := (afterFirst date rfl).mpr begins
      have running := Int.le_of_lt (Date.lt_of_year_lt (show date.year < last.year by omega))
      refine ⟨date.year, first, last, occurrence?_of_between foundFirst ?_ begun running, begun,
        running, .inl ⟨rfl, begins⟩⟩
      rw [wraps]
      exact foundLast
    · -- The occurrence of the year before is still running.
      obtain ⟨first, foundFirst, firstYear, -⟩ := starts (date.year - 1) (by omega) (by omega)
      obtain ⟨last, foundLast, -, beforeLast⟩ := stops date.year (by omega) (by omega)
      have running := (beforeLast date rfl).mpr ends
      have begun := Int.le_of_lt (Date.lt_of_year_lt (show first.year < date.year by omega))
      refine ⟨date.year - 1, first, last, occurrence?_of_between foundFirst ?_ begun running, begun,
        running, .inr ⟨rfl, rfl⟩⟩
      rw [wraps, if_pos rfl, Int.sub_add_cancel]
      exact foundLast

/-- The occurrence that begins some years after the one before a date, unless it is over. -/
def occurrenceAhead? (season : Season) (date : Date) (ahead : Nat) : Option DateRange :=
  match season.occurrence? (date.year - 1 + ahead) with
  | some (first, last) => if date ≤ last then some ⟨first, last⟩ else none
  | none => none

/-- An occurrence lies ahead when it is not over. -/
theorem occurrenceAhead?_eq_some_iff {season : Season} {date : Date} {ahead : Nat}
    {range : DateRange} :
    season.occurrenceAhead? date ahead = some range ↔
      season.occurrence? (date.year - 1 + ahead) = some (range.first, range.last) ∧
        date ≤ range.last := by
  unfold occurrenceAhead?
  -- The occurrence is the one of that year, and it is not over.
  constructor
  · intro found
    split at found
    · rename_i first last occurs
      split at found
      · rename_i lasting
        cases found
        exact ⟨occurs, lasting⟩
      · contradiction
    · contradiction
  · rintro ⟨occurs, lasting⟩
    simp only [occurs, if_pos lasting]

/-- An occurrence is searched when at most one of those in front of it lies ahead. -/
theorem mem_searchedOccurrences_iff {season : Season} {date : Date} {range : DateRange} :
    range ∈ (season.occurrencesFrom date).take searchedOccurrences ↔
      ∃ ahead < 6, season.occurrenceAhead? date ahead = some range ∧
        (List.range ahead).countP (fun earlier => (season.occurrenceAhead? date earlier).isSome) <
          searchedOccurrences :=
  mem_take_filterMap_range

/--
One of the first two occurrences is searched.

So is the third one when the first one is over.
-/
theorem mem_searchedOccurrences {season : Season} {date : Date} {range : DateRange} {ahead : Nat}
    (found : season.occurrenceAhead? date ahead = some range) (near : ahead ≤ 2)
    (third : ahead = 2 → season.occurrenceAhead? date 0 = none) :
    range ∈ (season.occurrencesFrom date).take searchedOccurrences := by
  refine mem_searchedOccurrences_iff.mpr ⟨ahead, by omega, found, ?_⟩
  unfold searchedOccurrences
  -- It has fewer than two occurrences in front of it.
  by_cases isThird : ahead = 2
  · subst isThird
    rw [show List.range 2 = [0, 1] from rfl, List.countP_cons_of_neg (by simp [third rfl])]
    exact Nat.lt_succ_of_le List.countP_le_length
  · have before := List.countP_le_length (l := List.range ahead)
      (p := fun earlier => (season.occurrenceAhead? date earlier).isSome)
    rw [List.length_range] at before
    omega

/--
The occurrence of the year before a date is over in time.

That is so when the season begins within the next 365 days, in the year after that date.
-/
theorem occurrenceAhead?_zero_eq_none {season : Season} {start date : Date}
    (earliest : -262142 ≤ start.year) (near : date.number ≤ start.number + 365)
    (nextYear : date.year = start.year + 1) (begins : season.first ≤ date.annualDay) :
    season.occurrenceAhead? start 0 = none := by
  cases earlier : season.occurrenceAhead? start 0 with
  | none => rfl
  | some range =>
    obtain ⟨occurred, stillRunning⟩ := occurrenceAhead?_eq_some_iff.mp earlier
    obtain ⟨-, foundLast, -⟩ := occurrence?_eq_some_iff.mp occurred
    have bounds := start.year_bounds
    cases wraps : season.wraps with
    | false =>
      -- Without passing the new year it ended in the year before the start.
      rw [wraps, if_neg Bool.false_ne_true] at foundLast
      obtain ⟨stop, found, stopYear, -⟩ := Date.exists_lastUntil?
        (show -262143 ≤ start.year - 1 + (0 : Nat) by omega) (by omega) season.last
      rw [foundLast, Option.some.injEq] at found
      have := Date.year_le_of_le stillRunning
      rw [found, stopYear] at this
      omega
    | true =>
      -- Otherwise a whole year would pass between the start and the date.
      rw [wraps, if_pos rfl] at foundLast
      obtain ⟨stop, found, stopYear, untilStop⟩ := Date.exists_lastUntil?
        (show -262143 ≤ start.year - 1 + (0 : Nat) + 1 by omega) (by omega) season.last
      rw [foundLast, Option.some.injEq] at found
      rw [found] at stillRunning
      have startInSeason := (untilStop start (by omega)).mp stillRunning
      have gap := last_lt_first wraps
      have ordered : start.annualDay < date.annualDay := by
        rw [AnnualDay.lt_iff_rank, AnnualDay.le_iff_rank] at *
        omega
      have distant := Date.lt_of_annualDay_lt nextYear ordered
      omega

/-- The occurrences searched from a date on reach the season within the next 365 days. -/
theorem exists_searchedOccurrence {season : Season} {start date : Date}
    (earliest : -262142 ≤ start.year) (latest : date.year ≤ 262141) (after : start ≤ date)
    (near : date.number ≤ start.number + 365) (inSeason : season.contains date.annualDay = true) :
    ∃ range ∈ (season.occurrencesFrom start).take searchedOccurrences,
      range.first ≤ date ∧ date ≤ range.last := by
  have notEarlier := Date.year_le_of_le after
  have nextYear := Date.year_le_add_one near
  obtain ⟨year, first, last, occurs, begun, running, place⟩ :=
    exists_occurrence (by omega) latest inSeason
  have lasting : start ≤ last := Int.le_trans after running
  -- Its year is the one before the start, that of the start or the one behind it.
  obtain ⟨ahead, counted⟩ : ∃ ahead : Nat, year = start.year - 1 + ahead :=
    ⟨(year - (start.year - 1)).toNat, by omega⟩
  rw [counted] at occurs
  have found : season.occurrenceAhead? start ahead = some ⟨first, last⟩ :=
    occurrenceAhead?_eq_some_iff.mpr ⟨occurs, lasting⟩
  refine ⟨_, mem_searchedOccurrences found (by omega) (fun isThird => ?_), begun, running⟩
  -- A third occurrence begins in the year after the start, when the first one is over.
  rcases place with ⟨same, begins⟩ | ⟨before, -⟩
  · exact occurrenceAhead?_zero_eq_none earliest near (by omega) begins
  · omega

end Season

namespace WeeklyRule

/-- A rule is searched on the dates of its search ranges. -/
def Searches (rule : WeeklyRule) (today date : Date) : Prop :=
  ∃ range ∈ rule.searchRanges today, range.first ≤ date ∧ date ≤ range.last

/-- A rule is searched on the dates of its open ranges that do not exceed the end of its years. -/
theorem searches_iff {rule : WeeklyRule} {today date : Date} :
    rule.Searches today date ↔ ∃ start bound, rule.yearBounds? today = some (start, bound) ∧
      (∀ last, bound = some last → date ≤ last) ∧
        ∃ range ∈ rule.openRanges start, range.first ≤ date ∧ date ≤ range.last := by
  unfold Searches searchRanges
  cases bounded : rule.yearBounds? today with
  | none => simp
  | some bounds =>
    obtain ⟨start, bound⟩ := bounds
    simp only [List.mem_filter, List.mem_map, decide_eq_true_eq]
    constructor
    · rintro ⟨range, ⟨⟨range, listed, rfl⟩, -⟩, begun, running⟩
      obtain ⟨within, untilEnd⟩ := le_cut_iff.mp running
      exact ⟨start, bound, rfl, within, range, listed, begun, untilEnd⟩
    · -- A range with a date in it is not an empty one.
      rintro ⟨start, bound, ⟨⟩, within, range, listed, begun, untilEnd⟩
      have running := le_cut_iff.mpr ⟨within, untilEnd⟩
      exact ⟨_, ⟨⟨range, listed, rfl⟩, Int.le_trans begun running⟩, begun, running⟩

/-- A rule permits the dates of its season and its years, on whatever weekday they fall. -/
structure Permits (rule : WeeklyRule) (date : Date) : Prop where
  /-- The date is within the season, if there is one. -/
  season : ∀ season, rule.season = some season → season.contains date.annualDay = true
  /-- The date is within the years, if there are any. -/
  years : ∀ years, rule.years = some years → years.contains date.year = true

/-- A rule applies on the dates of its weekday that it permits. -/
theorem appliesOn_iff {rule : WeeklyRule} {date : Date} :
    rule.appliesOn date = true ↔ date.weekday = rule.day ∧ rule.Permits date := by
  have limits : rule.Permits date ↔ rule.season.all (·.contains date.annualDay) = true ∧
      rule.years.all (·.contains date.year) = true := by
    rw [Option.all_eq_true, Option.all_eq_true]
    exact ⟨fun permits => ⟨permits.season, permits.years⟩, fun within => ⟨within.1, within.2⟩⟩
  rw [limits]
  simp [appliesOn, and_assoc]

/-- The years that a rule can name are all supported, so they have a first date. -/
theorem exists_newYear (year : UInt16) :
    ∃ first, Date.ofYearMonthDay? year.toNat .january 1 = some first := by
  have small := year.toNat_lt
  exact Date.exists_ofYearMonthDay? (by omega) (by omega) .january (Nat.le_refl 1)
    (Nat.le_trans (by decide) (Month.january.le_length _))

/-- The years that a rule can name have a last date too. -/
theorem exists_yearEnd (year : UInt16) :
    ∃ last, Date.ofYearMonthDay? year.toNat .december 31 = some last := by
  have small := year.toNat_lt
  exact Date.exists_ofYearMonthDay? (by omega) (by omega) .december (show 1 ≤ 31 by decide)
    (Nat.le_refl 31)

/--
The years of a rule bound its search by their first and last dates.

These do not depend on the day in question, from which the search starts unless they come later.
-/
theorem exists_yearLimits (rule : WeeklyRule) :
    ∃ opening closing : Option Date,
      (∀ today, rule.yearBounds? today = some (opening.elim today (laterDate today), closing)) ∧
      (∀ date : Date, (∀ years, rule.years = some years → years.contains date.year = true) ↔
        (∀ first, opening = some first → first ≤ date) ∧
          ∀ last, closing = some last → date ≤ last) ∧
      ∀ first, opening = some first → first.year ≤ 65535 := by
  unfold yearBounds?
  cases limited : rule.years with
  | none =>
    -- Without years the search starts at once and is not cut.
    exact ⟨none, none, fun _ => rfl, by simp, by simp⟩
  | some years =>
    obtain ⟨first, found⟩ := exists_newYear years.first
    have firstYear := (Date.ofYearMonthDay?_eq_some_iff.mp found).1
    have small := years.first.toNat_lt
    have short : first.year ≤ 65535 := by omega
    simp only [found, Option.bind_eq_bind, Option.bind_some, Option.pure_def, Option.some.injEq,
      forall_eq', Years.contains, Bool.and_eq_true, decide_eq_true_eq]
    cases ending : years.last with
    | none =>
      refine ⟨some first, none, fun _ => rfl, fun date => ?_, by simpa using short⟩
      simp [Date.newYear_le_iff found]
    | some final =>
      -- The search is cut at the end of the last year.
      obtain ⟨last, foundLast⟩ := exists_yearEnd final
      refine ⟨some first, some last, fun today => ?_, fun date => ?_, by simpa using short⟩
      · simp only [foundLast, Option.bind_some, Option.elim_some]
      · simp [Date.newYear_le_iff found, Date.le_yearEnd_iff foundLast]

/-- The search of a rule does not start in the past. -/
theorem le_of_yearBounds? {rule : WeeklyRule} {today start : Date} {bound : Option Date}
    (bounded : rule.yearBounds? today = some (start, bound)) : today ≤ start := by
  obtain ⟨opening, closing, always, -⟩ := rule.exists_yearLimits
  cases (always today).symm.trans bounded
  cases opening with
  | none => exact Int.le_refl _
  | some first => exact (laterDate_le_iff.mp (Int.le_refl _)).1

/-- On a date that a rule permits, its search has started, and it goes on until then. -/
theorem exists_yearBounds {rule : WeeklyRule} {today date : Date}
    (permits : rule.Permits date) (after : today ≤ date) :
    ∃ start bound, rule.yearBounds? today = some (start, bound) ∧ today ≤ start ∧ start ≤ date ∧
      (∀ last, bound = some last → date ≤ last) ∧ (start = today ∨ start.year ≤ 65535) := by
  obtain ⟨opening, closing, bounded, within, small⟩ := rule.exists_yearLimits
  obtain ⟨begun, running⟩ := (within date).mp permits.years
  refine ⟨_, closing, bounded today, ?_⟩
  cases opening with
  | none => exact ⟨Int.le_refl _, after, running, .inl rfl⟩
  | some first =>
    -- The search starts today or with the first of these years, whichever comes later.
    have notEarlier := (laterDate_le_iff.mp (Int.le_refl (laterDate today first).number)).1
    have notLater := laterDate_le_iff.mpr ⟨after, begun first rfl⟩
    refine ⟨notEarlier, notLater, running, ?_⟩
    rw [Option.elim_some]
    rcases laterDate_eq_or today first with same | same
    · exact .inl same
    · rw [same]
      exact .inr (small first rfl)

/-- No open range begins in front of the start of the search. -/
theorem le_first_of_mem_openRanges {rule : WeeklyRule} {start : Date} {range : DateRange}
    (listed : range ∈ rule.openRanges start) : start ≤ range.first := by
  unfold openRanges at listed
  cases limited : rule.season with
  | none =>
    simp only [limited, Option.mem_toList, Option.map_eq_some_iff] at listed
    obtain ⟨horizon, -, rfl⟩ := listed
    exact Int.le_refl _
  | some season =>
    -- An occurrence that is running is searched from the start on.
    rw [limited] at listed
    obtain ⟨occurrence, -, rfl⟩ := List.mem_map.mp listed
    exact (laterDate_le_iff.mp (Int.le_refl _)).2

/-- Two years before the end of the calendar, all days searched ahead of a date are supported. -/
theorem exists_horizon {start : Date} (early : start.year ≤ 262140) :
    ∃ untilEnd, start.addDays? searchDays = some untilEnd ∧
      untilEnd.number = start.number + 366 := by
  have bounds := start.number_bounds
  have earliest := start.earliest_le
  have lastDay := daysBeforeYear_latest
  have := daysBeforeYear_add_le (show start.year + 1 ≤ 262143 by omega)
  -- Two more years are left in front of the last supported day.
  let untilEnd : Date := ⟨start.number + 366, by omega, by omega⟩
  exact ⟨untilEnd, Date.addDays?_eq_some_iff.mpr rfl, rfl⟩

/-- Without regard to the end of its years, a rule is searched on every date of its season ahead. -/
theorem exists_openRange {rule : WeeklyRule} {start date : Date} (begun : start ≤ date)
    (near : date.number ≤ start.number + 365) (earliest : -262142 ≤ start.year)
    (latest : start.year ≤ 262140)
    (inSeason : ∀ season, rule.season = some season → season.contains date.annualDay = true) :
    ∃ range ∈ rule.openRanges start, range.first ≤ date ∧ date ≤ range.last := by
  have nextYear := Date.year_le_add_one near
  unfold openRanges
  cases limited : rule.season with
  | none =>
    -- All days of the year ahead are searched.
    obtain ⟨horizon, found, number⟩ := exists_horizon latest
    simp only [found, Option.map_some, Option.toList_some, List.mem_singleton, exists_eq_left]
    refine ⟨begun, ?_⟩
    rw [Date.le_iff_number]
    omega
  | some season =>
    -- The season is searched by its occurrences, none of which begins before the start.
    obtain ⟨range, searched, fromStart, untilEnd⟩ := Season.exists_searchedOccurrence
      earliest (by omega) begun near (inSeason season limited)
    exact ⟨_, List.mem_map.mpr ⟨range, searched, rfl⟩, laterDate_le_iff.mpr ⟨fromStart, begun⟩,
      untilEnd⟩

/--
A rule is searched on every date of the next 365 days that it permits.

Only at the ends of the calendar some of the dates that a search compares with are missing.
-/
theorem searches_of_permits {rule : WeeklyRule} {today date : Date}
    (permits : rule.Permits date) (after : today ≤ date)
    (near : date.number ≤ today.number + 365) (earliest : -262142 ≤ today.year)
    (latest : today.year ≤ 262140) : rule.Searches today date := by
  obtain ⟨start, bound, bounded, notEarlier, begun, running, place⟩ :=
    exists_yearBounds permits after
  have startYear := Date.year_le_of_le notEarlier
  have startNumber := Date.le_iff_number.mp notEarlier
  have startLatest : start.year ≤ 262140 := by
    rcases place with rfl | small
    · exact latest
    · omega
  obtain ⟨range, member, fromStart, untilEnd⟩ :=
    exists_openRange begun (by omega) (by omega) startLatest permits.season
  exact searches_iff.mpr ⟨start, bound, bounded, running, range, member, fromStart, untilEnd⟩

end WeeklyRule

end OpeningTimes
