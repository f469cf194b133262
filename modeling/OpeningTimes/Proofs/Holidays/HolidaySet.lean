import OpeningTimes.Holidays.HolidaySet
import OpeningTimes.Proofs.Holidays.DateText
import Mathlib.Data.List.Forall2

/-!
Sets of holidays are read from the texts of their dates, in whatever order and however often.

One text that names no date is enough to refuse all of them.
-/

namespace OpeningTimes

/-- A text names a date if it names any. -/
def NamesDate (text : List Char) : Prop :=
  ∃ date : Date, date.NamedBy text

/-- A text that names no date is not read as one. -/
theorem read?_eq_none_iff {text : List Char} : Date.read? text = none ↔ ¬ NamesDate text := by
  unfold NamesDate
  simp only [← Date.read?_eq_some_iff, Option.eq_none_iff_forall_ne_some, not_exists]

namespace HolidaySet

/-- The dates that texts name are read from them in order. -/
theorem readDates_eq_ok {dates : List Date} {texts : List (List Char)}
    (named : List.Forall₂ Date.NamedBy dates texts) : readDates texts = .ok dates := by
  induction named with
  | nil => rfl
  | cons first _ ih => simp [readDates, first.read?, ih, Except.map]

/-- The first text that names no date is refused, whatever follows it. -/
theorem readDates_eq_error {front : List (List Char)} {bad : List Char}
    (named : ∀ text ∈ front, NamesDate text) (unnamed : ¬ NamesDate bad)
    (back : List (List Char)) : readDates (front ++ bad :: back) = .error ⟨bad⟩ := by
  induction front with
  | nil => simp [readDates, read?_eq_none_iff.mpr unnamed]
  | cons first rest ih =>
    rw [List.forall_mem_cons] at named
    obtain ⟨⟨date, isDate⟩, others⟩ := named
    -- The dates in front are read, but they are given up for the text behind them.
    simp [readDates, isDate.read?, ih others, Except.map]

/-- Among texts that do not all name dates there is a first one that names none. -/
theorem exists_first_unnamed {texts : List (List Char)} (someUnnamed : ∃ text ∈ texts, ¬ NamesDate text) :
    ∃ front bad back, texts = front ++ bad :: back ∧ (∀ text ∈ front, NamesDate text) ∧
      ¬ NamesDate bad := by
  obtain ⟨text, listed, unnamed⟩ := someUnnamed
  -- Reading decides which texts name dates, so the first one that is not read can be found.
  have anyUnread : (texts.find? fun text => (Date.read? text).isNone).isSome = true := by
    rw [List.find?_isSome]
    exact ⟨text, listed, by simp [read?_eq_none_iff.mpr unnamed]⟩
  obtain ⟨bad, found⟩ := Option.isSome_iff_exists.mp anyUnread
  obtain ⟨unread, front, back, same, inFront⟩ := List.find?_eq_some_iff_append.mp found
  refine ⟨front, bad, back, same, fun text listed => ?_, ?_⟩
  · have read := inFront text listed
    by_contra nothing
    simp [read?_eq_none_iff.mpr nothing] at read
  · exact read?_eq_none_iff.mp (Option.isNone_iff_eq_none.mp unread)

/-- The holidays from a date on are those of the set that are not earlier. -/
theorem mem_startingAt {holidays : HolidaySet} {first date : Date} :
    date ∈ holidays.startingAt first ↔ first ≤ date ∧ date ∈ holidays.dates := by
  simp [startingAt, and_comm]

/-- The holidays from a date on come in increasing order. -/
theorem pairwise_startingAt (holidays : HolidaySet) (first : Date) :
    (holidays.startingAt first).Pairwise (· < ·) :=
  holidays.sorted.filter _

/--
Texts that write dates are read as the set of these dates, which is listed in order from any date on.

Otherwise the first text that names no date is refused as it stands, with the blanks around it.
-/
theorem read_writtenDates (texts : List (List Char)) :
    (∀ dates, List.Forall₂ Date.WrittenAs dates texts →
      read texts = .ok (ofList dates) ∧
        (∀ date, (ofList dates).contains date = true ↔ date ∈ dates) ∧
        ∀ first, ((ofList dates).startingAt first).Pairwise (· < ·) ∧
          ∀ date, date ∈ (ofList dates).startingAt first ↔ first ≤ date ∧ date ∈ dates) ∧
    ((∃ text ∈ texts, ¬ NamesDate text) →
      ∃ front bad back, texts = front ++ bad :: back ∧ (∀ text ∈ front, NamesDate text) ∧
        ¬ NamesDate bad ∧ read texts = .error ⟨bad⟩) := by
  constructor
  · intro dates written
    have named := written.imp fun _ _ isWritten => Date.WrittenAs.namedBy isWritten
    refine ⟨?_, ?_, ?_⟩
    · rw [read, readDates_eq_ok named]
      rfl
    · -- The set has the dates of the list, and no others.
      intro date
      rw [contains_iff, mem_ofList]
    · intro first
      refine ⟨pairwise_startingAt _ first, fun date => ?_⟩
      rw [mem_startingAt, mem_ofList]
  · intro someUnnamed
    obtain ⟨front, bad, back, same, inFront, unnamed⟩ := exists_first_unnamed someUnnamed
    refine ⟨front, bad, back, same, inFront, unnamed, ?_⟩
    rw [same, read, readDates_eq_error inFront unnamed]
    rfl

namespace LeapDays

/-- A leap day that is written with a plus. -/
def late : Date :=
  ⟨4508246, by decide, by decide⟩

/-- A leap day that is written with a minus. -/
def early : Date :=
  ⟨-1768, by decide, by decide⟩

/-- Texts of the two days, one of which comes twice. -/
def texts : List (List Char) :=
  ["\u2003+12344-02-29\n".toList, "-0004-02-29".toList, " +12344-02-29".toList]

/-- The texts write the days. -/
theorem written : List.Forall₂ Date.WrittenAs [late, early, late] texts := by
  have lateYear : YearWritten ('+' :: "12344".toList) late.year := by
    rw [show late.year = (12344 : Nat) by decide]
    exact .later rfl (by decide) (by decide)
  have earlyYear : YearWritten ('-' :: "0004".toList) early.year := by
    rw [show early.year = -(4 : Nat) by decide]
    exact .earlier rfl (by decide) (by decide)
  have nothing : isBlankText [] = true := rfl
  have space : isBlankText " ".toList = true := by decide
  have wideSpace : isBlankText "\u2003".toList = true := by decide
  have line : isBlankText "\n".toList = true := by decide
  refine .cons ?_ (.cons ?_ (.cons ?_ .nil))
  · exact Date.WrittenAs.parts wideSpace lateYear line
  · exact Date.WrittenAs.parts nothing earlyYear nothing
  · exact Date.WrittenAs.parts space lateYear nothing

end LeapDays

/-- Two leap days come in order, while a day that is written the other way around is refused. -/
theorem read_writtenDates_leapDays :
    let spoilt := ["2020-12-25".toList, " 25/12/2020".toList, "2021-02-29".toList]
    (List.Forall₂ Date.WrittenAs [LeapDays.late, LeapDays.early, LeapDays.late] LeapDays.texts ∧
      read LeapDays.texts = .ok (ofList [LeapDays.late, LeapDays.early, LeapDays.late]) ∧
        (ofList [LeapDays.late, LeapDays.early, LeapDays.late]).dates =
          [LeapDays.early, LeapDays.late]) ∧
    (∃ text ∈ spoilt, ¬ NamesDate text) ∧ read spoilt = .error ⟨" 25/12/2020".toList⟩ ∧
      ∃ front bad back, spoilt = front ++ bad :: back ∧ read spoilt = .error ⟨bad⟩ := by
  intro spoilt
  have unnamed : ∃ text ∈ spoilt, ¬ NamesDate text :=
    ⟨" 25/12/2020".toList, by decide, read?_eq_none_iff.mp (by decide)⟩
  obtain ⟨found, -⟩ := (read_writtenDates LeapDays.texts).1 _ LeapDays.written
  obtain ⟨front, bad, back, same, -, -, refused⟩ := (read_writtenDates spoilt).2 unnamed
  exact ⟨⟨LeapDays.written, found, by decide⟩, unnamed, by decide, front, bad, back, same, refused⟩

end HolidaySet

end OpeningTimes
