import OpeningTimes.Holidays.DateText
import OpeningTimes.Proofs.Calendar.YearMonthDay
import OpeningTimes.Proofs.Text.Blank
import OpeningTimes.Proofs.Text.Decimal

/-!
A text is read as a date exactly when it gives a year, a month and a day that exist.

So a date is read back from its own text, whatever blanks stand around it.
-/

namespace OpeningTimes

section Numbers

variable {limit number : Nat} {text before digits rest : List Char}

/-- A number stands in front of a text that does not go on with digits. -/
theorem leadingNumber?_append (reads : readDecimal? digits = some number)
    (short : digits.length ≤ limit) (ended : StartsOutside Char.isDigit rest) :
    leadingNumber? limit (digits ++ rest) = some (number, rest) := by
  have all := (readDecimal?_eq_some_iff.mp reads).1.2
  -- The digits lie within the limit, and none of those behind them is a digit.
  have taken : ((digits ++ rest).take limit).takeWhile Char.isDigit = digits := by
    rw [List.take_append, List.take_of_length_le short,
      List.takeWhile_append_of_pos (List.all_eq_true.mp all)]
    cases rest with
    | nil => simp
    | cons c others =>
      have noDigit := startsOutside_cons.mp ended
      cases limit - digits.length <;> simp [noDigit]
  unfold leadingNumber? splitDigits
  simp only [taken, List.drop_left, reads, Option.map_some]

/-- A number that is found in front of a text is written there in digits. -/
theorem exists_digits_of_leadingNumber? (found : leadingNumber? limit text = some (number, rest)) :
    ∃ digits, text = digits ++ rest ∧ readDecimal? digits = some number ∧
      digits.length ≤ limit := by
  unfold leadingNumber? splitDigits at found
  obtain ⟨value, reads, same⟩ := Option.map_eq_some_iff.mp found
  cases same
  have inFront : (text.take limit).takeWhile Char.isDigit <+: text :=
    (List.takeWhile_prefix _).trans (List.take_prefix _ _)
  refine ⟨_, (List.prefix_iff_eq_append.mp inFront).symm, reads, ?_⟩
  -- As many digits as the limit allows are looked at.
  have within := (List.takeWhile_prefix Char.isDigit (l := text.take limit)).length_le
  exact Nat.le_trans within (List.length_take_le _ _)

/-- A text denotes a number in one or two digits. -/
def ShortNumber (text : List Char) (number : Nat) : Prop :=
  readDecimal? text = some number ∧ text.length ≤ 2

/-- Two digits are a short number. -/
theorem shortNumber_padded (fits : number < 100) : ShortNumber (padded 2 number) number := by
  refine ⟨readDecimal?_padded (by decide), Nat.le_of_eq ?_⟩
  rw [padded_eq (show number < Nat.pow 10 2 from fits), length_lastDigits]

/-- A short number is found behind blanks and in front of anything but digits. -/
theorem leadingShort?_append (blank : isBlankText before = true) (short : ShortNumber digits number)
    (ended : StartsOutside Char.isDigit rest) :
    leadingShort? (before ++ (digits ++ rest)) = some (number, rest) := by
  obtain ⟨reads, length⟩ := short
  obtain ⟨filled, all⟩ := (readDecimal?_eq_some_iff.mp reads).1
  rw [leadingShort?, dropWhile_isBlank_append blank (startsOutside_of_digits filled all rest)]
  exact leadingNumber?_append reads length ended

/-- A short number that is found stands behind blanks. -/
theorem exists_of_leadingShort? (found : leadingShort? text = some (number, rest)) :
    ∃ before digits, isBlankText before = true ∧ ShortNumber digits number ∧
      text = before ++ (digits ++ rest) := by
  obtain ⟨before, blank, same⟩ := exists_blanks_dropWhile text
  obtain ⟨digits, behind, reads, short⟩ := exists_digits_of_leadingNumber? found
  refine ⟨before, digits, blank, ⟨reads, short⟩, ?_⟩
  rw [← behind]
  exact same

end Numbers

/-- A text denotes a year in one to four digits, or in any number of them behind a sign. -/
inductive YearText : List Char → Int → Prop where
  /-- Digits alone are four at most. -/
  | unsigned {digits : List Char} {year : Nat} (reads : readDecimal? digits = some year)
    (short : digits.length ≤ 4) : YearText digits year
  /-- A plus may stand in front of the digits. -/
  | positive {digits : List Char} {year : Nat} (reads : readDecimal? digits = some year) :
    YearText ('+' :: digits) year
  /-- A minus makes the year a negative one. -/
  | negative {digits : List Char} {year : Nat} (reads : readDecimal? digits = some year) :
    YearText ('-' :: digits) (-year)

section Years

variable {year : Int} {text before given rest : List Char}

/-- A year does not start with a blank. -/
theorem YearText.startsOutside (isYear : YearText given year) (rest : List Char) :
    StartsOutside isBlank (given ++ rest) := by
  cases isYear with
  | unsigned reads short =>
    obtain ⟨filled, all⟩ := (readDecimal?_eq_some_iff.mp reads).1
    exact startsOutside_of_digits filled all rest
  | positive reads => exact startsOutside_cons.mpr rfl
  | negative reads => exact startsOutside_cons.mpr rfl

/-- A year is found behind blanks and in front of anything but digits. -/
theorem leadingYear?_append (blank : isBlankText before = true) (isYear : YearText given year)
    (ended : StartsOutside Char.isDigit rest) :
    leadingYear? (before ++ (given ++ rest)) = some (year, rest) := by
  rw [leadingYear?, dropWhile_isBlank_append blank (isYear.startsOutside rest)]
  cases isYear with
  | positive reads =>
    -- Behind a sign there may be as many digits as there are characters.
    rw [List.cons_append]
    simp [leadingNumber?_append reads _ ended]
  | negative reads =>
    rw [List.cons_append]
    simp [leadingNumber?_append reads _ ended]
  | unsigned reads short =>
    -- The first digit is no sign, so the digits are counted.
    obtain ⟨filled, all⟩ := (readDecimal?_eq_some_iff.mp reads).1
    have found := leadingNumber?_append reads short ended
    cases given with
    | nil => exact absurd rfl filled
    | cons c others =>
      rw [List.all_cons, Bool.and_eq_true] at all
      rw [List.cons_append] at found ⊢
      split
      · rename_i plus
        cases plus
        exact absurd all.1 (by decide)
      · rename_i minus
        cases minus
        exact absurd all.1 (by decide)
      · rw [found]
        rfl

/-- A year that is found stands behind blanks. -/
theorem exists_of_leadingYear? (found : leadingYear? text = some (year, rest)) :
    ∃ before given, isBlankText before = true ∧ YearText given year ∧
      text = before ++ (given ++ rest) := by
  obtain ⟨before, blank, same⟩ := exists_blanks_dropWhile text
  unfold leadingYear? at found
  split at found
  · -- A plus in front of digits.
    rename_i signed begins
    obtain ⟨⟨value, behind⟩, number, pair⟩ := Option.map_eq_some_iff.mp found
    cases pair
    obtain ⟨digits, rfl, reads, -⟩ := exists_digits_of_leadingNumber? number
    exact ⟨before, '+' :: digits, blank, .positive reads, by rw [same, begins]; rfl⟩
  · -- A minus in front of digits.
    rename_i signed begins
    obtain ⟨⟨value, behind⟩, number, pair⟩ := Option.map_eq_some_iff.mp found
    cases pair
    obtain ⟨digits, rfl, reads, -⟩ := exists_digits_of_leadingNumber? number
    exact ⟨before, '-' :: digits, blank, .negative reads, by rw [same, begins]; rfl⟩
  · obtain ⟨⟨value, behind⟩, number, pair⟩ := Option.map_eq_some_iff.mp found
    cases pair
    obtain ⟨digits, begins, reads, short⟩ := exists_digits_of_leadingNumber? number
    exact ⟨before, digits, blank, .unsigned reads short, by rw [same, begins]⟩

end Years

/-- What follows a dash is found behind it and nowhere else. -/
theorem afterDash?_eq_some_iff {text rest : List Char} :
    afterDash? text = some rest ↔ text = '-' :: rest := by
  unfold afterDash?
  split
  · simp
  · rename_i noDash
    simp only [reduceCtorEq, false_iff]
    intro same
    exact noDash rest same

/-- A text names a date by its year, month and day, with a dash between any two of them. -/
inductive Date.NamedBy (date : Date) : List Char → Prop where
  /-- Blanks may stand in front of each number and behind the last one. -/
  | parts {before year beforeMonth month beforeDay day after : List Char}
    (blankBefore : isBlankText before = true) (isYear : YearText year date.year)
    (blankMonth : isBlankText beforeMonth = true) (isMonth : ShortNumber month date.month.number)
    (blankDay : isBlankText beforeDay = true) (isDay : ShortNumber day date.day)
    (blankAfter : isBlankText after = true) :
    NamedBy date (before ++
      ((year ++ '-' :: (beforeMonth ++ (month ++ '-' :: (beforeDay ++ day)))) ++ after))

namespace Date

variable {date : Date} {text : List Char}

/-- What a text is read as is what it names. -/
theorem namedBy_of_read? (read : read? text = some date) : date.NamedBy text := by
  obtain ⟨before, after, blankBefore, blankAfter, same⟩ := exists_blanks_trimBlanks text
  simp only [read?, Option.bind_eq_bind, Option.bind_eq_some_iff, Prod.exists] at read
  -- The year, the month and the day are found one behind the other.
  obtain ⟨year, behindYear, foundYear, fromMonth, dash, number, behindMonth, foundMonth, fromDay,
    otherDash, day, behindDay, foundDay, read⟩ := read
  rw [afterDash?_eq_some_iff] at dash otherDash
  obtain ⟨beforeYear, given, blankYear, isYear, front⟩ := exists_of_leadingYear? foundYear
  obtain ⟨beforeMonth, month, blankMonth, isMonth, middle⟩ := exists_of_leadingShort? foundMonth
  obtain ⟨beforeDay, dayDigits, blankDay, isDay, back⟩ := exists_of_leadingShort? foundDay
  split at read
  · rename_i ended
    obtain ⟨named, foundName, read⟩ := Option.bind_eq_some_iff.mp read
    obtain ⟨rfl, rfl, rfl⟩ := ofYearMonthDay?_eq_some_iff.mp read
    rw [Month.ofNumber?_eq_some_iff] at foundName
    obtain rfl : date.month.number = number := by omega
    -- The blanks in front of the year are the first ones and those within the text.
    have blanks : isBlankText (before ++ beforeYear) = true := by
      rw [isBlankText, List.all_append, Bool.and_eq_true]
      exact ⟨blankBefore, blankYear⟩
    have named := NamedBy.parts blanks isYear blankMonth isMonth blankDay isDay blankAfter
    rw [same, front, dash, middle, otherDash, back, ended, List.append_nil]
    simpa only [List.append_assoc] using named
  · contradiction

/-- What a text names it is read as. -/
theorem NamedBy.read? (named : date.NamedBy text) : Date.read? text = some date := by
  cases named with
  | @parts before year beforeMonth month beforeDay day after blankBefore isYear blankMonth isMonth
      blankDay isDay blankAfter =>
    obtain ⟨dayFilled, dayDigits⟩ := (readDecimal?_eq_some_iff.mp isDay.1).1
    -- The text proper starts with the year and ends with the digits of the day.
    have ends : StartsOutside isBlank
        (year ++ '-' :: (beforeMonth ++ (month ++ '-' :: (beforeDay ++ day)))).reverse := by
      have backwards := startsOutside_of_digits (List.reverse_ne_nil_iff.mpr dayFilled)
        (by rw [List.all_reverse, dayDigits])
      simp only [List.reverse_append, List.reverse_cons, List.append_assoc]
      exact backwards _
    have filled : year ++ '-' :: (beforeMonth ++ (month ++ '-' :: (beforeDay ++ day))) ≠ [] := by
      simp
    have trimmed := trimBlanks_append blankBefore blankAfter filled (isYear.startsOutside _) ends
    -- A dash behind the year and the month, and nothing behind the day, end their digits.
    have nothing : isBlankText [] = true := rfl
    have foundYear :
        leadingYear? (year ++ '-' :: (beforeMonth ++ (month ++ '-' :: (beforeDay ++ day)))) =
          some (date.year, '-' :: (beforeMonth ++ (month ++ '-' :: (beforeDay ++ day)))) :=
      leadingYear?_append nothing isYear (startsOutside_cons.mpr rfl)
    have foundMonth : leadingShort? (beforeMonth ++ (month ++ '-' :: (beforeDay ++ day))) =
        some (date.month.number, '-' :: (beforeDay ++ day)) :=
      leadingShort?_append blankMonth isMonth (startsOutside_cons.mpr rfl)
    have foundDay : leadingShort? (beforeDay ++ (day ++ [])) = some (date.day, []) :=
      leadingShort?_append blankDay isDay (startsOutside_nil Char.isDigit)
    rw [List.append_nil] at foundDay
    -- The three numbers are those of the date, which is found by them.
    simp only [Date.read?, trimmed, foundYear, foundMonth, foundDay, afterDash?,
      Option.bind_eq_bind, Option.bind_some, if_true, Month.ofNumber?_number]
    exact date.ofYearMonthDay?_self

/-- A text is read as the date that it names, and as none when it names none. -/
theorem read?_eq_some_iff : Date.read? text = some date ↔ date.NamedBy text :=
  ⟨namedBy_of_read?, NamedBy.read?⟩

end Date

/-- A year is written in four digits if they suffice, and otherwise behind a sign. -/
inductive YearWritten : List Char → Int → Prop where
  /-- The years from 0 to 9999 have four digits and no sign. -/
  | four {digits : List Char} {year : Nat} (reads : readDecimal? digits = some year)
    (four : digits.length = 4) : YearWritten digits year
  /-- Later years have a plus and at least four digits. -/
  | later {digits : List Char} {year : Nat} (reads : readDecimal? digits = some year)
    (least : 4 ≤ digits.length) (late : 9999 < year) : YearWritten ('+' :: digits) year
  /-- Negative years have a minus and at least four digits. -/
  | earlier {digits : List Char} {year : Nat} (reads : readDecimal? digits = some year)
    (least : 4 ≤ digits.length) (early : 0 < year) : YearWritten ('-' :: digits) (-year)

/-- A year that is written so is denoted by its text. -/
theorem YearWritten.yearText {given : List Char} {year : Int} (written : YearWritten given year) :
    YearText given year := by
  cases written with
  | four reads four => exact .unsigned reads (Nat.le_of_eq four)
  | later reads least late => exact .positive reads
  | earlier reads least early => exact .negative reads

/-- Every year is written in its own text. -/
theorem Date.yearWritten_yearText (year : Int) : YearWritten (yearText year) year := by
  have reads : readDecimal? (padded 4 year.natAbs) = some year.natAbs :=
    readDecimal?_padded (by decide)
  have least : 4 ≤ (padded 4 year.natAbs).length := le_length_padded 4 year.natAbs
  unfold yearText
  split
  · -- The digits of a negative year are those of the year without its minus.
    have same : -(year.natAbs : Int) = year := by omega
    rw [← same, Int.natAbs_neg, Int.natAbs_natCast]
    exact .earlier reads least (by omega)
  · have same : (year.natAbs : Int) = year := by omega
    split
    · have fits : year.natAbs < Nat.pow 10 4 := by
        have size : Nat.pow 10 4 = 10000 := rfl
        omega
      rw [← same, Int.natAbs_natCast]
      exact .four reads (by rw [padded_eq fits, length_lastDigits])
    · rw [← same, Int.natAbs_natCast]
      exact .later reads least (by omega)

/-- A text writes a date by its year and two digits each for the month and the day. -/
inductive Date.WrittenAs (date : Date) : List Char → Prop where
  /-- Blanks may stand around the date. -/
  | parts {before year after : List Char} (blankBefore : isBlankText before = true)
    (isYear : YearWritten year date.year) (blankAfter : isBlankText after = true) :
    WrittenAs date (before ++
      ((year ++ '-' :: (padded 2 date.month.number ++ '-' :: padded 2 date.day)) ++ after))

namespace Date

variable {date : Date} {text : List Char}

/-- A date is named by any text that writes it. -/
theorem WrittenAs.namedBy (written : date.WrittenAs text) : date.NamedBy text := by
  have nothing : isBlankText [] = true := rfl
  -- Neither the month nor the day needs more than two digits.
  have months : date.month.number < 100 := by
    cases date.month <;> decide
  have days : date.day < 100 := Nat.lt_of_le_of_lt date.annualDay.day_le (by decide)
  cases written with
  | parts blankBefore isYear blankAfter =>
    have named := NamedBy.parts blankBefore isYear.yearText nothing (shortNumber_padded months)
      nothing (shortNumber_padded days) blankAfter
    exact named

/-- A date is written in its own text. -/
theorem writtenAs_text (date : Date) : date.WrittenAs date.text := by
  have nothing : isBlankText [] = true := rfl
  have written := WrittenAs.parts nothing (yearWritten_yearText date.year) nothing
  simpa [text] using written

/-- A date is read back from its own text. -/
theorem read?_text (date : Date) : Date.read? date.text = some date :=
  read?_eq_some_iff.mpr date.writtenAs_text.namedBy

end Date

end OpeningTimes
