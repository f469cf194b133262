import OpeningTimes.Proofs.Expression.Scan
import OpeningTimes.Proofs.Text.Decimal
import OpeningTimes.Rule.Text

/-! The words that the parts of a written schedule are cut into. -/

namespace OpeningTimes

/-- A text is cut into given words, none of which ends an expression. -/
structure Spells (text : List Char) (words : List Word) : Prop where
  /-- The text is cut into the words. -/
  cut : words? text = some words
  /-- The words belong to one expression. -/
  unparted : ∀ word ∈ words, word.kind ≠ .semicolon

namespace Spells

variable {left right : List Char} {leftWords rightWords : List Word}

/-- No text has no words. -/
theorem nil : Spells [] [] :=
  ⟨rfl, fun _ listed => nomatch listed⟩

/-- A text that is one token spells one word. -/
theorem single {c : Char} {rest : List Char} {kind : TokenKind}
    (shown : TokenRun.isSkipped c = false) (leads : TokenKind.leading? (c :: rest) = some kind)
    (whole : kind.width = (c :: rest).length) (inner : kind ≠ .semicolon) :
    Spells (c :: rest) [⟨kind, c :: rest⟩] := by
  refine ⟨words?_token shown leads whole, fun word listed => ?_⟩
  rw [List.mem_singleton.mp listed]
  exact inner

/-- A blank in front of a text adds no word. -/
theorem blank (back : Spells right rightWords) : Spells (' ' :: right) rightWords :=
  ⟨(words?_skipped rfl right).trans back.cut, back.unparted⟩

/-- Two texts with a blank between them spell the words of both. -/
theorem spaced (front : Spells left leftWords) (back : Spells right rightWords) :
    Spells (left ++ ' ' :: right) (leftWords ++ rightWords) := by
  refine ⟨?_, fun word listed => ?_⟩
  · rw [words?_append (by decide), front.cut, back.blank.cut]
    rfl
  · exact (List.mem_append.mp listed).elim (front.unparted word) (back.unparted word)

/-- Two texts with a sign between them spell the words of both with the sign between these. -/
theorem signed {c : Char} {kind : TokenKind} (sign : IsSign c kind) (inner : kind ≠ .semicolon)
    (front : Spells left leftWords) (back : Spells right rightWords) :
    Spells (left ++ c :: right) (leftWords ++ ⟨kind, [c]⟩ :: rightWords) := by
  refine ⟨?_, fun word listed => ?_⟩
  · rw [words?_append sign.ends, words?_sign sign, front.cut, back.cut]
    rfl
  · -- A word is on one of the sides, or it is the sign.
    rcases List.mem_append.mp listed with before | later
    · exact front.unparted word before
    · rcases List.mem_cons.mp later with rfl | after
      · exact inner
      · exact back.unparted word after

end Spells

/-- Digits are not passed over. -/
theorem isSkipped_of_isDigit {c : Char} (digit : c.isDigit = true) :
    TokenRun.isSkipped c = false := by
  cases skipped : TokenRun.isSkipped c with
  | false => rfl
  | true =>
    simp only [TokenRun.isSkipped, Bool.or_eq_true, beq_iff_eq] at skipped
    -- None of the characters that are passed over is a digit.
    rcases skipped with (((rfl | rfl) | rfl) | rfl) | rfl <;> cases digit

/-- A digit is none of the signs inside tokens. -/
theorem ne_of_isDigit {c sign : Char} (digit : c.isDigit = true) (other : sign.isDigit = false) :
    (c == sign) = false := by
  rw [beq_eq_false_iff_ne]
  intro same
  rw [same, other] at digit
  cases digit

/-- A year is one word. -/
theorem spells_year {number : Nat} (fits : number < 10000) :
    Spells (padded 4 number) [⟨.year, padded 4 number⟩] := by
  obtain ⟨first, second, third, fourth, text, one, two, three, four⟩ := exists_padded_four fits
  rw [text]
  -- The third digit is no colon, and no slash.
  refine Spells.single (isSkipped_of_isDigit one) ?_ rfl (by decide)
  simp [TokenKind.leading?, TokenKind.precedence, TokenKind.pattern, beginsWith, one, two, three,
    four, ne_of_isDigit three]

/-- A number of a day is one word. -/
theorem spells_number {number : Nat} (fits : number < 100) :
    Spells (padded 2 number) [⟨.number, padded 2 number⟩] := by
  obtain ⟨tens, ones, text, first, second⟩ := exists_padded_two fits
  rw [text]
  refine Spells.single (isSkipped_of_isDigit first) ?_ rfl (by decide)
  simp [TokenKind.leading?, TokenKind.precedence, TokenKind.pattern, beginsWith, first, second]

/-- A time is one word. -/
theorem spells_time (time : DayTime) : Spells time.text [⟨.time, time.text⟩] := by
  have hours : time.hour < 100 := by
    have bounded := time.minutes_le
    unfold DayTime.hour
    omega
  have minutes : time.minute < 100 := by
    unfold DayTime.minute
    omega
  obtain ⟨a, b, hourText, one, two⟩ := exists_padded_two hours
  obtain ⟨c, d, minuteText, three, four⟩ := exists_padded_two minutes
  -- Two digits, a colon and two digits are one token.
  rw [DayTime.text, hourText, minuteText]
  refine Spells.single (isSkipped_of_isDigit one) ?_ rfl (by decide)
  simp [TokenKind.leading?, TokenKind.precedence, TokenKind.pattern, beginsWith, one, two, three,
    four]

/-- A month is one word. -/
theorem spells_month (month : Month) :
    Spells month.abbreviation [⟨.month, month.abbreviation⟩] := by
  cases month <;> exact Spells.single rfl rfl rfl (by decide)

/-- A weekday is one word. -/
theorem spells_weekday (day : Weekday) : Spells day.code [⟨.day, day.code⟩] := by
  cases day <;> exact Spells.single rfl rfl rfl (by decide)

/-- Public holidays are one word. -/
theorem spells_holiday : Spells HolidayRule.code [⟨.day, HolidayRule.code⟩] :=
  Spells.single rfl rfl rfl (by decide)

/-- The word that closes is one word. -/
theorem spells_off : Spells offWord [⟨.off, offWord⟩] :=
  Spells.single rfl rfl rfl (by decide)

end OpeningTimes
