import OpeningTimes.Text.Blank

/-! Texts freed of the blanks around them, where neither digits nor signs are blanks. -/

namespace OpeningTimes

/-- Blanks stand in front of the characters that ASCII prints, or behind them. -/
theorem toNat_of_isBlank {c : Char} (blank : isBlank c = true) : c.toNat ≤ 32 ∨ 133 ≤ c.toNat := by
  simp only [isBlank, blankRanges, List.any_cons, List.any_nil, Bool.or_false, Bool.or_eq_true,
    Bool.and_eq_true, decide_eq_true_eq] at blank
  omega

/-- No digit is a blank. -/
theorem isBlank_of_isDigit {c : Char} (digit : c.isDigit = true) : isBlank c = false := by
  rw [← Bool.not_eq_true]
  intro blank
  have outside := toNat_of_isBlank blank
  simp only [Char.isDigit, Bool.and_eq_true, decide_eq_true_eq, UInt32.le_iff_toNat_le] at digit
  -- The codes of the ten digits lie between the two groups of blanks.
  have lowest : 48 ≤ c.toNat := digit.1
  have highest : c.toNat ≤ 57 := digit.2
  omega

/-- A text is empty, or it starts with a character that fails a test. -/
def StartsOutside (test : Char → Bool) (text : List Char) : Prop :=
  ∀ c ∈ text.head?, test c = false

/-- A text with a first character starts outside a test when that character fails it. -/
@[simp] theorem startsOutside_cons {test : Char → Bool} {c : Char} {rest : List Char} :
    StartsOutside test (c :: rest) ↔ test c = false := by
  simp [StartsOutside]

/-- Nothing starts with a character at all. -/
@[simp] theorem startsOutside_nil (test : Char → Bool) : StartsOutside test [] := by
  simp [StartsOutside]

/-- The digits of a number do not start with a blank, whatever follows them. -/
theorem startsOutside_of_digits {digits : List Char} (filled : digits ≠ [])
    (all : digits.all Char.isDigit = true) (rest : List Char) :
    StartsOutside isBlank (digits ++ rest) := by
  cases digits with
  | nil => exact absurd rfl filled
  | cons c others =>
    rw [List.all_cons, Bool.and_eq_true] at all
    exact startsOutside_cons.mpr (isBlank_of_isDigit all.1)

variable {before text after : List Char}

/-- Blanks in front of a text are dropped up to the text itself. -/
theorem dropWhile_isBlank_append (blank : isBlankText before = true)
    (shown : StartsOutside isBlank text) : (before ++ text).dropWhile isBlank = text := by
  rw [List.dropWhile_append_of_pos (List.all_eq_true.mp blank)]
  -- The text is kept from its first character on, as that one is no blank.
  cases text with
  | nil => rfl
  | cons c rest =>
    have solid : ¬ isBlank c = true := by simp [startsOutside_cons.mp shown]
    exact List.dropWhile_cons_of_neg solid

/-- What is dropped from a text are blanks in front of the rest. -/
theorem exists_blanks_dropWhile (text : List Char) :
    ∃ before, isBlankText before = true ∧ text = before ++ text.dropWhile isBlank := by
  refine ⟨text.takeWhile isBlank, ?_, List.takeWhile_append_dropWhile.symm⟩
  exact List.all_takeWhile

/-- A text is freed of the blanks around it when it neither starts nor ends with one. -/
theorem trimBlanks_append (blankBefore : isBlankText before = true)
    (blankAfter : isBlankText after = true) (filled : text ≠ [])
    (starts : StartsOutside isBlank text) (ends : StartsOutside isBlank text.reverse) :
    trimBlanks (before ++ (text ++ after)) = text := by
  have startsWithAfter : StartsOutside isBlank (text ++ after) := by
    cases text with
    | nil => exact absurd rfl filled
    | cons c rest => exact startsOutside_cons.mpr (startsOutside_cons.mp starts)
  have blankReversed : isBlankText after.reverse = true := by
    rw [isBlankText, List.all_reverse]
    exact blankAfter
  -- Behind the first blanks, the text is read backwards and freed in the same way.
  rw [trimBlanks, dropWhile_isBlank_append blankBefore startsWithAfter, List.reverse_append,
    dropWhile_isBlank_append blankReversed ends, List.reverse_reverse]

/-- A text stands among the blanks that it is freed of. -/
theorem exists_blanks_trimBlanks (text : List Char) :
    ∃ before after, isBlankText before = true ∧ isBlankText after = true ∧
      text = before ++ (trimBlanks text ++ after) := by
  obtain ⟨before, blankBefore, front⟩ := exists_blanks_dropWhile text
  obtain ⟨after, blankAfter, back⟩ :=
    exists_blanks_dropWhile (text.dropWhile isBlank).reverse
  refine ⟨before, after.reverse, blankBefore, ?_, ?_⟩
  · rw [isBlankText, List.all_reverse]
    exact blankAfter
  · -- Both ends together are what was dropped.
    have kept : text.dropWhile isBlank = trimBlanks text ++ after.reverse := by
      rw [trimBlanks, ← List.reverse_append, ← back, List.reverse_reverse]
    rw [← kept]
    exact front

end OpeningTimes
