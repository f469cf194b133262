import OpeningTimes.Text.Decimal
import Mathlib.Data.List.Induction

/-! Texts of decimal digits and their values, where written numbers read back as themselves. -/

namespace OpeningTimes

/-- A text denotes a number when it is made of digits, which have that value. -/
theorem readDecimal?_eq_some_iff {text : List Char} {number : Nat} :
    readDecimal? text = some number ↔
      (text ≠ [] ∧ text.all Char.isDigit = true) ∧ digitsValue text = number := by
  unfold readDecimal?
  by_cases digits : text ≠ [] ∧ text.all Char.isDigit = true
  · rw [if_pos digits, Option.some.injEq, and_iff_right digits]
  · rw [if_neg digits]
    exact ⟨fun impossible => (nomatch impossible), fun both => absurd both.1 digits⟩

/-- A text denotes a number below 256 when it denotes a number and that one is so small. -/
theorem readByte?_eq_some_iff {text : List Char} {number : Nat} :
    readByte? text = some number ↔ readDecimal? text = some number ∧ number < 256 := by
  unfold readByte?
  rw [Option.filter_eq_some_iff, decide_eq_true_eq]

/-- A number below 256 is the value of the digits that denote it. -/
theorem digitsValue_of_readByte? {text : List Char} {number : Nat}
    (read : readByte? text = some number) : digitsValue text = number :=
  (readDecimal?_eq_some_iff.mp (readByte?_eq_some_iff.mp read).1).2

/-- A digit is worth less than ten. -/
theorem value_lt_of_isDigit {c : Char} (digit : c.isDigit = true) :
    c.toNat - '0'.toNat < 10 := by
  have highest : c.toNat ≤ 57 := by
    simp only [Char.isDigit, Bool.and_eq_true, decide_eq_true_eq, UInt32.le_iff_toNat_le] at digit
    exact digit.2
  have zero : '0'.toNat = 48 := rfl
  omega

/-- Digits are worth less than a one behind which as many zeros stand. -/
theorem digitsValue_lt {text : List Char} (digits : text.all Char.isDigit = true) :
    digitsValue text < Nat.pow 10 text.length := by
  induction text using List.reverseRecOn with
  | nil => decide
  | append_singleton front last ih =>
    simp only [List.all_append, List.all_cons, List.all_nil, Bool.and_true, Bool.and_eq_true]
      at digits
    -- The digits in front count ten times, and the last one once.
    have before := ih digits.1
    have ones := value_lt_of_isDigit digits.2
    unfold digitsValue at before ⊢
    rw [List.foldl_append, List.foldl_cons, List.foldl_nil, List.length_append,
      List.length_singleton]
    have tens : Nat.pow 10 (front.length + 1) = 10 * Nat.pow 10 front.length := Nat.mul_comm _ 10
    omega

/-- Two digits denote a number below 256 always. -/
theorem readByte?_of_two_digits {text : List Char} (two : text.length = 2)
    (digits : text.all Char.isDigit = true) : readByte? text = some (digitsValue text) := by
  have small := digitsValue_lt digits
  rw [two, show Nat.pow 10 2 = 100 from rfl] at small
  have filled : text ≠ [] := List.ne_nil_of_length_eq_add_one two
  exact readByte?_eq_some_iff.mpr ⟨readDecimal?_eq_some_iff.mpr ⟨⟨filled, digits⟩, rfl⟩, by omega⟩

/-- The sign of a digit is a decimal digit and has its value. -/
theorem digitChar_spec {digit : Nat} (small : digit < 10) :
    (Nat.digitChar digit).isDigit = true ∧ (Nat.digitChar digit).toNat - '0'.toNat = digit := by
  -- There are ten digits, each with a sign of its own.
  have table : ∀ digit < 10, (Nat.digitChar digit).isDigit = true ∧
      (Nat.digitChar digit).toNat - '0'.toNat = digit := by
    decide
  exact table digit small

/-- As many digits are written as asked for. -/
@[simp] theorem length_lastDigits (width number : Nat) :
    (lastDigits width number).length = width := by
  induction width generalizing number with
  | zero => rfl
  | succ width ih => simp [lastDigits, ih]

/-- Numbers are written in decimal digits. -/
theorem all_isDigit_lastDigits (width number : Nat) :
    (lastDigits width number).all Char.isDigit = true := by
  induction width generalizing number with
  | zero => rfl
  | succ width ih =>
    have digit := (digitChar_spec (Nat.mod_lt number (show 10 > 0 by decide))).1
    simp [lastDigits, List.all_append, ih, digit]

/-- The last digits of a number denote its remainder. -/
theorem digitsValue_lastDigits (width number : Nat) :
    digitsValue (lastDigits width number) = number % Nat.pow 10 width := by
  induction width generalizing number with
  | zero => simp [lastDigits, digitsValue, Nat.mod_one]
  | succ width ih =>
    have value := (digitChar_spec (Nat.mod_lt number (show 10 > 0 by decide))).2
    have front := ih (number / 10)
    unfold digitsValue at front ⊢
    -- The digits in front count the tens of the remainder, and the last one its ones.
    rw [lastDigits, List.foldl_append, front, List.foldl_cons, List.foldl_nil, value]
    have tens : Nat.pow 10 (width + 1) = 10 * Nat.pow 10 width := Nat.mul_comm _ 10
    rw [tens, Nat.mod_mul]
    omega

variable {width number : Nat}

/-- A number that fits has exactly the digits asked for. -/
theorem padded_eq (fits : number < Nat.pow 10 width) :
    padded width number = lastDigits width number :=
  if_pos fits

/-- A number is written in at least as many digits as asked for. -/
theorem le_length_padded (width number : Nat) : width ≤ (padded width number).length := by
  unfold padded
  split
  · exact Nat.le_of_eq (length_lastDigits width number).symm
  · rename_i larger
    cases width with
    | zero => exact Nat.zero_le _
    | succ width =>
      -- With fewer digits the number would have fitted.
      rw [← Nat.not_lt]
      intro shorter
      have small := (Nat.length_toDigits_le_iff (by decide) (Nat.succ_pos width)).mp
        (Nat.le_of_lt shorter)
      exact larger small

/-- A number reads back from its digits, with zeros in front of them or without. -/
theorem readDecimal?_padded (wide : width ≠ 0) :
    readDecimal? (padded width number) = some number := by
  rw [readDecimal?_eq_some_iff]
  unfold padded
  split
  · rename_i fits
    have filled : lastDigits width number ≠ [] := by
      intro empty
      exact wide (by rw [← length_lastDigits width number, empty, List.length_nil])
    refine ⟨⟨filled, all_isDigit_lastDigits width number⟩, ?_⟩
    rw [digitsValue_lastDigits, Nat.mod_eq_of_lt fits]
  · -- A number that does not fit is written with as many digits as it needs.
    refine ⟨⟨Nat.toDigits_ne_nil, List.all_eq_true.mpr fun digit listed => ?_⟩, ?_⟩
    · exact Nat.isDigit_of_mem_toDigits (by decide) (by decide) listed
    · exact Nat.ofDigitChars_toDigits (by decide) (by decide)

/-- Two digits are two characters. -/
theorem exists_padded_two (fits : number < 100) :
    ∃ tens ones : Char, padded 2 number = [tens, ones] ∧
      tens.isDigit = true ∧ ones.isDigit = true := by
  have digits := all_isDigit_lastDigits 2 number
  rw [padded_eq fits]
  simp only [lastDigits, List.nil_append, List.singleton_append, List.all_cons, Bool.and_eq_true]
    at digits ⊢
  exact ⟨_, _, rfl, digits.1, digits.2.1⟩

/-- Four digits are four characters. -/
theorem exists_padded_four (fits : number < 10000) :
    ∃ first second third fourth : Char, padded 4 number = [first, second, third, fourth] ∧
      first.isDigit = true ∧ second.isDigit = true ∧
        third.isDigit = true ∧ fourth.isDigit = true := by
  have digits := all_isDigit_lastDigits 4 number
  rw [padded_eq fits]
  simp only [lastDigits, List.nil_append, List.cons_append, List.all_cons, Bool.and_eq_true]
    at digits ⊢
  exact ⟨_, _, _, _, rfl, digits.1, digits.2.1, digits.2.2.1, digits.2.2.2.1⟩

end OpeningTimes
