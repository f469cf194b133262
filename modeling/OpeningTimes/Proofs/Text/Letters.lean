import OpeningTimes.Text.Decimal
import OpeningTimes.Text.Letters
import Mathlib.Data.List.TakeDrop

/-! The case of letters does not matter to numbers and to the signs between them. -/

namespace OpeningTimes

/-- Texts agree up to case exactly when lowering makes them equal. -/
theorem sameLetters_iff {left right : List Char} :
    sameLetters left right = true ↔ left.map Char.toLower = right.map Char.toLower :=
  beq_iff_eq

/-- Lowering leads only to a character in front of the letters from that character itself. -/
theorem toLower_eq_iff_of_lt {c d : Char} (small : d.toNat < 65) : c.toLower = d ↔ c = d := by
  unfold Char.toLower
  split
  · -- A capital is no such character, and neither is the small letter made of it.
    rename_i capital
    have lowest : 65 ≤ c.toNat := capital.1
    have highest : c.toNat ≤ 90 := capital.2
    constructor
    · intro lowered
      have value : (c.val + 32).toNat = d.toNat := congrArg Char.toNat lowered
      have sum : (c.val + 32).toNat = c.toNat + 32 := by
        rw [UInt32.toNat_add]
        exact Nat.mod_eq_of_lt (by simp only [Char.toNat_val, UInt32.reduceToNat]; omega)
      omega
    · intro same
      subst same
      omega
  · -- Any other character is its own lowering.
    exact Iff.rfl

/-- The decimal digits come in front of the letters. -/
theorem toNat_lt_of_isDigit {c : Char} (digit : c.isDigit = true) : c.toNat < 65 := by
  simp only [Char.isDigit, Bool.and_eq_true, decide_eq_true_eq, UInt32.le_iff_toNat_le] at digit
  exact Nat.lt_of_le_of_lt digit.2 (by decide)

/-- The characters of ASCII take one byte each. -/
theorem utf8Size_of_lt {c : Char} (small : c.toNat < 128) : c.utf8Size = 1 := by
  rw [Char.utf8Size_eq_one_iff, UInt32.le_iff_toNat_le, Char.toNat_val]
  exact Nat.le_of_lt_succ small

/-- A text without letters has no other text that differs from it in case. -/
theorem eq_of_sameLetters {left right : List Char} (same : sameLetters left right = true)
    (small : ∀ c ∈ left, c.toNat < 65) : left = right := by
  rw [sameLetters_iff] at same
  induction left generalizing right with
  | nil => exact (List.map_eq_nil_iff.mp same.symm).symm
  | cons c rest ih =>
    cases right with
    | nil => cases same
    | cons d others =>
      simp only [List.map_cons, List.cons.injEq] at same
      have least := small c List.mem_cons_self
      -- The first character is its own lowering, which only that character has.
      have unchanged : c.toLower = c := (toLower_eq_iff_of_lt least).mpr rfl
      have equal : d = c := (toLower_eq_iff_of_lt least).mp (same.1.symm.trans unchanged)
      rw [equal, ih same.2 fun e listed => small e (List.mem_cons_of_mem _ listed)]

/-- Texts that agree up to case denote the same number or none. -/
theorem readDecimal?_eq_of_sameLetters {left right : List Char}
    (same : sameLetters left right = true) :
    readDecimal? left = readDecimal? right := by
  -- Digits are no letters, so there is only one text of the same digits.
  have digitsEqual : ∀ {left right : List Char}, sameLetters left right = true →
      left.all Char.isDigit = true → left = right := by
    intro left right same digits
    refine eq_of_sameLetters same fun c listed => ?_
    exact toNat_lt_of_isDigit (List.all_eq_true.mp digits c listed)
  have reversed : sameLetters right left = true :=
    sameLetters_iff.mpr (sameLetters_iff.mp same).symm
  by_cases digits : left.all Char.isDigit = true
  · rw [digitsEqual same digits]
  · by_cases others : right.all Char.isDigit = true
    · rw [digitsEqual reversed others]
    · -- Neither of the texts is made of digits.
      simp [readDecimal?, digits, others]

/-- Texts that agree up to case denote the same number below 256 or none. -/
theorem readByte?_eq_of_sameLetters {left right : List Char}
    (same : sameLetters left right = true) : readByte? left = readByte? right := by
  rw [readByte?, readDecimal?_eq_of_sameLetters same, readByte?]

/-- Texts that agree up to case agree in front of a colon and from that colon on. -/
theorem sameLetters_span {left right : List Char} (same : sameLetters left right = true) :
    sameLetters (left.span (· ≠ ':')).1 (right.span (· ≠ ':')).1 = true ∧
      sameLetters (left.span (· ≠ ':')).2 (right.span (· ≠ ':')).2 = true := by
  simp only [List.span_eq_takeWhile_dropWhile, sameLetters_iff] at same ⊢
  -- Lowering neither makes a colon nor changes one.
  have colon : ((fun c : Char => decide (c ≠ ':')) ∘ Char.toLower) = fun c => decide (c ≠ ':') := by
    funext c
    simp only [Function.comp_apply, ne_eq, toLower_eq_iff_of_lt (show ':'.toNat < 65 by decide)]
  have taken := congrArg (List.takeWhile fun c => decide (c ≠ ':')) same
  have dropped := congrArg (List.dropWhile fun c => decide (c ≠ ':')) same
  rw [List.takeWhile_map, List.takeWhile_map, colon] at taken
  rw [List.dropWhile_map, List.dropWhile_map, colon] at dropped
  exact ⟨taken, dropped⟩

end OpeningTimes
