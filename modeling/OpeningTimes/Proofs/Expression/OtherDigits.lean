import OpeningTimes.Proofs.Expression.MaximalMunch
import OpeningTimes.Proofs.Text.Blank

/-!
Digits in the place of other digits change neither the size of a text nor the kinds of its tokens.

Only the sign for all hours is made of certain digits, and its stroke keeps it apart from numbers.
-/

namespace OpeningTimes

/-- Two texts have the same characters in the same places, but for digits in the place of digits. -/
abbrev SameButDigits (left right : List Char) : Prop :=
  List.Forall₂ (fun c d => c = d ∨ c.isDigit = true ∧ d.isDigit = true) left right

/-- A digit takes one byte. -/
theorem utf8Size_of_isDigit {c : Char} (digit : c.isDigit = true) : c.utf8Size = 1 :=
  utf8Size_of_lt (Nat.lt_trans (toNat_lt_of_isDigit digit) (by decide))

namespace SameButDigits

variable {left right : List Char}

/-- Texts of digits that are equally long differ in digits only. -/
theorem of_digits (leftDigits : left.all Char.isDigit = true)
    (rightDigits : right.all Char.isDigit = true) (same : left.length = right.length) :
    SameButDigits left right := by
  rw [SameButDigits, List.forall₂_iff_zip]
  refine ⟨same, ?_⟩
  intro c d paired
  obtain ⟨leftListed, rightListed⟩ := List.of_mem_zip paired
  exact .inr ⟨List.all_eq_true.mp leftDigits c leftListed,
    List.all_eq_true.mp rightDigits d rightListed⟩

/-- A text differs in nothing from itself. -/
theorem refl (text : List Char) : SameButDigits text text :=
  List.forall₂_same.mpr fun _ _ => .inl rfl

/-- Digits take as many bytes as other digits. -/
theorem byteCount_eq (same : SameButDigits left right) : byteCount left = byteCount right := by
  induction same with
  | nil => rfl
  | @cons c d left right first rest ih =>
    have bytes : c.utf8Size = d.utf8Size := by
      rcases first with rfl | ⟨digit, other⟩
      · rfl
      · rw [utf8Size_of_isDigit digit, utf8Size_of_isDigit other]
    rw [byteCount_cons, byteCount_cons, bytes, ih]

/-- No digit is a blank, so texts that differ in digits are blank alike. -/
theorem isBlankText_eq (same : SameButDigits left right) :
    isBlankText left = isBlankText right := by
  induction same with
  | nil => rfl
  | @cons c d left right first rest ih =>
    have blank : isBlank c = isBlank d := by
      rcases first with rfl | ⟨digit, other⟩
      · rfl
      · rw [isBlank_of_isDigit digit, isBlank_of_isDigit other]
    unfold isBlankText at ih ⊢
    rw [List.all_cons, List.all_cons, blank, ih]

end SameButDigits

namespace TokenKind

/-- But for the sign for all hours, no pattern tells one digit from another. -/
theorem test_eq_of_isDigit {kind : TokenKind} (other : kind ≠ .always) {test : Char → Bool}
    (listed : test ∈ kind.pattern) {c d : Char} (digit : c.isDigit = true)
    (otherDigit : d.isDigit = true) : test c = test d := by
  have sign (sign : Char) (plain : sign.isDigit = false) :
      (c == sign) = (d == sign) := by
    have differs {e : Char} (digit : e.isDigit = true) : (e == sign) = false := by
      refine beq_false_of_ne ?_
      rintro rfl
      rw [plain] at digit
      contradiction
    rw [differs digit, differs otherDigit]
  have kept {e : Char} (digit : e.isDigit = true) : e.toLower = e :=
    (toLower_eq_iff_of_lt (toNat_lt_of_isDigit digit)).mpr rfl
  cases kind <;> simp only [pattern, List.mem_cons, List.not_mem_nil, or_false, or_self] at listed
  case year | number => rw [listed, digit, otherDigit]
  case month | day => rw [listed, isAlpha_of_isDigit digit, isAlpha_of_isDigit otherDigit]
  case plus | dash | semicolon | comma => exact listed ▸ sign _ rfl
  case off =>
    rcases listed with rfl | rfl <;> simp only [kept digit, kept otherDigit] <;> exact sign _ rfl
  case time =>
    rcases listed with rfl | rfl | rfl | rfl | rfl
    case inr.inr.inl => exact sign _ rfl
    all_goals rw [digit, otherDigit]
  case always => exact absurd rfl other

/-- A text that differs in digits begins with the same kinds, but for the sign for all hours. -/
theorem begins_iff_of_sameButDigits {kind : TokenKind} (other : kind ≠ .always)
    {left right : List Char} (same : SameButDigits left right) :
    kind.Begins left ↔ kind.Begins right := by
  unfold Begins
  rw [beginsWith_eq_of_forall₂ same]
  rintro test listed c d (rfl | ⟨digit, otherDigit⟩)
  · rfl
  · exact test_eq_of_isDigit other listed digit otherDigit

/-- Only a number begins like the sign for all hours. -/
theorem eq_of_begins_always {kind : TokenKind} {text : List Char}
    (sign : TokenKind.always.Begins text) (begins : kind.Begins text) :
    kind = .always ∨ kind = .number := by
  have differ {first : Char} {test : Char → Bool} (refused : test first = false) :
      ∀ c, (c == first) = true → test c = false := by
    intro c same
    rw [eq_of_beq same]
    exact refused
  cases kind with
  | always => exact .inl rfl
  | number => exact .inr rfl
  | finish => exact absurd rfl begins.1
  -- The stroke is neither the third digit of a year nor the colon of a time.
  | year | time => exact absurd begins (not_begins_of_test 2 rfl rfl (differ rfl) sign)
  | _ => exact absurd begins (not_begins_of_test 0 rfl rfl (differ rfl) sign)

/-- A number that begins like the sign for all hours has a stroke behind it. -/
theorem exists_stroke_of_begins {text rest : List Char} (whole : text.length = number.width)
    (sign : TokenKind.always.Begins (text ++ rest)) : ∃ behind, rest = '/' :: behind := by
  have length : text.length = 2 := whole
  have put : TokenKind.always.pattern[2]? = some (· == '/') := rfl
  obtain ⟨c, found, stroke⟩ := exists_char_of_beginsWith sign.2 put
  rw [List.getElem?_append_right (by omega), length] at found
  cases rest with
  | nil => cases found
  | cons d behind =>
    cases found
    rw [eq_of_beq stroke]
    exact ⟨behind, rfl⟩

/-- Digits written over digits keep the longest kind, if no stroke that begins nothing follows. -/
theorem Longest.of_sameButDigits {kind : TokenKind} {text rest newText newRest : List Char}
    (longest : kind.Longest (text ++ rest)) (whole : text.length = kind.width)
    (same : SameButDigits text newText) (sameRest : SameButDigits rest newRest)
    (fixed : kind = .always → newText = text) (noStroke : ∀ behind, rest ≠ '/' :: behind) :
    kind.Longest (newText ++ newRest) := by
  have sameAll : SameButDigits (text ++ rest) (newText ++ newRest) := List.rel_append same sameRest
  by_cases isAlways : kind = .always
  · -- The sign for all hours is kept, and nothing else that is longer begins like it.
    obtain rfl := fixed isAlways
    subst isAlways
    have enough : TokenKind.always.pattern.length ≤ newText.length := Nat.le_of_eq whole.symm
    have begun := longest.begins.2
    rw [beginsWith_append_of_length_le enough] at begun
    have sign : TokenKind.always.Begins (newText ++ newRest) :=
      ⟨nofun, by rw [beginsWith_append_of_length_le enough, begun]⟩
    refine ⟨sign, ?_⟩
    intro other begins
    rcases eq_of_begins_always sign begins with same | isNumber
    · exact .inl same
    · exact .inr (.inl (by rw [isNumber]; decide))
  · have begins := (begins_iff_of_sameButDigits isAlways sameAll).mp longest.begins
    refine ⟨begins, ?_⟩
    intro other otherBegins
    by_cases sign : other = .always
    · -- Only a number begins like that sign, and only with a stroke behind it.
      subst sign
      have isNumber := (eq_of_begins_always otherBegins begins).resolve_left isAlways
      subst isNumber
      obtain ⟨behind, rfl⟩ := exists_stroke_of_begins (same.length_eq ▸ whole) otherBegins
      cases sameRest with
      | @cons c _ left _ first _ =>
        rcases first with rfl | ⟨-, digit⟩
        · exact absurd rfl (noStroke left)
        · cases digit
    · exact longest.others other ((begins_iff_of_sameButDigits sign sameAll).mpr otherBegins)

end TokenKind

end OpeningTimes
