import OpeningTimes.Expression.Scan
import OpeningTimes.Proofs.Text.Blank

/-! Texts are scanned piece by piece, as no token goes on past a blank or a sign. -/

namespace OpeningTimes

/-- A token without its place. -/
structure Word where
  /-- What the token is. -/
  kind : TokenKind
  /-- The characters of the token. -/
  text : List Char
  deriving DecidableEq

/-- What a token says wherever it stands. -/
def Token.word (token : Token) : Word :=
  ⟨token.kind, token.text⟩

/-- The words of a run, its end left out. -/
def TokenRun.words (run : TokenRun) : List Word :=
  run.tokens.map Token.word

/-- The words that a text is cut into, if it can be. -/
def words? (text : List Char) : Option (List Word) :=
  (TokenRun.scan text).toOption.map TokenRun.words

/-- A text that passes tests one by one is at least as long as these are many. -/
theorem length_le_of_beginsWith {tests : List (Char → Bool)} {text : List Char}
    (begun : beginsWith tests text = true) : tests.length ≤ text.length := by
  induction tests generalizing text with
  | nil => exact Nat.zero_le _
  | cons test tests ih =>
    cases text with
    | nil => cases begun
    | cons c rest =>
      -- Each test takes a character of its own.
      simp only [beginsWith, Bool.and_eq_true] at begun
      exact Nat.succ_le_succ (ih begun.2)

/-- What follows a character that fails all tests does not matter to the beginning of a text. -/
theorem beginsWith_append_of_rejected {tests : List (Char → Bool)} {c : Char}
    (left right : List Char) (rejected : ∀ test ∈ tests, test c = false) :
    beginsWith tests (left ++ c :: right) = beginsWith tests left := by
  induction tests generalizing left with
  | nil => cases left <;> rfl
  | cons test tests ih =>
    cases left with
    -- Where the text in front ends, a test is left that fails with or without the character.
    | nil => simp [beginsWith, rejected test List.mem_cons_self]
    | cons d rest =>
      simp only [List.cons_append, beginsWith]
      rw [ih rest fun later listed => rejected later (List.mem_cons_of_mem _ listed)]

/-- A character goes on with no token, although it may begin one. -/
def EndsTokens (c : Char) : Prop :=
  ∀ kind : TokenKind, ∀ test ∈ kind.pattern.tail, test c = false

instance (c : Char) : Decidable (EndsTokens c) :=
  -- There are twelve kinds, each with a pattern of its own.
  decidable_of_iff
    (∀ kind ∈ TokenKind.finish :: TokenKind.precedence, ∀ test ∈ kind.pattern.tail, test c = false)
    ⟨fun checked kind => checked kind (by cases kind <;> decide), fun ends kind _ => ends kind⟩

namespace TokenKind

/-- The token that a text begins with ends in front of a character that goes on with no token. -/
theorem leading?_append {c : Char} (ends : EndsTokens c) (first : Char) (left right : List Char) :
    leading? (first :: left ++ c :: right) = leading? (first :: left) := by
  unfold leading?
  congr 1
  funext kind
  -- Only the first test of a pattern may accept the character, and it is put to another one.
  have rejected := ends kind
  cases pattern : kind.pattern with
  | nil => rfl
  | cons test tests =>
    rw [pattern, List.tail_cons] at rejected
    simp only [List.cons_append, beginsWith]
    rw [beginsWith_append_of_rejected left right rejected]

/-- A token that a text begins with lies within that text. -/
theorem width_le_of_leading? {text : List Char} {kind : TokenKind}
    (found : leading? text = some kind) : kind.width ≤ text.length := by
  have begun : beginsWith kind.pattern text = true :=
    List.find?_some (p := fun kind : TokenKind => beginsWith kind.pattern text) found
  exact length_le_of_beginsWith begun

end TokenKind

namespace TokenRun

/-- A text is scanned in two parts where a character ends all tokens. -/
theorem scanFrom_append {c : Char} (ends : EndsTokens c) (tail : List Char) {left : List Char}
    {position inside : Nat} (within : inside ≤ left.length) :
    scanFrom position inside (left ++ c :: tail) = (do
      let first ← scanFrom position inside left
      let second ← scanFrom first.stop.position 0 (c :: tail)
      return ⟨first.tokens ++ second.tokens, second.stop⟩) := by
  have leads := fun first left => TokenKind.leading?_append ends first left tail
  generalize c :: tail = right at leads ⊢
  -- A token found in the first part is passed over within that part.
  induction left generalizing position inside with
  | nil =>
    obtain rfl : inside = 0 := Nat.le_zero.mp within
    -- Nothing is read in front, so the second part starts in the same place.
    show scanFrom position 0 right = (scanFrom position 0 right).bind fun second =>
      .ok ⟨[] ++ second.tokens, second.stop⟩
    cases scanFrom position 0 right <;> rfl
  | cons first left ih =>
    cases inside with
    | succ inside =>
      simp only [List.cons_append, scanFrom]
      exact ih (Nat.le_of_succ_le_succ within)
    | zero =>
      -- What begins here is the same token with or without the second part.
      have same := leads first left
      simp only [List.cons_append, scanFrom] at same ⊢
      cases isSkipped first with
      | true => exact ih (Nat.zero_le _)
      | false =>
        simp only [same]
        cases found : TokenKind.leading? (first :: left) with
        | none => rfl
        | some kind =>
          have bounded := TokenKind.width_le_of_leading? found
          have taken : (first :: (left ++ right)).take kind.width =
              (first :: left).take kind.width := by
            rw [← List.cons_append, List.take_append_of_le_length bounded]
          rw [List.length_cons] at bounded
          simp only [Bool.false_eq_true, if_false, taken]
          rw [ih (by omega)]
          -- The token found here is put in front on both sides.
          cases scanFrom (position + first.utf8Size) (kind.width - 1) left with
          | error fault => rfl
          | ok run =>
            simp only [bind, Except.bind]
            cases scanFrom run.stop.position 0 right <;> rfl

/-- A text is cut into the same words wherever it stands. -/
theorem words_scanFrom (position inside : Nat) (text : List Char) :
    (scanFrom position inside text).toOption.map words =
      (scanFrom 0 inside text).toOption.map words := by
  have general : ∀ (text : List Char) (first second inside : Nat),
      (scanFrom first inside text).toOption.map words =
        (scanFrom second inside text).toOption.map words := by
    intro text
    -- The place is only counted on.
    induction text with
    | nil => exact fun _ _ _ => rfl
    | cons c rest ih =>
      intro first second inside
      cases inside with
      | succ inside => exact ih _ _ inside
      | zero =>
        simp only [scanFrom]
        split
        · exact ih _ _ 0
        · -- A token goes in front with its kind and its characters, which have no place.
          cases TokenKind.leading? (c :: rest) with
          | none => rfl
          | some kind =>
            have same := ih (first + c.utf8Size) (second + c.utf8Size) (kind.width - 1)
            revert same
            dsimp only
            cases scanFrom (first + c.utf8Size) (kind.width - 1) rest <;>
              cases scanFrom (second + c.utf8Size) (kind.width - 1) rest <;>
              simp [Except.toOption, words, Token.word]
  exact general text position 0 inside

end TokenRun

/-- The words of a text are those of its two parts where a character ends all tokens. -/
theorem words?_append {c : Char} (ends : EndsTokens c) (left tail : List Char) :
    words? (left ++ c :: tail) = (do
      let first ← words? left
      let second ← words? (c :: tail)
      return first ++ second) := by
  unfold words? TokenRun.scan
  rw [TokenRun.scanFrom_append ends tail (Nat.zero_le _)]
  cases TokenRun.scanFrom 0 0 left with
  | error fault =>
    -- A text that cannot be scanned in front cannot be scanned at all.
    rfl
  | ok run =>
    -- The second part starts where the first one stops, which does not change its words.
    have same := TokenRun.words_scanFrom run.stop.position 0 (c :: tail)
    simp only [bind, Except.bind, Except.toOption, Option.map_some, Option.bind_some] at same ⊢
    rw [← same]
    cases TokenRun.scanFrom run.stop.position 0 (c :: tail) <;>
      simp [TokenRun.words, pure, Except.pure]

/-- A blank or a colon in front of a text adds no word. -/
theorem words?_skipped {c : Char} (skipped : TokenRun.isSkipped c = true) (rest : List Char) :
    words? (c :: rest) = words? rest := by
  unfold words? TokenRun.scan
  rw [TokenRun.scanFrom, if_pos skipped]
  exact TokenRun.words_scanFrom _ 0 rest

/-- A sign is a token of its own wherever it stands. -/
structure IsSign (c : Char) (kind : TokenKind) : Prop where
  /-- No token goes on with the sign. -/
  ends : EndsTokens c
  /-- The sign is not passed over. -/
  shown : TokenRun.isSkipped c = false
  /-- The sign begins its token whatever follows. -/
  leads : ∀ rest, TokenKind.leading? (c :: rest) = some kind
  /-- The sign is all of its token. -/
  single : kind.width = 1

/-- The sign between expressions. -/
theorem isSign_semicolon : IsSign ';' .semicolon := ⟨by decide, rfl, fun _ => rfl, rfl⟩

/-- The sign between the parts of a list. -/
theorem isSign_comma : IsSign ',' .comma := ⟨by decide, rfl, fun _ => rfl, rfl⟩

/-- The sign between the ends of a range. -/
theorem isSign_dash : IsSign '-' .dash := ⟨by decide, rfl, fun _ => rfl, rfl⟩

/-- The sign for years without an end. -/
theorem isSign_plus : IsSign '+' .plus := ⟨by decide, rfl, fun _ => rfl, rfl⟩

/-- A sign in front of a text is a word of its own. -/
theorem words?_sign {c : Char} {kind : TokenKind} (sign : IsSign c kind) (rest : List Char) :
    words? (c :: rest) = (words? rest).map (⟨kind, [c]⟩ :: ·) := by
  unfold words? TokenRun.scan
  simp only [TokenRun.scanFrom, sign.shown, sign.leads, sign.single]
  rw [← TokenRun.words_scanFrom (0 + c.utf8Size) 0 rest]
  cases TokenRun.scanFrom (0 + c.utf8Size) 0 rest <;> rfl

/-- A text that is one token is one word. -/
theorem words?_token {c : Char} {rest : List Char} {kind : TokenKind}
    (shown : TokenRun.isSkipped c = false) (leads : TokenKind.leading? (c :: rest) = some kind)
    (whole : kind.width = (c :: rest).length) :
    words? (c :: rest) = some [⟨kind, c :: rest⟩] := by
  -- The characters behind the first one all belong to the token.
  have inside : ∀ (text : List Char) (position : Nat), ∃ stop,
      TokenRun.scanFrom position text.length text = .ok ⟨[], stop⟩ := by
    intro text
    induction text with
    | nil => exact fun position => ⟨_, rfl⟩
    | cons d text ih => exact fun position => ih (position + d.utf8Size)
  -- What is left behind it is no token, and so the token is the only one.
  obtain ⟨stop, scanned⟩ := inside rest (0 + c.utf8Size)
  rw [List.length_cons] at whole
  unfold words? TokenRun.scan
  simp only [TokenRun.scanFrom, shown, leads, whole, Nat.add_sub_cancel, scanned,
    List.take_succ_cons, List.take_length]
  rfl

/-- A blank begins no token. -/
theorem TokenKind.leading?_of_isBlank {c : Char} (blank : isBlank c = true) (rest : List Char) :
    leading? (c :: rest) = none := by
  have outside := toNat_of_isBlank blank
  -- Tokens begin with digits, letters and signs, all of which ASCII prints.
  have digit : c.isDigit = false := by
    simp only [Char.isDigit, Bool.and_eq_false_iff, decide_eq_false_iff_not, UInt32.le_iff_toNat_le,
      Char.toNat_val, Char.reduceToNat]
    omega
  have letter : c.isAlpha = false := by
    delta Char.isAlpha Char.isUpper Char.isLower
    simp only [Bool.or_eq_false_iff, Bool.and_eq_false_iff, decide_eq_false_iff_not,
      UInt32.le_iff_toNat_le, Char.toNat_val, Char.reduceToNat]
    omega
  have sign : ∀ sign : Char, 32 < sign.toNat → sign.toNat < 133 → (c == sign) = false := by
    intro sign above below
    refine beq_eq_false_iff_ne.mpr fun same => ?_
    subst same
    omega
  -- A blank is no capital, so lowering keeps it.
  have lowered : c.toLower = c := by
    unfold Char.toLower
    split
    · rename_i capital
      have first : 65 ≤ c.toNat := capital.1
      have last : c.toNat ≤ 90 := capital.2
      omega
    · rfl
  simp [leading?, precedence, pattern, beginsWith, digit, letter, lowered, sign]

/-- A text of blanks alone has no words. -/
theorem words?_of_isBlankText {text : List Char} {words : List Word}
    (blank : isBlankText text = true) (cut : words? text = some words) : words = [] := by
  induction text generalizing words with
  | nil =>
    cases cut
    rfl
  | cons c rest ih =>
    simp only [isBlankText, List.all_cons, Bool.and_eq_true] at blank
    cases skipped : TokenRun.isSkipped c with
    | true =>
      rw [words?_skipped skipped] at cut
      exact ih blank.2 cut
    | false =>
      -- A blank that is not passed over cannot be scanned.
      have stuck : words? (c :: rest) = none := by
        simp [words?, TokenRun.scan, TokenRun.scanFrom, skipped,
          TokenKind.leading?_of_isBlank blank.1, Except.toOption]
      rw [stuck] at cut
      cases cut

end OpeningTimes
