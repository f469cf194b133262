import OpeningTimes.Proofs.Expression.Scan
import OpeningTimes.Proofs.Text.Letters
import Mathlib.Data.List.Forall2

/-!
The kind of token that a text begins with is the longest one possible.

The kinds are tried in a fixed order, and none of them hides a longer one that comes later.
-/

namespace OpeningTimes

/-- A text that is long enough decides all tests, whatever follows it. -/
theorem beginsWith_append_of_length_le {tests : List (Char → Bool)} {text : List Char}
    (enough : tests.length ≤ text.length) (rest : List Char) :
    beginsWith tests (text ++ rest) = beginsWith tests text := by
  induction tests generalizing text with
  | nil => cases text <;> rfl
  | cons test tests ih =>
    cases text with
    | nil => exact absurd enough (Nat.not_succ_le_zero _)
    | cons c text =>
      simp only [List.cons_append, beginsWith]
      rw [ih (Nat.le_of_succ_le_succ enough)]

/-- Texts pass the same tests when these do not tell apart what stands in the same place. -/
theorem beginsWith_eq_of_forall₂ {alike : Char → Char → Prop} {tests : List (Char → Bool)}
    {left right : List Char} (same : List.Forall₂ alike left right)
    (agree : ∀ test ∈ tests, ∀ c d, alike c d → test c = test d) :
    beginsWith tests left = beginsWith tests right := by
  induction tests generalizing left right with
  | nil => cases same <;> rfl
  | cons test tests ih =>
    cases same with
    | nil => rfl
    | cons first rest =>
      -- The first characters pass the first test alike, and the others follow.
      have begun := agree test List.mem_cons_self _ _ first
      have others := ih rest fun later listed => agree later (List.mem_cons_of_mem _ listed)
      rw [beginsWith, beginsWith, begun, others]

/-- Each test is passed by the character in its place. -/
theorem exists_char_of_beginsWith {tests : List (Char → Bool)} {text : List Char}
    (begun : beginsWith tests text = true) {place : Nat} {test : Char → Bool}
    (put : tests[place]? = some test) : ∃ c, text[place]? = some c ∧ test c = true := by
  induction tests generalizing text place with
  | nil => cases put
  | cons first tests ih =>
    cases text with
    | nil => cases begun
    | cons c rest =>
      simp only [beginsWith, Bool.and_eq_true] at begun
      cases place with
      | zero =>
        cases put
        exact ⟨c, rfl, begun.1⟩
      | succ place => exact ih begun.2 put

namespace TokenKind

/-- A text begins with a token of a kind, where its end is no token. -/
def Begins (kind : TokenKind) (text : List Char) : Prop :=
  kind ≠ .finish ∧ beginsWith kind.pattern text = true

/--
A text begins with a token of this kind and with no longer one.

Of the same length is only a month that is the word that closes.
-/
structure Longest (kind : TokenKind) (text : List Char) : Prop where
  /-- The text begins with a token of the kind. -/
  begins : kind.Begins text
  /-- Tokens of other kinds are shorter, or the word that closes is preferred to them. -/
  others : ∀ other : TokenKind, other.Begins text →
    other = kind ∨ other.width < kind.width ∨ (kind = .off ∧ other = .month)

/-- Every token has a character at least. -/
theorem width_pos {kind : TokenKind} (shown : kind ≠ .finish) : 0 < kind.width := by
  cases kind with
  | finish => exact absurd rfl shown
  | _ => decide

/-- All kinds of tokens are looked for, those of the end left out. -/
theorem mem_precedence {kind : TokenKind} : kind ∈ precedence ↔ kind ≠ .finish := by
  cases kind <;> decide

/-- Pairs of kinds that no text begins with at once, although the first one is not longer. -/
def apart : List (TokenKind × TokenKind) :=
  [(always, year), (number, off), (number, month), (number, day), (plus, dash), (plus, semicolon),
    (plus, comma), (dash, semicolon), (dash, comma), (semicolon, comma)]

/-- No text begins with tokens of two kinds that differ in some place. -/
theorem not_begins_of_test {kind other : TokenKind} (place : Nat) {test otherTest : Char → Bool}
    (put : kind.pattern[place]? = some test) (otherPut : other.pattern[place]? = some otherTest)
    (differ : ∀ c, test c = true → otherTest c = false) {text : List Char}
    (begins : kind.Begins text) : ¬ other.Begins text := by
  intro otherBegins
  obtain ⟨c, found, passed⟩ := exists_char_of_beginsWith begins.2 put
  obtain ⟨d, foundToo, otherPassed⟩ := exists_char_of_beginsWith otherBegins.2 otherPut
  -- Both tests are put to the same character.
  cases found.symm.trans foundToo
  rw [differ c passed] at otherPassed
  contradiction

/-- A digit is no letter. -/
theorem isAlpha_of_isDigit {c : Char} (digit : c.isDigit = true) : c.isAlpha = false := by
  -- The codes of digits are below those of all letters.
  have small := toNat_lt_of_isDigit digit
  delta Char.isAlpha Char.isUpper Char.isLower
  simp only [Bool.or_eq_false_iff, Bool.and_eq_false_iff, decide_eq_false_iff_not,
    UInt32.le_iff_toNat_le, Char.toNat_val, Char.reduceToNat]
  omega

/-- No text begins with tokens of two kinds that are apart. -/
theorem not_begins_of_mem_apart {kind other : TokenKind} (listed : (kind, other) ∈ apart)
    {text : List Char} (begins : kind.Begins text) : ¬ other.Begins text := by
  have signs : ∀ {first second : Char}, first ≠ second →
      ∀ c, (c == first) = true → (c == second) = false := by
    intro first second different c same
    rw [eq_of_beq same]
    exact beq_false_of_ne different
  have letter : ∀ c : Char, c.isDigit = true → c.isAlpha = false := fun _ => isAlpha_of_isDigit
  simp only [apart, List.mem_cons, Prod.mk.injEq, List.not_mem_nil, or_false] at listed
  rcases listed with ⟨rfl, rfl⟩ | ⟨rfl, rfl⟩ | ⟨rfl, rfl⟩ | ⟨rfl, rfl⟩ | ⟨rfl, rfl⟩ | ⟨rfl, rfl⟩ |
    ⟨rfl, rfl⟩ | ⟨rfl, rfl⟩ | ⟨rfl, rfl⟩ | ⟨rfl, rfl⟩
  · -- The sign for all hours has a stroke where a year has its third digit.
    refine not_begins_of_test 2 rfl rfl ?_ begins
    intro c stroke
    rw [eq_of_beq stroke]
    rfl
  · -- A digit is its own lowering, and so it does not lower to a letter.
    refine not_begins_of_test 0 rfl rfl ?_ begins
    intro c digit
    refine beq_false_of_ne ?_
    rw [(toLower_eq_iff_of_lt (toNat_lt_of_isDigit digit)).mpr rfl]
    intro same
    rw [same] at digit
    cases digit
  · exact not_begins_of_test 0 rfl rfl letter begins
  · exact not_begins_of_test 0 rfl rfl letter begins
  all_goals exact not_begins_of_test 0 rfl rfl (signs (by decide)) begins

/-- Later kinds are shorter than earlier ones, or they are told apart from them. -/
theorem precedence_pairwise : precedence.Pairwise fun kind other =>
    other.width < kind.width ∨ (kind = .off ∧ other = .month) ∨ (kind, other) ∈ apart := by
  decide

/-- The kind that is found first is the longest. -/
theorem longest_of_leading? {kind : TokenKind} {text : List Char}
    (found : leading? text = some kind) : kind.Longest text := by
  obtain ⟨begun, front, back, order, passed⟩ := List.find?_eq_some_iff_append.mp found
  have listed : kind ∈ precedence := by simp [order]
  have begins : kind.Begins text := ⟨mem_precedence.mp listed, begun⟩
  refine ⟨begins, ?_⟩
  intro other otherBegins
  have otherListed := mem_precedence.mpr otherBegins.1
  rw [order, List.mem_append, List.mem_cons] at otherListed
  rcases otherListed with inFront | same | behind
  · -- A kind in front would have been found instead.
    have missed := passed other inFront
    rw [otherBegins.2] at missed
    contradiction
  · exact .inl same
  · -- A kind behind is shorter, unless it is told apart.
    have pairs := precedence_pairwise
    rw [order, List.pairwise_append, List.pairwise_cons] at pairs
    rcases pairs.2.1.1 other behind with shorter | closes | different
    · exact .inr (.inl shorter)
    · exact .inr (.inr closes)
    · exact absurd otherBegins (not_begins_of_mem_apart different begins)

/-- A text begins with one longest kind only. -/
theorem Longest.unique {kind other : TokenKind} {text : List Char} (longest : kind.Longest text)
    (otherLongest : other.Longest text) : kind = other := by
  -- Two different ones would each be shorter, or else each be the word that closes.
  rcases longest.others other otherLongest.begins with same | shorter | ⟨rfl, rfl⟩
  · exact same.symm
  · rcases otherLongest.others kind longest.begins with same | shorterToo | ⟨rfl, rfl⟩
    · exact same
    · omega
    · exact absurd shorter (by decide)
  · rcases otherLongest.others .off longest.begins with same | shorter | ⟨impossible, -⟩
    · exact same
    · exact absurd shorter (by decide)
    · cases impossible

/-- No kind is found when the text begins with none. -/
theorem leading?_eq_none_iff {text : List Char} :
    leading? text = none ↔ ∀ kind : TokenKind, ¬ kind.Begins text := by
  unfold leading?
  rw [List.find?_eq_none]
  constructor
  · intro passed kind begins
    exact passed kind (mem_precedence.mpr begins.1) begins.2
  · intro nothing kind listed begun
    exact nothing kind ⟨mem_precedence.mp listed, begun⟩

/-- The longest kind is found. -/
theorem Longest.leading? {kind : TokenKind} {text : List Char} (longest : kind.Longest text) :
    TokenKind.leading? text = some kind := by
  cases found : TokenKind.leading? text with
  | none => exact absurd longest.begins (leading?_eq_none_iff.mp found kind)
  | some other => rw [(longest_of_leading? found).unique longest]

/-- What is longest within its own characters stays so when less follows them. -/
theorem Longest.of_append {kind : TokenKind} {text less more : List Char}
    (longest : kind.Longest (text ++ (less ++ more))) (whole : text.length = kind.width) :
    kind.Longest (text ++ less) := by
  obtain ⟨⟨shown, begun⟩, others⟩ := longest
  refine ⟨⟨shown, ?_⟩, ?_⟩
  · -- The token itself does not reach into what follows.
    have enough : kind.pattern.length ≤ text.length := Nat.le_of_eq whole.symm
    rw [beginsWith_append_of_length_le enough] at begun ⊢
    exact begun
  · -- Whatever the shorter text begins with, the longer one does as well.
    intro other ⟨otherShown, otherBegun⟩
    refine others other ⟨otherShown, ?_⟩
    rw [← List.append_assoc, beginsWith_append_of_length_le (length_le_of_beginsWith otherBegun)]
    exact otherBegun

end TokenKind

end OpeningTimes
