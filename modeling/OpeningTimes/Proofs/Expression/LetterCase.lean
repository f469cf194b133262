import OpeningTimes.Proofs.Expression.LongestKind
import OpeningTimes.Proofs.Expression.Words
import Mathlib

/-!
The case of letters changes neither what a text is cut into nor how it is read.

Only what a fault quotes from the text may differ in case.
-/

namespace OpeningTimes

/-- Something is the same for a letter in either case. -/
def IgnoresCase {Result : Type} (test : Char → Result) : Prop :=
  ∀ c : Char, test c.toLower = test c

namespace IgnoresCase

variable {Result : Type} {test : Char → Result}

/-- What ignores case is the same for characters that agree up to case. -/
theorem eq {c d : Char} (ignores : IgnoresCase test) (same : c.toLower = d.toLower) :
    test c = test d := by
  -- Both characters are tested as well by their common lowering.
  rw [← ignores c, same, ignores d]

/-- What is the same for all letters ignores their case. -/
theorem of_letters (answer : Result) (letters : ∀ c : Char, c.isAlpha = true → test c = answer) :
    IgnoresCase test := by
  intro c
  by_cases capital : c.isUpper = true
  · -- A capital and the small letter made of it are letters.
    have letter : c.isAlpha = true := by simp [Char.isAlpha, capital]
    have lowered : c.toLower.isAlpha = true := by simp [letter]
    rw [letters c letter, letters c.toLower lowered]
  · -- Any other character is its own lowering.
    rw [Char.toLower_eq_of_not_isUpper capital]

end IgnoresCase

/-- Letters stand in their place among the characters of ASCII. -/
theorem toNat_of_isAlpha {c : Char} (letter : c.isAlpha = true) : 65 ≤ c.toNat ∧ c.toNat ≤ 122 := by
  delta Char.isAlpha Char.isUpper Char.isLower at letter
  simp only [Bool.or_eq_true, Bool.and_eq_true, decide_eq_true_eq, ge_iff_le,
    UInt32.le_iff_toNat_le, Char.toNat_val, Char.reduceToNat] at letter
  omega

/-- No letter is a digit. -/
theorem ignoresCase_isDigit : IgnoresCase Char.isDigit := by
  apply IgnoresCase.of_letters false
  intro c letter
  rw [← Bool.not_eq_true]
  intro digit
  simp [TokenKind.isAlpha_of_isDigit digit] at letter

/-- A sign in front of the letters is not mistaken for one. -/
theorem ignoresCase_beq {sign : Char} (small : sign.toNat < 65) :
    IgnoresCase fun c : Char => c == sign := by
  intro c
  rw [Bool.eq_iff_iff, beq_iff_eq, beq_iff_eq, toLower_eq_iff_of_lt small]

/-- Letters take one byte each. -/
theorem ignoresCase_utf8Size : IgnoresCase Char.utf8Size := by
  apply IgnoresCase.of_letters 1
  intro c letter
  have bounds := toNat_of_isAlpha letter
  exact utf8Size_of_lt (Nat.lt_of_le_of_lt bounds.2 (by decide))

/-- No letter is a blank. -/
theorem ignoresCase_isBlank : IgnoresCase isBlank := by
  apply IgnoresCase.of_letters false
  intro c letter
  have bounds := toNat_of_isAlpha letter
  rw [← Bool.not_eq_true]
  intro blank
  have outside := toNat_of_isBlank blank
  omega

/-- No letter is passed over. -/
theorem ignoresCase_isSkipped : IgnoresCase TokenRun.isSkipped := by
  apply IgnoresCase.of_letters false
  intro c letter
  rw [← Bool.not_eq_true]
  intro skipped
  simp only [TokenRun.isSkipped, Bool.or_eq_true, beq_iff_eq] at skipped
  -- The five characters that are passed over are no letters.
  rcases skipped with (((rfl | rfl) | rfl) | rfl) | rfl <;> cases letter

/-- No pattern tells the cases of a letter apart. -/
theorem TokenKind.ignoresCase_of_mem_pattern {kind : TokenKind} {test : Char → Bool}
    (listed : test ∈ kind.pattern) : IgnoresCase test := by
  have letter : IgnoresCase Char.isAlpha := Char.isAlpha_toLower_eq_isAlpha
  have lowered (small : Char) : IgnoresCase fun c : Char => c.toLower == small := by
    intro c
    exact congrArg (· == small) (Char.toLower_toLower_eq_toLower c)
  cases kind <;> simp only [pattern, List.mem_cons, List.not_mem_nil, or_false, or_self] at listed
  -- The words are made of letters, and the other tokens of digits and signs.
  case year | number => exact listed ▸ ignoresCase_isDigit
  case month | day => exact listed ▸ letter
  case plus | dash | semicolon | comma => exact listed ▸ ignoresCase_beq (by decide)
  case off => rcases listed with rfl | rfl <;> exact lowered _
  case time =>
    rcases listed with rfl | rfl | rfl | rfl | rfl
    case inr.inr.inl => exact ignoresCase_beq (by decide)
    all_goals exact ignoresCase_isDigit
  case always => rcases listed with rfl | rfl | rfl | rfl <;> exact ignoresCase_beq (by decide)

/-- Texts that agree up to case pass the same tests, when these ignore it. -/
theorem beginsWith_eq_of_sameLetters {tests : List (Char → Bool)} {left right : List Char}
    (same : sameLetters left right = true) (ignore : ∀ test ∈ tests, IgnoresCase test) :
    beginsWith tests left = beginsWith tests right := by
  have equal : List.Forall₂ Eq (left.map Char.toLower) (right.map Char.toLower) :=
    sameLetters_iff.mp same ▸ List.forall₂_refl _
  rw [List.forall₂_map_left_iff, List.forall₂_map_right_iff] at equal
  exact beginsWith_eq_of_forall₂ equal fun test listed _ _ lowered =>
    (ignore test listed).eq lowered

/-- Texts that agree up to case begin with tokens of the same kind. -/
theorem TokenKind.leading?_eq_of_sameLetters {left right : List Char}
    (same : sameLetters left right = true) : leading? left = leading? right := by
  unfold leading?
  congr 1
  funext kind
  exact beginsWith_eq_of_sameLetters same fun _ listed => ignoresCase_of_mem_pattern listed

/-- Texts that agree up to case are blank alike. -/
theorem isBlankText_eq_of_sameLetters {left right : List Char}
    (same : sameLetters left right = true) : isBlankText left = isBlankText right := by
  have lowered (text : List Char) : isBlankText (text.map Char.toLower) = isBlankText text := by
    unfold isBlankText
    rw [List.all_map]
    congr 1
    funext c
    exact ignoresCase_isBlank c
  rw [← lowered left, sameLetters_iff.mp same, lowered right]

/-- Two tokens differ in the case of their letters only. -/
structure Token.SameButCase (left right : Token) : Prop where
  /-- The tokens are of one kind. -/
  kind : left.kind = right.kind
  /-- The tokens stand in the same place. -/
  position : left.position = right.position
  /-- The tokens have the same letters. -/
  text : sameLetters left.text right.text = true

/-- Two faults are of one sort and in the same place, and what they quote differs in case only. -/
inductive Fault.SameButCase : Fault → Fault → Prop where
  /-- No token starts at the same place of both texts. -/
  | character (position : Nat) {left right : Char} (found : left.toLower = right.toLower) :
    SameButCase (.character position left) (.character position right)
  /-- The same is missing in the place of a token. -/
  | token (expected : Expectation) {left right : Token} (found : left.SameButCase right) :
    SameButCase (.token expected left) (.token expected right)
  /-- A number exceeds the same limit. -/
  | tooLarge (limit : Limit) {left right : List Char} (value : sameLetters left right = true) :
    SameButCase (.tooLarge left limit) (.tooLarge right limit)

/-- Two scans come to tokens that differ in case only, or they stop at the same place. -/
inductive TokenRun.ScanAlike : Except Fault TokenRun → Except Fault TokenRun → Prop where
  /-- Both texts are cut into tokens. -/
  | run {left right : TokenRun} (tokens : List.Forall₂ Token.SameButCase left.tokens right.tokens)
    (stop : left.stop = right.stop) : ScanAlike (.ok left) (.ok right)
  /-- In both texts no token starts at some character. -/
  | stuck (position : Nat) {left right : Char} (found : left.toLower = right.toLower) :
    ScanAlike (.error (.character position left)) (.error (.character position right))

/-- Texts that agree up to case are scanned alike. -/
theorem TokenRun.scanFrom_alike {left right : List Char} (same : sameLetters left right = true)
    (position inside : Nat) :
    ScanAlike (scanFrom position inside left) (scanFrom position inside right) := by
  -- The scan goes through both texts side by side, from the same place with as many bytes behind.
  induction left generalizing right position inside with
  | nil =>
    obtain rfl : right = [] := List.map_eq_nil_iff.mp (sameLetters_iff.mp same).symm
    exact .run .nil rfl
  | cons c left ih =>
    cases right with
    | nil => cases sameLetters_iff.mp same
    | cons d right =>
      have leads := TokenKind.leading?_eq_of_sameLetters same
      obtain ⟨first, others⟩ : c.toLower = d.toLower ∧ sameLetters left right = true := by
        rw [sameLetters_iff] at same ⊢
        exact List.cons.inj same
      have bytes := ignoresCase_utf8Size.eq first
      have skipped := ignoresCase_isSkipped.eq first
      cases inside with
      | succ inside =>
        rw [scanFrom, scanFrom, bytes]
        exact ih others _ _
      | zero =>
        rw [scanFrom, scanFrom, bytes, skipped, leads]
        split
        · exact ih others _ _
        · cases TokenKind.leading? (d :: right) with
          | none => exact .stuck position first
          | some kind =>
            -- The characters of the token agree up to case, as the texts do.
            have taken : sameLetters ((c :: left).take kind.width) ((d :: right).take kind.width) =
                true := by
              rw [sameLetters_iff] at same ⊢
              rw [List.map_take, List.map_take, same]
            have behind := ih others (position + d.utf8Size) (kind.width - 1)
            revert behind
            dsimp only
            generalize scanFrom (position + d.utf8Size) (kind.width - 1) left = leftScan
            generalize scanFrom (position + d.utf8Size) (kind.width - 1) right = rightScan
            intro behind
            cases behind with
            | stuck place found => exact .stuck place found
            | run tokens stop => exact .run (.cons ⟨rfl, rfl, taken⟩ tokens) stop

/-- Tokens and faults that differ in case only are alike to readers. -/
def Likeness.ofLetters : Likeness where
  tokens := Token.SameButCase
  faults := Fault.SameButCase
  kind_eq same := same.kind
  sameLetters same := same.text
  refused same expected := .token expected same
  tooLarge same limit := .tooLarge limit same.text
  tooLarge_self _ limit := .tooLarge limit (sameLetters_iff.mpr rfl)

/-- Texts that agree up to case are read as the same expressions. -/
theorem readText_alike {left right : List Char} (same : sameLetters left right = true) :
    Reading.Alike Fault.SameButCase Eq (readText left) (readText right) := by
  have scans := TokenRun.scanFrom_alike same 0 0
  unfold readText TokenRun.scan
  revert scans
  generalize TokenRun.scanFrom 0 0 left = leftScan
  generalize TokenRun.scanFrom 0 0 right = rightScan
  intro scans
  cases scans with
  | stuck position found => exact .fault (.character position found)
  | @run leftRun rightRun tokens stop =>
    -- The two tokens at the end are the same one.
    have stops : Likeness.ofLetters.Stops leftRun.stop rightRun.stop := by
      intro expected
      exact .token expected (stop ▸ ⟨rfl, rfl, sameLetters_iff.mpr rfl⟩)
    exact Likeness.readExpressions_alike (Likeness.expressions_alike ⟨tokens, stops⟩)

/--
Texts that agree up to case are cut into tokens of the same kinds in the same places.

They describe the same schedule with the same warnings, or they have the same fault in the same place.
-/
theorem Schedule.read_sameLetters {left right : List Char} (same : sameLetters left right = true) :
    TokenRun.ScanAlike (TokenRun.scan left) (TokenRun.scan right) ∧
      Reading.Alike Fault.SameButCase Eq (read left) (read right) := by
  refine ⟨TokenRun.scanFrom_alike same 0 0, ?_⟩
  have blank := isBlankText_eq_of_sameLetters same
  cases filled : isBlankText right with
  | true =>
    -- Both texts describe the empty schedule.
    rw [filled] at blank
    rw [read, read, if_pos blank, if_pos filled]
    exact .value rfl
  | false =>
    rw [filled] at blank
    rw [read_eq_readText blank, read_eq_readText filled]
    refine (readText_alike same).bind ?_
    intro _ _ expressions
    exact .value (congrArg ofExpressions expressions)

/-- A range from holidays to Sundays is refused in either case, behind a warning about the day. -/
theorem Schedule.read_sameLetters_holidayRange :
    let small := "sep 42 off; jun 00 ph-su".toList
    let large := "SEP 42 Off; JUN 00 pH-SU".toList
    sameLetters small large = true ∧
      TokenRun.ScanAlike (TokenRun.scan small) (TokenRun.scan large) ∧
      Reading.Alike Fault.SameButCase Eq (read small) (read large) ∧
      (read small).warnings = [⟨.september, 42⟩, ⟨.june, 0⟩] ∧
      (read small).outcome = .error (.token .weekdayRange ⟨.day, ['s', 'u'], 22⟩) := by
  intro small large
  have same : sameLetters small large = true := by decide
  obtain ⟨scans, reads⟩ := read_sameLetters same
  exact ⟨same, scans, reads, rfl, rfl⟩

end OpeningTimes
