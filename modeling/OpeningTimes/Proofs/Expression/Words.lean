import OpeningTimes.Expression.Meaning
import OpeningTimes.Proofs.Expression.Likeness
import OpeningTimes.Proofs.Expression.Scan

/-!
What a text means depends on its words only.

A semicolon parts the expressions in front of it from those behind it.
-/

namespace OpeningTimes

namespace Reading

variable {Value Next : Type}

/-- The value that a reading comes to, if any. -/
def value? (reading : Reading Value) : Option Value :=
  reading.outcome.toOption

/-- A reading has the value that its outcome is. -/
theorem value?_eq_some_iff {reading : Reading Value} {value : Value} :
    reading.value? = some value ↔ reading.outcome = .ok value := by
  unfold value?
  cases reading.outcome <;> simp [Except.toOption]

/-- Giving a value comes to it. -/
@[simp] theorem value?_pure (value : Value) : (pure value : Reading Value).value? = some value :=
  rfl

/-- A fault is no value. -/
@[simp] theorem value?_fail (fault : Fault) : (fail fault : Reading Value).value? = none :=
  rfl

/-- Stopping at a token comes to no value. -/
@[simp] theorem value?_refuse (expected : Expectation) (found : Token) :
    (refuse expected found : Reading Value).value? = none :=
  rfl

/-- A warning does not keep from reading on. -/
@[simp] theorem value?_warn (warning : DayWarning) : (warn warning).value? = some () :=
  rfl

/-- Reading on comes to the value of the second reading, given that of the first one. -/
@[simp] theorem value?_bind (reading : Reading Value) (next : Value → Reading Next) :
    (reading >>= next).value? = reading.value?.bind fun value => (next value).value? := by
  unfold value?
  rw [outcome_bind]
  cases reading.outcome <;> rfl

/-- Reading on comes to a value by way of another one. -/
theorem value?_bind_eq_some_iff {reading : Reading Value} {next : Value → Reading Next}
    {value : Next} : (reading >>= next).value? = some value ↔
      ∃ first, reading.value? = some first ∧ (next first).value? = some value := by
  rw [value?_bind, Option.bind_eq_some_iff]

/-- Giving a value comes to no other one. -/
theorem value?_pure_eq_some_iff {value other : Value} :
    (pure value : Reading Value).value? = some other ↔ value = other := by
  rw [value?_pure, Option.some.injEq]

/-- Readings that go alike come to the same value, if to any. -/
theorem Alike.value?_eq {faults : Fault → Fault → Prop} {left right : Reading Value}
    (alike : Alike faults Eq left right) : left.value? = right.value? := by
  cases alike with
  | value same => rw [same]
  | fault _ => rfl

end Reading

namespace Likeness

/-- Words are alike when they are the same, whatever faults they lead to. -/
def ofWords : Likeness where
  tokens left right := left.word = right.word
  faults _ _ := True
  kind_eq same := congrArg Word.kind same
  sameLetters same := sameLetters_iff.mpr (congrArg (fun word => word.text.map Char.toLower) same)
  refused _ _ := trivial
  tooLarge _ _ := trivial
  tooLarge_self _ _ := trivial

/-- Rows with the same words are alike. -/
theorem rows_ofWords {left right : List Token} (same : left.map Token.word = right.map Token.word) :
    ofWords.Rows left right := by
  have equal : List.Forall₂ Eq (left.map Token.word) (right.map Token.word) :=
    same ▸ List.forall₂_refl _
  rw [List.forall₂_map_left_iff, List.forall₂_map_right_iff] at equal
  exact equal

end Likeness

/-- Runs with the same words are read as the same expressions. -/
theorem value?_readExpressions_eq {left right : TokenRun} (same : left.words = right.words) :
    (readExpressions left.expressions).value? = (readExpressions right.expressions).value? := by
  have alike : Likeness.ofWords.Runs left right := ⟨Likeness.rows_ofWords same, fun _ => trivial⟩
  exact (Likeness.readExpressions_alike (Likeness.expressions_alike alike)).value?_eq

/-- A word as a token at the beginning of a text. -/
def Word.token (word : Word) : Token :=
  ⟨word.kind, word.text, 0⟩

/-- Words in a row, ended as a text is. -/
def TokenRun.ofWords (words : List Word) : TokenRun :=
  ⟨words.map Word.token, ⟨.finish, [], 0⟩⟩

/-- Words in a row are the words of that row. -/
theorem TokenRun.words_ofWords (words : List Word) : (ofWords words).words = words := by
  unfold TokenRun.words ofWords
  rw [List.map_map]
  exact List.map_id words

/-- The expressions that words are read as, if they can be. -/
def expressions? (words : List Word) : Option (List Expression) :=
  (readExpressions (TokenRun.ofWords words).expressions).value?

/-- Reading some runs and then others comes to the expressions of both. -/
theorem value?_readExpressions_append (left right : List TokenRun) :
    (readExpressions (left ++ right)).value? = (do
      let earlier ← (readExpressions left).value?
      let later ← (readExpressions right).value?
      return earlier ++ later) := by
  induction left with
  | nil => simp [readExpressions]
  | cons run left ih =>
    -- The first expression is put in front on both sides, if there is one.
    simp only [List.cons_append, readExpressions, Reading.value?_bind, ih]
    cases run.readExpression.value? with
    | none => rfl
    | some first => simp [Option.bind_assoc]

/-- A semicolon ends the expressions in front of it, and the others begin behind it. -/
theorem TokenRun.expressions_append (left right : List Token) {semicolon : Token} (stop : Token)
    (parts : semicolon.kind = .semicolon) :
    expressions ⟨left ++ semicolon :: right, stop⟩ =
      expressions ⟨left, semicolon⟩ ++ expressions ⟨right, stop⟩ := by
  have general : cut stop (left ++ semicolon :: right) =
      ((cut semicolon left).1, (cut semicolon left).2 ++ expressions ⟨right, stop⟩) := by
    -- Every semicolon in front is cut in the same way on both sides.
    induction left with
    | nil => simp [cut, parts, expressions]
    | cons token left ih =>
      simp only [List.cons_append, cut, ih]
      split <;> rfl
  rw [expressions, general]
  rfl

/-- The sign between expressions. -/
def Word.semicolon : Word :=
  ⟨.semicolon, [';']⟩

/-- Words with a semicolon between them are read when both sides are, as the expressions of both. -/
theorem expressions?_append (left right : List Word) :
    expressions? (left ++ .semicolon :: right) = (do
      let earlier ← expressions? left
      let later ← expressions? right
      return earlier ++ later) := by
  -- It does not matter whether a semicolon or the end closes the left side.
  have closed :
      (readExpressions (TokenRun.expressions ⟨left.map Word.token, Word.semicolon.token⟩)).value? =
        expressions? left :=
    value?_readExpressions_eq rfl
  rw [expressions?, TokenRun.ofWords, List.map_append, List.map_cons,
    TokenRun.expressions_append _ _ _ rfl, value?_readExpressions_append, closed]
  rfl

/-- Read a text as expressions, before these are combined. -/
def readText (text : List Char) : Reading (List Expression) :=
  match TokenRun.scan text with
  | .error fault => .fail fault
  | .ok run => readExpressions run.expressions

/-- The schedule of a text that is not blank combines its expressions. -/
theorem Schedule.read_eq_readText {text : List Char} (filled : isBlankText text = false) :
    read text = (do return ofExpressions (← readText text)) := by
  unfold read readText
  rw [filled]
  cases TokenRun.scan text <;> rfl

/-- A text is read as its words are. -/
theorem value?_readText (text : List Char) :
    (readText text).value? = (words? text).bind expressions? := by
  unfold readText words?
  cases TokenRun.scan text with
  | error fault => rfl
  | ok run =>
    -- The places of the tokens do not matter.
    exact value?_readExpressions_eq (TokenRun.words_ofWords run.words).symm

/-- Texts with a semicolon between them are read when both are, as the expressions of both. -/
theorem value?_readText_append (left right : List Char) :
    (readText (left ++ ';' :: right)).value? = (do
      let earlier ← (readText left).value?
      let later ← (readText right).value?
      return earlier ++ later) := by
  have parts : words? (';' :: right) = (words? right).map (Word.semicolon :: ·) :=
    words?_sign isSign_semicolon right
  simp only [value?_readText]
  rw [words?_append (by decide) left right, parts]
  -- Where one of the texts cannot be scanned, neither side has a value.
  cases words? left with
  | none => rfl
  | some first =>
    cases words? right with
    | none => cases read : expressions? first <;> simp [read]
    | some second => exact expressions?_append first second

end OpeningTimes
