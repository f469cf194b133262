import OpeningTimes.Proofs.Expression.Acceptance
import OpeningTimes.Proofs.Expression.Override

/-! A text is read as a schedule exactly when the grammar derives its tokens. -/

namespace OpeningTimes

/-- No semicolon is among some tokens. -/
def Unparted (tokens : List Token) : Prop :=
  ∀ token ∈ tokens, token.kind ≠ .semicolon

section Unparted

variable {tokens : List Token}

/-- Signs other than semicolons between phrases without them bring none in. -/
theorem Separated.unparted {sign : TokenKind} {phrase : List Token → Prop}
    (separated : Separated sign phrase tokens) (inner : sign ≠ .semicolon)
    (each : ∀ tokens, phrase tokens → Unparted tokens) : Unparted tokens := by
  induction separated with
  | single only => exact each _ only
  | cons first parts _ ih =>
    refine List.forall_mem_append.mpr ⟨each _ first, List.forall_mem_cons.mpr ⟨?_, ih⟩⟩
    rw [parts]
    exact inner

/-- An absent phrase has no semicolon. -/
theorem Optional.unparted {phrase : List Token → Prop} (optional : Optional phrase tokens)
    (each : ∀ tokens, phrase tokens → Unparted tokens) : Unparted tokens := by
  rcases optional with rfl | present
  · exact fun token listed => (nomatch listed)
  · exact each _ present

/-- Years have no semicolon. -/
theorem YearsPhrase.unparted (years : YearsPhrase tokens) : Unparted tokens := by
  cases years with
  | only isYear => simp [Unparted, isYear]
  | onward isYear isPlus => simp [Unparted, isYear, isPlus]
  | range isFirst isDash isLast ordered => simp [Unparted, isFirst, isDash, isLast]

/-- A season has no semicolon. -/
theorem SeasonPhrase.unparted (season : SeasonPhrase tokens) : Unparted tokens := by
  cases season with
  | month isMonth => simp [Unparted, isMonth.1]
  | day isMonth isNumber => simp [Unparted, isMonth.1, isNumber]
  | days isMonth isNumber isDash isLastMonth isLastNumber =>
    simp [Unparted, isMonth.1, isNumber, isDash, isLastMonth.1, isLastNumber]
  | months isMonth isDash isLastMonth => simp [Unparted, isMonth.1, isDash, isLastMonth.1]

/-- Hours have no semicolon. -/
theorem HoursPhrase.unparted (hours : HoursPhrase tokens) : Unparted tokens := by
  cases hours with
  | between isFirst isDash isLast => simp [Unparted, isFirst.1, isDash, isLast.1]

/-- A clause has no semicolon. -/
theorem ClausePhrase.unparted (clause : ClausePhrase tokens) : Unparted tokens := by
  cases clause with
  | off isOff => simp [Unparted, isOff]
  | hours list => exact list.unparted (by decide) fun _ hours => hours.unparted

/-- A day has no semicolon. -/
theorem DayPhrase.unparted (day : DayPhrase tokens) : Unparted tokens := by
  cases day with
  | single isDay => simp [Unparted, (Token.isDay_iff.mp isDay).1]

/-- Days have no semicolon. -/
theorem DaysPhrase.unparted (days : DaysPhrase tokens) : Unparted tokens := by
  cases days with
  | range isFirst isDash isLast => simp [Unparted, isFirst.1, isDash, isLast.1]
  | list days => exact days.unparted (by decide) fun _ day => day.unparted

/-- An entry has no semicolon. -/
theorem EntryPhrase.unparted (entry : EntryPhrase tokens) : Unparted tokens := by
  cases entry with
  | days isDays isClause =>
    exact List.forall_mem_append.mpr
      ⟨isDays.unparted, isClause.unparted fun _ clause => clause.unparted⟩
  | always isAlways isClause =>
    refine List.forall_mem_cons.mpr ⟨?_, isClause.unparted fun _ clause => clause.unparted⟩
    simp [isAlways]
  | clause isClause => exact isClause.unparted

/-- An expression has no semicolon. -/
theorem ExpressionPhrase.unparted (expression : ExpressionPhrase tokens) : Unparted tokens := by
  obtain ⟨years, seasons, entries, rfl, isYears, isSeasons, isEntries⟩ := expression.parts
  have inSeasons := isSeasons.unparted fun _ phrases =>
    phrases.unparted (by decide) fun _ season => season.unparted
  have inEntries := isEntries.unparted fun _ phrases =>
    phrases.unparted (by decide) fun _ entry => entry.unparted
  have inYears := isYears.unparted fun _ years => years.unparted
  exact List.forall_mem_append.mpr ⟨List.forall_mem_append.mpr ⟨inYears, inSeasons⟩, inEntries⟩

end Unparted

/-- Runs are read when each of them is. -/
theorem exists_value?_readExpressions_iff {runs : List TokenRun} :
    (∃ expressions, (readExpressions runs).value? = some expressions) ↔
      ∀ run ∈ runs, ∃ expression, run.readExpression.value? = some expression := by
  induction runs with
  | nil => simp [readExpressions]
  | cons run rest ih =>
    rw [List.forall_mem_cons, ← ih]
    simp only [readExpressions, Reading.value?_bind_eq_some_iff, Reading.value?_pure_eq_some_iff]
    constructor
    · rintro ⟨_, first, firstRead, others, othersRead, _⟩
      exact ⟨⟨first, firstRead⟩, others, othersRead⟩
    · rintro ⟨⟨first, firstRead⟩, others, othersRead⟩
      exact ⟨_, first, firstRead, others, othersRead, rfl⟩

namespace TokenRun

variable {phrase : List Token → Prop} {tokens : List Token} (stop : Token)

/-- Phrases in runs cut at semicolons are phrases with semicolons between them. -/
theorem separated_of_expressions (phrases : ∀ run ∈ expressions ⟨tokens, stop⟩, phrase run.tokens) :
    Separated .semicolon phrase tokens := by
  -- What stands in front of the first semicolon is collected one token at a time.
  have general : ∀ (tokens front : List Token), phrase (front ++ (cut stop tokens).1.tokens) →
      (∀ run ∈ (cut stop tokens).2, phrase run.tokens) →
      Separated .semicolon phrase (front ++ tokens) := by
    intro tokens
    induction tokens with
    | nil =>
      intro front first _
      exact .single first
    | cons token rest ih =>
      intro front first others
      rw [cut] at first others
      by_cases parts : token.kind = .semicolon
      · -- What has been collected is a phrase, and nothing is collected for the next one yet.
        simp only [parts, if_true, List.append_nil, List.forall_mem_cons] at first others
        exact .cons first parts (ih [] others.1 others.2)
      · simp only [parts, if_false] at first others
        have collected := ih (front ++ [token]) (by simpa using first) others
        simpa using collected
  rw [expressions, List.forall_mem_cons] at phrases
  exact general tokens [] phrases.1 phrases.2

/-- Phrases without semicolons are the runs that these cut them into. -/
theorem phrase_of_separated (separated : Separated .semicolon phrase tokens)
    (unparted : ∀ tokens, phrase tokens → Unparted tokens) :
    ∀ run ∈ expressions ⟨tokens, stop⟩, phrase run.tokens := by
  -- Nothing cuts a phrase that has no semicolon, so it is a run as a whole.
  have single (tokens : List Token) (stop : Token) (only : phrase tokens) :
      ∀ run ∈ expressions ⟨tokens, stop⟩, phrase run.tokens := by
    rw [expressions, cut_of_unparted (unparted _ only)]
    simpa using only
  induction separated with
  | single only => exact single _ stop only
  | cons first parts _ ih =>
    rw [expressions_append _ _ _ parts, List.forall_mem_append]
    exact ⟨single _ _ first, ih⟩

end TokenRun

/-- Formed tokens are read as expressions exactly when these stand between their semicolons. -/
theorem exists_value?_readExpressions_iff_separated {run : TokenRun}
    (formed : ∀ token ∈ run.tokens, token.Formed) :
    (∃ expressions, (readExpressions run.expressions).value? = some expressions) ↔
      Separated .semicolon ExpressionPhrase run.tokens := by
  rw [exists_value?_readExpressions_iff]
  constructor
  · intro read
    -- Every run was read, so each is a phrase, and the semicolons stand where runs were cut.
    refine TokenRun.separated_of_expressions run.stop fun part listed => ?_
    obtain ⟨expression, found⟩ := read part listed
    exact expressionPhrase_of_readExpression found
  · intro separated
    have phrases := TokenRun.phrase_of_separated run.stop (separated.ofFormed formed)
      fun _ phrase => phrase.1.unparted
    intro part listed
    obtain ⟨phrase, formed⟩ := phrases part listed
    exact exists_value?_readExpression phrase formed

/-- The grammar derives a run exactly when it consists of expressions and the closing token. -/
theorem schedulePhrase_iff {run : TokenRun} : SchedulePhrase run.toList ↔
    Separated .semicolon ExpressionPhrase run.tokens ∧ run.stop.kind = .finish := by
  constructor
  · intro phrase
    generalize whole : run.toList = all at phrase
    cases phrase with
    | ended expressions isStop =>
      -- Both sides end with one token, the closing one.
      obtain ⟨same, closing⟩ := List.append_inj' whole rfl
      cases closing
      rw [same]
      exact ⟨expressions, isStop⟩
  · rintro ⟨expressions, isStop⟩
    exact .ended expressions isStop

namespace Schedule

/-- A text that is not blank is read as a schedule exactly when the grammar derives its tokens. -/
theorem exists_read_iff_schedulePhrase {text : List Char} {run : TokenRun}
    (filled : isBlankText text = false) (scanned : TokenRun.scan text = .ok run) :
    (∃ schedule, (read text).outcome = .ok schedule) ↔ SchedulePhrase run.toList := by
  obtain ⟨formed, isStop⟩ := TokenRun.formed_of_scan scanned
  rw [schedulePhrase_iff, ← exists_value?_readExpressions_iff_separated formed,
    and_iff_left isStop]
  -- The expressions of the text are those of its tokens, and they always make a schedule.
  have same : readText text = readExpressions run.expressions := by
    rw [readText, scanned]
  simp only [read_eq_ok_iff filled, same]
  constructor
  · rintro ⟨_, expressions, found, _⟩
    exact ⟨expressions, found⟩
  · rintro ⟨expressions, found⟩
    exact ⟨_, expressions, found, rfl⟩

/-- Commas stand between seasons, days, hours and entries, but a range of days has no holidays. -/
theorem exists_read_iff_schedulePhrase_commas :
    let derived := "2020+ Jan 05-Feb 10,Mar Mo,PH,We-Th 10:00-12:00,13:00-24:00,Sa,off; 24/7".toList
    let refused := "Mo,We-PH 10:00-12:00".toList
    isBlankText derived = false ∧ isBlankText refused = false ∧
      (∃ run, TokenRun.scan derived = .ok run ∧ SchedulePhrase run.toList) ∧
      ∃ run, TokenRun.scan refused = .ok run ∧ ¬ SchedulePhrase run.toList := by
  intro derived refused
  have derivedFilled : isBlankText derived = false := by decide
  have refusedFilled : isBlankText refused = false := by decide
  refine ⟨derivedFilled, refusedFilled, ⟨_, rfl, ?_⟩, _, rfl, ?_⟩
  · exact (exists_read_iff_schedulePhrase derivedFilled rfl).mp ⟨_, rfl⟩
  · rw [← exists_read_iff_schedulePhrase refusedFilled rfl]
    rintro ⟨schedule, found⟩
    contradiction

end Schedule

end OpeningTimes
