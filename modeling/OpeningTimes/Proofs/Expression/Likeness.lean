import OpeningTimes.Expression.Reader
import OpeningTimes.Proofs.Text.Letters
import Mathlib.Data.List.Forall2

/-!
Readings go alike on tokens of the same kinds with the same letters.

It does not matter to them where the tokens stand.
-/

namespace OpeningTimes

/-- Two readings go alike: with the same warnings they come to alike values or to alike faults. -/
inductive Reading.Alike {Left Right : Type} (faults : Fault → Fault → Prop)
    (values : Left → Right → Prop) : Reading Left → Reading Right → Prop where
  /-- Both readings come to a value. -/
  | value {warnings : List DayWarning} {left : Left} {right : Right} (alike : values left right) :
    Alike faults values ⟨warnings, .ok left⟩ ⟨warnings, .ok right⟩
  /-- Both readings come to a fault. -/
  | fault {warnings : List DayWarning} {left right : Fault} (alike : faults left right) :
    Alike faults values ⟨warnings, .error left⟩ ⟨warnings, .error right⟩

/-- Readings go alike when they start alike and go on alike from alike values. -/
theorem Reading.Alike.bind {Left Right NextLeft NextRight : Type} {faults : Fault → Fault → Prop}
    {values : Left → Right → Prop} {nextValues : NextLeft → NextRight → Prop}
    {left : Reading Left} {right : Reading Right} {nextLeft : Left → Reading NextLeft}
    {nextRight : Right → Reading NextRight} (start : Alike faults values left right)
    (next : ∀ left right, values left right →
      Alike faults nextValues (nextLeft left) (nextRight right)) :
    Alike faults nextValues (left >>= nextLeft) (right >>= nextRight) := by
  cases start with
  | fault alike => exact .fault alike
  | @value warnings left right alike =>
    have after := next left right alike
    -- The warnings of the beginning come in front on both sides.
    show Alike faults nextValues ⟨warnings ++ (nextLeft left).warnings, (nextLeft left).outcome⟩
      ⟨warnings ++ (nextRight right).warnings, (nextRight right).outcome⟩
    generalize nextLeft left = first at after ⊢
    generalize nextRight right = second at after ⊢
    cases after with
    | value alike => exact .value alike
    | fault alike => exact .fault alike

/-- Tokens that no reader tells apart, and the faults that readers find with them. -/
structure Likeness where
  /-- The tokens that are alike. -/
  tokens : Token → Token → Prop
  /-- The faults that are alike. -/
  faults : Fault → Fault → Prop
  /-- Alike tokens are of one kind. -/
  kind_eq : ∀ {left right}, tokens left right → left.kind = right.kind
  /-- Alike tokens have the same letters. -/
  sameLetters : ∀ {left right}, tokens left right → sameLetters left.text right.text = true
  /-- It is alike to stop at one of two alike tokens. -/
  refused : ∀ {left right}, tokens left right → ∀ expected,
    faults (.token expected left) (.token expected right)
  /-- It is alike to find the numbers of two alike tokens too large. -/
  tooLarge : ∀ {left right}, tokens left right → ∀ limit,
    faults (.tooLarge left.text limit) (.tooLarge right.text limit)
  /-- It is alike to find a number too large twice. -/
  tooLarge_self : ∀ value limit, faults (.tooLarge value limit) (.tooLarge value limit)

namespace Likeness

variable (like : Likeness)

/-- Two closing tokens lead to alike faults, which is all that readers use them for. -/
def Stops (left right : Token) : Prop :=
  ∀ expected, like.faults (.token expected left) (.token expected right)

/-- Rows of tokens that are alike one by one. -/
abbrev Rows (left right : List Token) : Prop :=
  List.Forall₂ like.tokens left right

/-- Two readings come to the same value and leave alike tokens, or to alike faults. -/
abbrev Reads {Value : Type} (left right : Reading (Value × List Token)) : Prop :=
  Reading.Alike like.faults (fun left right => left.1 = right.1 ∧ like.Rows left.2 right.2)
    left right

/-- Two readers go alike on alike tokens. -/
def Readers {Value : Type} (left right : Reader Value) : Prop :=
  ∀ leftTokens rightTokens, like.Rows leftTokens rightTokens →
    like.Reads (left leftTokens) (right rightTokens)

variable {like}

/-- Alike rows are both empty, or begin with alike tokens of one kind. -/
theorem rows_cases {left right : List Token} (alike : like.Rows left right) :
    (left = [] ∧ right = []) ∨
      ∃ kind leftText leftPosition leftRest rightText rightPosition rightRest,
        left = ⟨kind, leftText, leftPosition⟩ :: leftRest ∧
        right = ⟨kind, rightText, rightPosition⟩ :: rightRest ∧
        like.tokens ⟨kind, leftText, leftPosition⟩ ⟨kind, rightText, rightPosition⟩ ∧
        like.Rows leftRest rightRest := by
  cases alike with
  | nil => exact .inl ⟨rfl, rfl⟩
  | @cons first second _ _ begun rest =>
    -- The two tokens that come first share their kind.
    have same := like.kind_eq begun
    obtain ⟨kind, leftText, leftPosition⟩ := first
    obtain ⟨_, rightText, rightPosition⟩ := second
    obtain rfl : kind = _ := same
    exact .inr ⟨kind, _, _, _, _, _, _, rfl, rfl, begun, rest⟩

/-- Alike rows start with the same kinds. -/
theorem startsWith_eq {left right : List Token} (alike : like.Rows left right) (kind : TokenKind) :
    startsWith kind left = startsWith kind right := by
  obtain ⟨rfl, rfl⟩ | ⟨_, _, _, _, _, _, _, rfl, rfl, -, -⟩ := like.rows_cases alike <;> rfl

/-- The next tokens of alike rows lead to alike faults. -/
theorem refused_nextToken {left right : List Token} {leftStop rightStop : Token}
    (alike : like.Rows left right) (stops : like.Stops leftStop rightStop) :
    like.Stops (nextToken leftStop left) (nextToken rightStop right) := by
  cases alike with
  | nil => exact stops
  | cons first rest => exact like.refused first

/-- What is made of a value that is read alike is given alike, with alike tokens left. -/
theorem reads_of_alike {Value Result : Type} {left right : Reading Value}
    {leftRest rightRest : List Token} (alike : Reading.Alike like.faults Eq left right)
    (make : Value → Result) (rest : like.Rows leftRest rightRest) :
    like.Reads (do return (make (← left), leftRest)) (do return (make (← right), rightRest)) :=
  alike.bind fun _ _ same => .value ⟨congrArg make same, rest⟩

variable {left right : Token}

/-- Alike tokens name the same year. -/
theorem readYear_alike (alike : like.tokens left right) :
    Reading.Alike like.faults Eq left.readYear right.readYear := by
  unfold Token.readYear
  rw [readDecimal?_eq_of_sameLetters (like.sameLetters alike)]
  cases readDecimal? right.text with
  | none => exact .fault (like.tooLarge alike _)
  | some year =>
    -- The same number fits into a year or does not.
    dsimp only
    split
    · exact .value rfl
    · exact .fault (like.tooLarge alike _)

/-- Alike tokens abbreviate the same month. -/
theorem readMonth_alike (alike : like.tokens left right) :
    Reading.Alike like.faults Eq left.readMonth right.readMonth := by
  -- Abbreviations are compared without regard to case.
  have same : Month.ofAbbreviation? left.text = Month.ofAbbreviation? right.text := by
    simp only [Month.ofAbbreviation?, OpeningTimes.sameLetters,
      sameLetters_iff.mp (like.sameLetters alike)]
  unfold Token.readMonth
  rw [same]
  cases Month.ofAbbreviation? right.text with
  | none => exact .fault (like.refused alike _)
  | some month => exact .value rfl

/-- Alike tokens number the same day of a month. -/
theorem readDayOf_alike (alike : like.tokens left right) (month : Month) :
    Reading.Alike like.faults Eq (left.readDayOf month) (right.readDayOf month) := by
  unfold Token.readDayOf
  rw [readByte?_eq_of_sameLetters (like.sameLetters alike)]
  cases readByte? right.text with
  | none => exact .fault (like.refused alike _)
  | some number =>
    -- Both sides do the same with the number.
    dsimp only
    generalize (if number = 0 then 1 else min number 31) = kept
    -- A warning about the number comes first on both sides, if there is one.
    cases AnnualDay.of? month kept with
    | none =>
      split
      · exact Reading.Alike.bind (.value (Eq.refl ())) fun _ _ _ => .fault (like.tooLarge_self _ _)
      · exact .fault (like.tooLarge_self _ _)
    | some annual =>
      split
      · exact Reading.Alike.bind (.value (Eq.refl ())) fun _ _ _ => .value rfl
      · exact .value rfl

/-- Alike tokens stand for the same day. -/
theorem readDay_alike (alike : like.tokens left right) :
    Reading.Alike like.faults Eq left.readDay right.readDay := by
  -- Both codes are compared without regard to case.
  have lowered := sameLetters_iff.mp (like.sameLetters alike)
  have code : Weekday.ofCode? left.text = Weekday.ofCode? right.text := by
    simp only [Weekday.ofCode?, OpeningTimes.sameLetters, lowered]
  have holiday : OpeningTimes.sameLetters left.text HolidayRule.code =
      OpeningTimes.sameLetters right.text HolidayRule.code := by
    simp only [OpeningTimes.sameLetters, lowered]
  unfold Token.readDay
  rw [holiday, code]
  split
  · exact .value rfl
  · cases Weekday.ofCode? right.text with
    | none => exact .fault (like.refused alike _)
    | some day => exact .value rfl

/-- Alike tokens give the same time. -/
theorem readTime_alike (alike : like.tokens left right) :
    Reading.Alike like.faults Eq left.readTime right.readTime := by
  obtain ⟨sameHour, sameMinute⟩ := sameLetters_span (like.sameLetters alike)
  unfold Token.readTime
  generalize left.text.span (· ≠ ':') = leftParts at sameHour sameMinute ⊢
  generalize right.text.span (· ≠ ':') = rightParts at sameHour sameMinute ⊢
  obtain ⟨leftHour, leftMinute⟩ := leftParts
  obtain ⟨rightHour, rightMinute⟩ := rightParts
  rw [sameLetters_iff] at sameMinute
  -- What stands behind the hours is empty on both sides or begins with the colon on both.
  cases leftMinute with
  | nil =>
    obtain rfl : rightMinute = [] := List.map_eq_nil_iff.mp sameMinute.symm
    exact .fault (like.refused alike _)
  | cons leftColon leftMinute =>
    cases rightMinute with
    | nil => cases sameMinute
    | cons rightColon rightMinute =>
      rw [List.map_cons, List.map_cons, List.cons.injEq, ← sameLetters_iff] at sameMinute
      -- The two numbers are the same on both sides.
      dsimp only
      rw [readByte?_eq_of_sameLetters sameHour, readByte?_eq_of_sameLetters sameMinute.2]
      cases readByte? rightHour with
      | none => exact .fault (like.refused alike _)
      | some hour =>
        cases readByte? rightMinute with
        | none => exact .fault (like.refused alike _)
        | some minute =>
          dsimp only
          cases DayTime.ofHourMinute? hour minute with
          | none => exact .fault (like.tooLarge alike _)
          | some time => exact .value rfl

/-- Further items are read alike when single items are and start alike. -/
theorem readMore_alike {Item : Type} {leftItem rightItem : Reader Item} {starts : List Token → Bool}
    (items : like.Readers leftItem rightItem)
    (started : ∀ left right, like.Rows left right → starts left = starts right) (limit : Nat) :
    like.Readers (readMore leftItem starts limit) (readMore rightItem starts limit) := by
  -- Each further item takes one step of the limit on both sides.
  induction limit with
  | zero => exact fun left right alike => .value ⟨rfl, alike⟩
  | succ limit ih =>
    intro left right alike
    obtain ⟨rfl, rfl⟩ | ⟨kind, _, _, leftRest, _, _, rightRest, rfl, rfl, first, rest⟩ :=
      like.rows_cases alike
    · exact .value ⟨rfl, .nil⟩
    cases kind
    -- Only a comma goes on, when an item follows it.
    case comma =>
      simp only [readMore, started leftRest rightRest rest]
      split
      · refine (items _ _ rest).bind ?_
        rintro ⟨leftFirst, leftOthers⟩ ⟨rightFirst, rightOthers⟩ ⟨value, others⟩
        refine (ih _ _ others).bind ?_
        rintro ⟨leftMore, leftLast⟩ ⟨rightMore, rightLast⟩ ⟨values, last⟩
        exact .value ⟨congrArg₂ List.cons value values, last⟩
      · exact .value ⟨rfl, .cons first rest⟩
    all_goals exact .value ⟨rfl, .cons first rest⟩

/-- Lists are read alike when single items are and start alike. -/
theorem readList_alike {Item : Type} {leftItem rightItem : Reader Item} {starts : List Token → Bool}
    (items : like.Readers leftItem rightItem)
    (started : ∀ left right, like.Rows left right → starts left = starts right) :
    like.Readers (readList leftItem starts) (readList rightItem starts) := by
  intro left right alike
  refine (items _ _ alike).bind ?_
  rintro ⟨leftFirst, leftRest⟩ ⟨rightFirst, rightRest⟩ ⟨value, rest⟩
  -- The limit is the number of tokens that are left, which is the same on both sides.
  dsimp only at rest ⊢
  rw [rest.length_eq]
  refine (readMore_alike items started _ _ _ rest).bind ?_
  rintro ⟨leftMore, leftLast⟩ ⟨rightMore, rightLast⟩ ⟨values, last⟩
  exact .value ⟨congrArg₂ List.cons value values, last⟩

/-- Years are read alike. -/
theorem readYears_alike : like.Readers readYears readYears := by
  intro left right alike
  obtain ⟨rfl, rfl⟩ | ⟨kind, _, _, _, _, _, _, rfl, rfl, first, rest⟩ := like.rows_cases alike
  · exact .value ⟨rfl, .nil⟩
  cases kind
  case year =>
    -- Without a range behind it, the year stands alone and the rest is left.
    have only := reads_of_alike (readYear_alike first) (fun year => some (Years.only year)) rest
    obtain ⟨rfl, rfl⟩ | ⟨kind, _, _, _, _, _, _, rfl, rfl, second, others⟩ := like.rows_cases rest
    · exact only
    cases kind
    case plus => exact reads_of_alike (readYear_alike first) _ others
    case dash =>
      obtain ⟨rfl, rfl⟩ | ⟨kind, _, _, _, _, _, _, rfl, rfl, third, more⟩ := like.rows_cases others
      · exact only
      cases kind
      case year =>
        refine (readYear_alike first).bind fun firstYear _ same => ?_
        refine (readYear_alike third).bind fun lastYear _ alsoSame => ?_
        subst same alsoSame
        split
        · exact .fault (like.refused third _)
        · exact .value ⟨rfl, more⟩
      all_goals exact only
    all_goals exact only
  all_goals exact .value ⟨rfl, .cons first rest⟩

variable {leftStop rightStop : Token}

/-- What follows the first day of a season is read alike. -/
theorem readDayRange_alike (stops : like.Stops leftStop rightStop) (month : Month)
    (number : like.tokens left right) :
    like.Readers (readDayRange leftStop month left) (readDayRange rightStop month right) := by
  intro leftTokens rightTokens alike
  -- Without a month behind a dash, the season is that day alone.
  have single :=
    reads_of_alike (readDayOf_alike number month) (fun day => (⟨day, day⟩ : Season)) alike
  obtain ⟨rfl, rfl⟩ | ⟨kind, _, _, _, _, _, _, rfl, rfl, first, rest⟩ := like.rows_cases alike
  · exact single
  cases kind
  case dash =>
    obtain ⟨rfl, rfl⟩ | ⟨kind, _, _, _, _, _, _, rfl, rfl, second, others⟩ := like.rows_cases rest
    · exact single
    cases kind
    case month =>
      refine (readDayOf_alike number month).bind fun day _ sameDay => ?_
      refine (readMonth_alike second).bind fun lastMonth _ sameMonth => ?_
      subst sameDay sameMonth
      obtain ⟨rfl, rfl⟩ | ⟨kind, _, _, _, _, _, _, rfl, rfl, third, more⟩ := like.rows_cases others
      · exact .fault (stops _)
      cases kind
      -- Once there is a month, a day number has to follow.
      case number => exact reads_of_alike (readDayOf_alike third lastMonth) _ more
      all_goals exact .fault (like.refused third _)
    all_goals exact single
  all_goals exact single

/-- Seasons are read alike. -/
theorem readSeason_alike (stops : like.Stops leftStop rightStop) :
    like.Readers (readSeason leftStop) (readSeason rightStop) := by
  intro left right alike
  cases alike with
  | nil => exact .fault (stops _)
  | @cons leftName rightName leftRest rightRest name rest =>
    refine (readMonth_alike name).bind fun month _ same => ?_
    subst same
    -- Where neither a day nor a second month follows, the season is the whole month.
    have whole : like.Reads (return (Season.ofMonths month month, leftRest))
        (return (Season.ofMonths month month, rightRest)) :=
      .value ⟨rfl, rest⟩
    obtain ⟨rfl, rfl⟩ | ⟨kind, _, _, _, _, _, _, rfl, rfl, second, others⟩ := like.rows_cases rest
    · exact whole
    cases kind
    case number => exact readDayRange_alike stops month second _ _ others
    case dash =>
      obtain ⟨rfl, rfl⟩ | ⟨kind, _, _, _, _, _, _, rfl, rfl, third, more⟩ := like.rows_cases others
      · exact whole
      cases kind
      case month =>
        have range := reads_of_alike (readMonth_alike third) (Season.ofMonths month) more
        obtain ⟨rfl, rfl⟩ | ⟨kind, _, _, _, _, _, _, rfl, rfl, -, -⟩ := like.rows_cases more
        · exact range
        cases kind
        -- A day number behind the second month leaves the first one alone.
        case number => exact whole
        all_goals exact range
      all_goals exact whole
    all_goals exact whole

/-- Lists of seasons are read alike. -/
theorem readSeasons_alike (stops : like.Stops leftStop rightStop) :
    like.Readers (readSeasons leftStop) (readSeasons rightStop) := by
  intro left right alike
  have started := fun left right (alike : like.Rows left right) => like.startsWith_eq alike .month
  unfold readSeasons
  rw [started left right alike]
  -- Seasons begin with a month, or there are none.
  split
  · exact readList_alike (readSeason_alike stops) started _ _ alike
  · exact .value ⟨rfl, alike⟩

/-- Single days are read alike. -/
theorem readNamedDay_alike (stops : like.Stops leftStop rightStop) :
    like.Readers (readNamedDay leftStop) (readNamedDay rightStop) := by
  intro left right alike
  obtain ⟨rfl, rfl⟩ | ⟨kind, _, _, _, _, _, _, rfl, rfl, first, rest⟩ := like.rows_cases alike
  · exact .fault (stops _)
  cases kind
  case day => exact reads_of_alike (readDay_alike first) id rest
  all_goals exact .fault (like.refused first _)

/-- Alike rows go on with a single day alike. -/
theorem startsSingleDay_eq {left right : List Token} (alike : like.Rows left right) :
    startsSingleDay left = startsSingleDay right := by
  have tails : like.Rows left.tail right.tail := by
    cases alike with
    | nil => exact .nil
    | cons first rest => exact rest
  simp only [startsSingleDay, like.startsWith_eq alike, like.startsWith_eq tails]

/-- Days are read alike. -/
theorem readDays_alike (stops : like.Stops leftStop rightStop) :
    like.Readers (readDays leftStop) (readDays rightStop) := by
  intro left right alike
  have list := readList_alike (readNamedDay_alike stops) (fun _ _ => startsSingleDay_eq) _ _ alike
  cases alike with
  | nil => exact list
  | cons first rest =>
    obtain ⟨rfl, rfl⟩ | ⟨kind, _, _, _, _, _, _, rfl, rfl, second, others⟩ := like.rows_cases rest
    · exact list
    cases kind
    -- A dash behind the first day makes a range, which a day has to end.
    case dash =>
      refine (readDay_alike first).bind fun firstDay _ same => ?_
      subst same
      obtain ⟨rfl, rfl⟩ | ⟨kind, _, _, _, _, _, _, rfl, rfl, third, more⟩ := like.rows_cases others
      · exact .fault (stops _)
      cases kind
      case day =>
        refine (readDay_alike third).bind fun lastDay _ same => ?_
        subst same
        -- Both ends must be weekdays.
        cases firstDay <;> cases lastDay
        case weekday.weekday => exact .value ⟨rfl, more⟩
        all_goals exact .fault (like.refused third _)
      all_goals exact .fault (like.refused third _)
    all_goals exact list

/-- Hours are read alike. -/
theorem readHours_alike (stops : like.Stops leftStop rightStop) :
    like.Readers (readHours leftStop) (readHours rightStop) := by
  intro left right alike
  obtain ⟨rfl, rfl⟩ | ⟨kind, _, _, _, _, _, _, rfl, rfl, first, rest⟩ := like.rows_cases alike
  · exact .fault (stops _)
  cases kind
  -- Hours have to be two times with a dash between them.
  case time =>
    refine (readTime_alike first).bind fun opening _ same => ?_
    subst same
    obtain ⟨rfl, rfl⟩ | ⟨kind, _, _, _, _, _, _, rfl, rfl, second, others⟩ := like.rows_cases rest
    · exact .fault (stops _)
    cases kind
    case dash =>
      obtain ⟨rfl, rfl⟩ | ⟨kind, _, _, _, _, _, _, rfl, rfl, third, more⟩ := like.rows_cases others
      · exact .fault (stops _)
      cases kind
      case time => exact reads_of_alike (readTime_alike third) _ more
      all_goals exact .fault (like.refused third _)
    all_goals exact .fault (like.refused second _)
  all_goals exact .fault (like.refused first _)

/-- Clauses are read alike. -/
theorem readClause_alike (stops : like.Stops leftStop rightStop) :
    like.Readers (readClause leftStop) (readClause rightStop) := by
  intro left right alike
  obtain ⟨rfl, rfl⟩ | ⟨kind, _, _, _, _, _, _, rfl, rfl, first, rest⟩ := like.rows_cases alike
  · exact .value ⟨rfl, .nil⟩
  cases kind
  -- The word that closes stands alone, and hours come in a list.
  case off => exact .value ⟨rfl, rest⟩
  case time =>
    have started := fun left right (alike : like.Rows left right) => like.startsWith_eq alike .time
    refine (readList_alike (readHours_alike stops) started _ _ alike).bind ?_
    rintro ⟨list, _⟩ ⟨_, _⟩ ⟨same, others⟩
    exact .value ⟨congrArg (fun list => some (Clause.hours list)) same, others⟩
  all_goals exact .value ⟨rfl, .cons first rest⟩

/-- Alike rows start an entry alike. -/
theorem startsEntry_eq {left right : List Token} (alike : like.Rows left right) :
    startsEntry left = startsEntry right := by
  simp only [startsEntry, like.startsWith_eq alike]

/-- Read an entry that has no days of its own. -/
def readBareEntry (stop : Token) : Reader Entry := fun tokens => do
  match ← readClause stop tokens with
  | (some clause, rest) => return (.clause clause, rest)
  | (none, rest) => .refuse .selector (nextToken stop rest)

/-- Entries without days are read alike. -/
theorem readBareEntry_alike (stops : like.Stops leftStop rightStop) :
    like.Readers (readBareEntry leftStop) (readBareEntry rightStop) := by
  intro left right alike
  refine (readClause_alike stops _ _ alike).bind ?_
  rintro ⟨clause, _⟩ ⟨_, _⟩ ⟨same, others⟩
  dsimp only at same others
  subst same
  -- Without a clause either, there is no entry.
  cases clause with
  | none => exact .fault (like.refused_nextToken others stops _)
  | some clause => exact .value ⟨rfl, others⟩

/-- Entries are read alike. -/
theorem readEntry_alike (stops : like.Stops leftStop rightStop) :
    like.Readers (readEntry leftStop) (readEntry rightStop) := by
  intro left right alike
  have bare := readBareEntry_alike stops _ _ alike
  obtain ⟨rfl, rfl⟩ | ⟨kind, _, _, _, _, _, _, rfl, rfl, first, rest⟩ := like.rows_cases alike
  · exact bare
  cases kind
  -- The sign for all hours passes over the clause behind it.
  case always =>
    refine (readClause_alike stops _ _ rest).bind ?_
    rintro ⟨_, _⟩ ⟨_, _⟩ ⟨_, others⟩
    exact .value ⟨rfl, others⟩
  -- Days stand in front of a clause that may be missing.
  case day =>
    refine (readDays_alike stops _ _ alike).bind ?_
    rintro ⟨days, _⟩ ⟨_, _⟩ ⟨sameDays, others⟩
    refine (readClause_alike stops _ _ others).bind ?_
    rintro ⟨clause, _⟩ ⟨_, _⟩ ⟨sameClause, more⟩
    exact .value ⟨congrArg₂ Entry.days sameDays sameClause, more⟩
  -- Without a day or the sign for all hours, only a clause makes an entry.
  all_goals exact bare

/-- Lists of entries are read alike. -/
theorem readEntries_alike (stops : like.Stops leftStop rightStop) :
    like.Readers (readEntries leftStop) (readEntries rightStop) := by
  intro left right alike
  unfold readEntries
  rw [startsEntry_eq alike]
  -- Entries begin with one that is started, or there are none.
  split
  · exact readList_alike (readEntry_alike stops) (fun _ _ => startsEntry_eq) _ _ alike
  · exact .value ⟨rfl, alike⟩

variable (like)

/-- Runs of alike tokens whose closing tokens lead to alike faults. -/
def Runs (left right : TokenRun) : Prop :=
  like.Rows left.tokens right.tokens ∧ like.Stops left.stop right.stop

variable {like}

/-- Alike runs are read as the same expression. -/
theorem readExpression_alike {left right : TokenRun} (alike : like.Runs left right) :
    Reading.Alike like.faults Eq left.readExpression right.readExpression := by
  obtain ⟨rows, stops⟩ := alike
  refine (readYears_alike _ _ rows).bind ?_
  rintro ⟨years, _⟩ ⟨_, _⟩ ⟨sameYears, later⟩
  refine (readSeasons_alike stops _ _ later).bind ?_
  rintro ⟨seasons, _⟩ ⟨_, _⟩ ⟨sameSeasons, last⟩
  refine (readEntries_alike stops _ _ last).bind ?_
  rintro ⟨entries, _⟩ ⟨_, _⟩ ⟨sameEntries, rest⟩
  dsimp only at sameYears sameSeasons sameEntries rest ⊢
  subst sameYears sameSeasons sameEntries
  -- An expression must not be empty, and nothing may be left behind it.
  split
  · exact .fault (like.refused_nextToken rest stops _)
  · cases rest with
    | nil => exact .value rfl
    | cons extra others => exact .fault (like.refused extra _)

/-- Alike runs in a row are read as the same expressions. -/
theorem readExpressions_alike {left right : List TokenRun}
    (alike : List.Forall₂ like.Runs left right) :
    Reading.Alike like.faults Eq (readExpressions left) (readExpressions right) := by
  induction alike with
  | nil => exact .value rfl
  | cons first rest ih =>
    refine (readExpression_alike first).bind fun expression _ same => ?_
    exact ih.bind fun expressions _ alsoSame => .value (congrArg₂ List.cons same alsoSame)

/-- Alike tokens are cut at the same places. -/
theorem cut_alike {left right : List Token} (alike : like.Rows left right)
    (stops : like.Stops leftStop rightStop) :
    like.Runs (TokenRun.cut leftStop left).1 (TokenRun.cut rightStop right).1 ∧
      List.Forall₂ like.Runs (TokenRun.cut leftStop left).2 (TokenRun.cut rightStop right).2 := by
  induction alike with
  | nil => exact ⟨⟨.nil, stops⟩, .nil⟩
  | @cons left right _ _ first rest ih =>
    obtain ⟨head, tail⟩ := ih
    -- A semicolon closes the run in front of it, and any other token goes on with the run.
    simp only [TokenRun.cut, like.kind_eq first]
    split
    · exact ⟨⟨.nil, like.refused first⟩, .cons head tail⟩
    · exact ⟨⟨.cons first head.1, head.2⟩, tail⟩

/-- Alike runs have the same expressions. -/
theorem expressions_alike {left right : TokenRun} (alike : like.Runs left right) :
    List.Forall₂ like.Runs left.expressions right.expressions := by
  obtain ⟨first, others⟩ := cut_alike alike.1 alike.2
  exact .cons first others

end Likeness

end OpeningTimes
