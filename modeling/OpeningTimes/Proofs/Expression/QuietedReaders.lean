import OpeningTimes.Proofs.Expression.DayWarnings

/-!
Every reader leads to the warnings about the clamped numbers that it takes, and to no others.

On clamped tokens it goes the same way without warnings.
-/

namespace OpeningTimes

namespace Token

variable (token : Token)

/-- Years are read without warnings. -/
theorem warnings_readYear : token.readYear.warnings = [] := by
  unfold readYear
  split
  · split <;> rfl
  · rfl

/-- Months are read without warnings. -/
theorem warnings_readMonth : token.readMonth.warnings = [] := by
  unfold readMonth
  split <;> rfl

/-- Codes of days are read without warnings. -/
theorem warnings_readDay : token.readDay.warnings = [] := by
  unfold readDay
  split
  · rfl
  · split <;> rfl

/-- Times are read without warnings. -/
theorem warnings_readTime : token.readTime.warnings = [] := by
  unfold readTime
  split
  · split
    · split <;> rfl
    · rfl
  · rfl

/-- The month that is read from a token is the one that it abbreviates. -/
theorem sameLetters_of_readMonth {token : Token} {month : Month}
    (read : token.readMonth.outcome = .ok month) :
    sameLetters month.abbreviation token.text = true := by
  unfold readMonth at read
  cases found : Month.ofAbbreviation? token.text with
  | none =>
    rw [found] at read
    cases read
  | some month =>
    rw [found] at read
    cases read
    exact List.find?_some
      (p := fun month : Month => sameLetters month.abbreviation token.text) found

end Token

/-- Behind the name of its month, a number is read with the warning about it, if there is one. -/
theorem quieted_readDayOf {name number : Token} {month : Month} (isName : name.kind = .month)
    (named : sameLetters month.abbreviation name.text = true) (isNumber : number.kind = .number) :
    Reading.Quieted (fun warnings day other => other = day ∧ WarnsOf [name, number] warnings)
      (number.readDayOf month) (number.clamped.readDayOf month) := by
  cases read : readByte? number.text with
  | none =>
    rw [Token.readDayOf_eq_refuse read]
    exact .fail
  | some value =>
    have valued := digitsValue_of_readByte? read
    -- The nearest day is its own nearest day, so it is read without a warning.
    have settled : nearestDay (nearestDay value) = nearestDay value :=
      nearestDay_eq_self_iff.mpr (nearestDay_bounds value)
    have again : number.clamped.readDayOf month = pure (.nearest month value) := by
      rw [Token.readDayOf_eq (Token.readByte?_clamped isNumber read), if_pos settled,
        AnnualDay.nearest_eq settled]
      rfl
    rw [Token.readDayOf_eq read, again]
    intro day given
    cases given
    refine ⟨_, rfl, rfl, ?_⟩
    have plain : name.isClamped = false := Token.isClamped_of_kind_ne (by simp [isName])
    dsimp only
    split
    · -- A number that is its own nearest day is not clamped.
      rename_i same
      have kept := (Token.isClamped_iff isNumber).not.mpr (by simp [valued, same])
      exact .nil (by simp [plain, kept])
    · -- Any other number has the name of its month in front of it.
      rename_i other
      have outside := (Token.isClamped_iff isNumber).mpr (by simp [valued, other])
      unfold WarnsOf
      simp only [List.filter_cons, plain, outside, List.filter_nil]
      exact .cons ⟨name, List.infix_rfl, isName, named, valued.symm⟩ .nil

/-- A name and a number are taken when a day is read from the number. -/
theorem ReadsClamped.dayOf {name number : Token} {month : Month} {Next : Type}
    {rest : List Token} {nextLeft nextRight : AnnualDay → Reading (Next × List Token)}
    (isName : name.kind = .month) (named : sameLetters month.abbreviation name.text = true)
    (isNumber : number.kind = .number)
    (next : ∀ day, ReadsClamped rest (nextLeft day) (nextRight day)) :
    ReadsClamped (name :: number :: rest) (number.readDayOf month >>= nextLeft)
      (number.clamped.readDayOf month >>= nextRight) := by
  refine (quieted_readDayOf isName named isNumber).bind ?_
  rintro warnings day _ ⟨rfl, warned⟩ result given
  obtain ⟨other, comes, leaves, front, parts, more⟩ := next _ result given
  exact ⟨other, comes, leaves, name :: number :: front, by rw [parts]; rfl, warned.append more⟩

/-- Clamped or not, tokens start with the same kinds. -/
@[simp] theorem startsWith_map_clamped (kind : TokenKind) (tokens : List Token) :
    startsWith kind (tokens.map Token.clamped) = startsWith kind tokens := by
  cases tokens <;> rfl

section Readers

variable {Value : Type}

/-- A reader goes the same way when all numbers are clamped, on tokens that start in a given way. -/
def Reader.Quieted (reader : Reader Value) (starts : List Token → Bool) : Prop :=
  ∀ tokens, starts tokens = true →
    ReadsClamped tokens (reader tokens) (reader (tokens.map Token.clamped))

variable {item : Reader Value} {starts : List Token → Bool}

/-- Further items go the same way if single ones do. -/
theorem readsClamped_readMore (items : item.Quieted starts)
    (kept : ∀ tokens, starts (tokens.map Token.clamped) = starts tokens) (limit : Nat)
    (tokens : List Token) : ReadsClamped tokens (readMore item starts limit tokens)
      (readMore item starts limit (tokens.map Token.clamped)) := by
  -- Each further item takes one step of the limit.
  induction limit generalizing tokens with
  | zero => exact .pure [] tokens
  | succ limit ih =>
    rcases endsList_or_exists_comma starts tokens with ended | ⟨text, position, rest, rfl, started⟩
    · have endedAgain : EndsList starts (tokens.map Token.clamped) := by
        unfold EndsList
        rw [startsWith_map_clamped, ← List.map_tail, kept]
        exact ended
      rw [readMore_of_endsList ended, readMore_of_endsList endedAgain]
      exact .pure [] tokens
    · have comma : Token.clamped ⟨.comma, text, position⟩ = ⟨.comma, text, position⟩ := rfl
      rw [List.map_cons, comma]
      simp only [readMore, kept, started, if_true]
      refine ReadsClamped.cons rfl ?_
      refine (items rest started).bind fun first middle => ?_
      refine (ih middle).bind fun others last => ?_
      exact .pure (first :: others) last

/-- Lists go the same way if single items do. -/
theorem quieted_readList (items : item.Quieted starts)
    (kept : ∀ tokens, starts (tokens.map Token.clamped) = starts tokens) :
    Reader.Quieted (readList item starts) starts := by
  intro tokens started
  refine (items tokens started).bind fun first middle => ?_
  -- The limit is the number of tokens that are left, which is the same on both sides.
  dsimp only
  rw [List.length_map]
  refine (readsClamped_readMore items kept _ middle).bind fun others last => ?_
  exact .pure (first :: others) last

end Readers

/-- Years go the same way, since no day numbers are among them. -/
theorem readsClamped_readYears (tokens : List Token) :
    ReadsClamped tokens (readYears tokens) (readYears (tokens.map Token.clamped)) := by
  rcases tokens with _ | ⟨⟨kind, text, position⟩, rest⟩
  · exact .pure none []
  cases kind
  case year =>
    have year := Token.warnings_readYear ⟨.year, text, position⟩
    -- Without a range behind it, the year stands alone and the rest is left.
    have only : ReadsClamped (⟨.year, text, position⟩ :: rest) _ _ :=
      .cons rfl (.make year (fun year => some (Years.only year)) rest)
    rcases rest with _ | ⟨⟨kind, text, position⟩, rest⟩
    · exact only
    cases kind
    case plus =>
      exact .cons rfl (.cons rfl (.make year (fun year => some (Years.mk year none)) rest))
    case dash =>
      rcases rest with _ | ⟨⟨kind, text, position⟩, rest⟩
      · exact only
      cases kind
      case year =>
        -- The two years may be in the wrong order, and then nothing is read.
        refine .cons rfl (.cons rfl (.cons rfl ?_))
        refine .skip year fun first _ => ?_
        refine .skip (Token.warnings_readYear _) fun last _ => ?_
        split
        · exact .fail
        · exact .pure (some (Years.mk first (some last))) rest
      all_goals exact only
    all_goals exact only
  all_goals exact .pure none _

variable (stop : Token)

/-- Behind a month and a number, a season goes the same way. -/
theorem readsClamped_readDayRange {name number : Token} {month : Month}
    (isName : name.kind = .month) (named : sameLetters month.abbreviation name.text = true)
    (isNumber : number.kind = .number) (tokens : List Token) :
    ReadsClamped (name :: number :: tokens) (readDayRange stop month number tokens)
      (readDayRange stop month number.clamped (tokens.map Token.clamped)) := by
  -- Without a month behind a dash, the season is that day alone.
  have single : ReadsClamped (name :: number :: tokens)
      (do let day ← number.readDayOf month; return ((⟨day, day⟩ : Season), tokens))
      (do let day ← number.clamped.readDayOf month
          return ((⟨day, day⟩ : Season), tokens.map Token.clamped)) :=
    .dayOf isName named isNumber fun day => .pure (⟨day, day⟩ : Season) tokens
  rcases tokens with _ | ⟨⟨kind, text, position⟩, rest⟩
  · exact single
  cases kind
  case dash =>
    rcases rest with _ | ⟨⟨kind, text, position⟩, rest⟩
    · exact single
    cases kind
    case month =>
      refine .dayOf isName named isNumber fun first => .cons rfl ?_
      refine .skip (Token.warnings_readMonth _) fun lastMonth lastNamed => ?_
      rcases rest with _ | ⟨⟨kind, text, position⟩, rest⟩
      · exact .fail
      cases kind
      -- Once there is a month, a day number has to follow.
      case number =>
        exact .dayOf rfl (Token.sameLetters_of_readMonth lastNamed) rfl fun last =>
          .pure (⟨first, last⟩ : Season) rest
      all_goals exact .fail
    all_goals exact single
  all_goals exact single

/-- A season leads to the warnings about the numbers behind its months. -/
theorem quieted_readSeason : Reader.Quieted (readSeason stop) (startsWith .month) := by
  intro tokens started
  obtain ⟨text, position, rest, rfl⟩ := exists_of_startsWith started
  refine .skip (Token.warnings_readMonth _) fun month named => ?_
  -- Where neither a day nor a second month follows, the season is the whole month.
  have whole : ReadsClamped (⟨.month, text, position⟩ :: rest) _ _ :=
    .cons rfl (.pure (Season.ofMonths month month) rest)
  rcases rest with _ | ⟨⟨kind, nextText, nextPosition⟩, others⟩
  · exact whole
  cases kind
  case number =>
    exact readsClamped_readDayRange stop rfl (Token.sameLetters_of_readMonth named) rfl others
  case dash =>
    rcases others with _ | ⟨⟨kind, lastText, lastPosition⟩, more⟩
    · exact whole
    cases kind
    case month =>
      have last := Token.warnings_readMonth ⟨.month, lastText, lastPosition⟩
      have range : ReadsClamped (⟨.month, text, position⟩ :: ⟨.dash, nextText, nextPosition⟩ ::
          ⟨.month, lastText, lastPosition⟩ :: more) _ _ :=
        .cons rfl (.cons rfl (.cons rfl (.make last (Season.ofMonths month) more)))
      rcases more with _ | ⟨⟨kind, _, _⟩, _⟩
      · exact range
      cases kind
      -- A day number behind the second month leaves the first one alone.
      case number => exact whole
      all_goals exact range
    all_goals exact whole
  all_goals exact whole

/-- Lists of seasons lead to the warnings about their numbers. -/
theorem readsClamped_readSeasons (tokens : List Token) :
    ReadsClamped tokens (readSeasons stop tokens)
      (readSeasons stop (tokens.map Token.clamped)) := by
  unfold readSeasons
  rw [startsWith_map_clamped]
  -- Seasons begin with a month, or there are none.
  split
  · rename_i started
    exact quieted_readList (quieted_readSeason stop) (startsWith_map_clamped .month) tokens started
  · exact .pure [] tokens

/-- A single day goes the same way. -/
theorem quieted_readNamedDay : Reader.Quieted (readNamedDay stop) startsSingleDay := by
  intro tokens started
  have isDay : startsWith .day tokens = true := by
    simp only [startsSingleDay, Bool.and_eq_true] at started
    exact started.1
  obtain ⟨text, position, rest, rfl⟩ := exists_of_startsWith isDay
  exact .cons rfl (.make (Token.warnings_readDay _) id rest)

/-- Clamped or not, tokens start a single day. -/
theorem startsSingleDay_map_clamped (tokens : List Token) :
    startsSingleDay (tokens.map Token.clamped) = startsSingleDay tokens := by
  unfold startsSingleDay
  rw [← List.map_tail, startsWith_map_clamped, startsWith_map_clamped]

/-- Days go the same way, since no day numbers are among their codes. -/
theorem quieted_readDays : Reader.Quieted (readDays stop) (startsWith .day) := by
  intro tokens started
  obtain ⟨text, position, behind, rfl⟩ := exists_of_startsWith started
  by_cases dash : startsWith .dash behind = true
  · -- A dash makes a range, which a day has to end.
    obtain ⟨dashText, dashPosition, rest, rfl⟩ := exists_of_startsWith dash
    refine .cons rfl (.cons rfl ?_)
    refine .skip (Token.warnings_readDay _) fun first _ => ?_
    rcases rest with _ | ⟨⟨kind, text, position⟩, rest⟩
    · exact .fail
    cases kind
    case day =>
      refine .cons rfl (.skip (Token.warnings_readDay _) fun last _ => ?_)
      -- Both ends must be weekdays.
      cases first <;> cases last
      case weekday.weekday first _ last _ =>
        exact .pure ((first.through last).map NamedDay.weekday) rest
      all_goals exact .fail
    all_goals exact .fail
  · rw [Bool.not_eq_true] at dash
    have single : startsSingleDay (⟨.day, text, position⟩ :: behind) = true := by
      simp [startsSingleDay, started, dash]
    have singleAgain := (startsSingleDay_map_clamped _).trans single
    -- Without a dash the day is the first one of a list.
    rw [readDays_eq_readList single, readDays_eq_readList singleAgain]
    exact quieted_readList (quieted_readNamedDay stop) startsSingleDay_map_clamped _ single

/-- Hours go the same way, since their times are no day numbers. -/
theorem quieted_readHours : Reader.Quieted (readHours stop) (startsWith .time) := by
  intro tokens started
  obtain ⟨text, position, rest, rfl⟩ := exists_of_startsWith started
  refine .cons rfl (.skip (Token.warnings_readTime _) fun first _ => ?_)
  -- Hours have to be two times with a dash between them.
  rcases rest with _ | ⟨⟨kind, text, position⟩, rest⟩
  · exact .fail
  cases kind
  case dash =>
    rcases rest with _ | ⟨⟨kind, text, position⟩, rest⟩
    · exact .fail
    cases kind
    case time =>
      have last := Token.warnings_readTime ⟨.time, text, position⟩
      exact .cons rfl (.cons rfl (.make last (fun last => (⟨first, last⟩ : Hours)) rest))
    all_goals exact .fail
  all_goals exact .fail

/-- A clause goes the same way. -/
theorem readsClamped_readClause (tokens : List Token) :
    ReadsClamped tokens (readClause stop tokens) (readClause stop (tokens.map Token.clamped)) := by
  rcases tokens with _ | ⟨⟨kind, text, position⟩, rest⟩
  · exact .pure none []
  cases kind
  -- The word that closes stands alone, and hours come in a list.
  case off => exact .cons rfl (.pure (some Clause.off) rest)
  case time =>
    have list := quieted_readList (quieted_readHours stop) (startsWith_map_clamped .time)
    exact (list _ rfl).bind fun hours behind => .pure (some (Clause.hours hours)) behind
  all_goals exact .pure none _

/-- An entry without days goes the same way. -/
theorem readsClamped_readBareEntry (tokens : List Token) :
    ReadsClamped tokens (Likeness.readBareEntry stop tokens)
      (Likeness.readBareEntry stop (tokens.map Token.clamped)) := by
  refine (readsClamped_readClause stop tokens).bind fun clause behind => ?_
  -- Without a clause either, there is no entry.
  cases clause with
  | none => exact .fail
  | some clause => exact .pure (Entry.clause clause) behind

/-- An entry goes the same way. -/
theorem readsClamped_readEntry (tokens : List Token) :
    ReadsClamped tokens (readEntry stop tokens) (readEntry stop (tokens.map Token.clamped)) := by
  have bare := readsClamped_readBareEntry stop tokens
  rcases tokens with _ | ⟨⟨kind, text, position⟩, rest⟩
  · exact bare
  cases kind
  -- The sign for all hours passes over the clause behind it.
  case always =>
    refine .cons rfl ((readsClamped_readClause stop rest).bind fun _ behind => ?_)
    exact .pure Entry.always behind
  -- Days stand in front of a clause that may be missing.
  case day =>
    refine (quieted_readDays stop _ rfl).bind fun days middle => ?_
    refine (readsClamped_readClause stop middle).bind fun clause behind => ?_
    exact .pure (Entry.days days clause) behind
  -- Without a day or the sign for all hours, only a clause makes an entry.
  all_goals exact bare

/-- Lists of entries go the same way. -/
theorem readsClamped_readEntries (tokens : List Token) :
    ReadsClamped tokens (readEntries stop tokens)
      (readEntries stop (tokens.map Token.clamped)) := by
  have kept (tokens : List Token) :
      startsEntry (tokens.map Token.clamped) = startsEntry tokens := by
    unfold startsEntry
    simp only [startsWith_map_clamped]
  unfold readEntries
  rw [kept]
  -- Entries begin with one that is started, or there are none.
  split
  · rename_i started
    exact quieted_readList (fun tokens _ => readsClamped_readEntry stop tokens) kept tokens started
  · exact .pure [] tokens

namespace TokenRun

/-- A run with all of its numbers clamped. -/
def clamped (run : TokenRun) : TokenRun :=
  { run with tokens := run.tokens.map Token.clamped }

/-- An expression leads to the warnings about all of its numbers. -/
theorem quieted_readExpression (run : TokenRun) :
    Reading.Quieted (fun warnings expression other => other = expression ∧
      WarnsOf run.tokens warnings) run.readExpression run.clamped.readExpression := by
  refine Reading.Quieted.bind (readsClamped_readYears run.tokens) ?_
  rintro _ ⟨years, middle⟩ _ ⟨rfl, yearsFront, same, yearsWarned⟩
  refine Reading.Quieted.bind (readsClamped_readSeasons run.stop middle) ?_
  rintro _ ⟨seasons, behind⟩ _ ⟨rfl, seasonsFront, rfl, seasonsWarned⟩
  refine Reading.Quieted.bind (readsClamped_readEntries run.stop behind) ?_
  rintro _ ⟨entries, rest⟩ _ ⟨rfl, entriesFront, rfl, entriesWarned⟩
  dsimp only at same ⊢
  -- An expression must not be empty, and no token may be left.
  split
  · exact .fail
  · cases rest with
    | nil =>
      rw [List.append_nil] at same
      refine .pure ⟨rfl, ?_⟩
      rw [same, List.append_nil]
      exact yearsWarned.append (seasonsWarned.append entriesWarned)
    | cons extra others => exact .fail

/-- Clamped or not, tokens are cut at the same places. -/
theorem cut_map_clamped (stop : Token) (tokens : List Token) :
    cut stop (tokens.map Token.clamped) =
      ((cut stop tokens).1.clamped, (cut stop tokens).2.map clamped) := by
  induction tokens with
  | nil => rfl
  | cons token rest ih =>
    have sameKind : token.clamped.kind = token.kind := rfl
    by_cases parts : token.kind = .semicolon
    · -- A semicolon is no number, so it closes the run in front of it as it is.
      have kept : token.clamped = token :=
        Token.clamped_eq_self (Token.isClamped_of_kind_ne (by simp [parts]))
      simp only [List.map_cons, cut, kept, parts, ih, if_true]
      rfl
    · simp only [List.map_cons, cut, sameKind, parts, ih, if_false]
      rfl

/-- Cutting tokens at their semicolons takes none of them away. -/
theorem flatMap_toList_expressions (run : TokenRun) :
    run.expressions.flatMap toList = run.toList := by
  obtain ⟨tokens, stop⟩ := run
  unfold expressions
  -- A token goes to the front of the first run, or it closes an empty run in front of that one.
  induction tokens with
  | nil => rfl
  | cons token rest ih =>
    dsimp only at ih ⊢
    rw [List.flatMap_cons, toList, toList] at ih
    rw [toList, List.cons_append, ← ih]
    by_cases parts : token.kind = .semicolon
    · simp [cut, parts, toList]
    · simp [cut, parts, toList]

/-- Clamped or not, a run has the same expressions but for their clamped numbers. -/
theorem expressions_clamped (run : TokenRun) :
    run.clamped.expressions = run.expressions.map clamped := by
  unfold expressions
  rw [clamped, cut_map_clamped]
  rfl

/-- Runs in a row lead to the warnings about the numbers of all of them. -/
theorem quieted_readRuns {runs : List TokenRun}
    (closed : ∀ run ∈ runs, run.stop.isClamped = false) :
    Reading.Quieted (fun warnings expressions other => other = expressions ∧
      WarnsOf (runs.flatMap toList) warnings)
        (readExpressions runs) (readExpressions (runs.map clamped)) := by
  induction runs with
  | nil => exact .pure ⟨rfl, .nil (by simp)⟩
  | cons run rest ih =>
    rw [List.forall_mem_cons] at closed
    refine Reading.Quieted.bind (quieted_readExpression run) ?_
    rintro _ first _ ⟨rfl, warned⟩
    refine Reading.Quieted.bind (ih closed.2) ?_
    rintro _ others _ ⟨rfl, more⟩
    refine .pure ⟨rfl, ?_⟩
    -- The token that closes the run is no clamped number.
    have stop : WarnsOf [run.stop] [] := .nil (by simp [closed.1])
    have whole := (warned.append stop).append more
    rwa [List.append_nil] at *

/-- The expressions of a run lead to the warnings about the numbers of the whole run. -/
theorem quieted_readExpressions {run : TokenRun} (closed : run.stop.isClamped = false) :
    Reading.Quieted (fun warnings expressions other => other = expressions ∧
      WarnsOf run.toList warnings)
        (readExpressions run.expressions) (readExpressions run.clamped.expressions) := by
  rw [← flatMap_toList_expressions, expressions_clamped]
  refine quieted_readRuns fun part listed => ?_
  -- A semicolon or the end of the run closes each expression.
  rcases (tokens_of_mem_expressions listed).2 with same | ⟨parts, -⟩
  · rw [same, closed]
  · exact Token.isClamped_of_kind_ne (by simp [parts])

end TokenRun

end OpeningTimes
