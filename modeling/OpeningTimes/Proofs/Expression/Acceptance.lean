import OpeningTimes.Proofs.Expression.EntryParts

/-!
Whatever the grammar derives from formed tokens is read.

Readers never go back, so it has to be shown that no choice they make is the wrong one.
-/

namespace OpeningTimes

/-- Where no year stands, no years are read. -/
theorem readYears_absent {tokens : List Token} (noYear : startsWith .year tokens = false) :
    readYears tokens = return (none, tokens) := by
  cases tokens with
  | nil => rfl
  | cons first others =>
    obtain ⟨kind, text, position⟩ := first
    cases kind
    case year => cases noYear
    all_goals rfl

/-- Years are read where they stand, unless what follows starts like a year or one of its signs. -/
theorem exists_value?_readYears {front rest : List Token}
    (years : Optional (OfFormed YearsPhrase) front) (noYear : startsWith .year rest = false)
    (noPlus : startsWith .plus rest = false) (noDash : startsWith .dash rest = false) :
    ∃ years, (readYears (front ++ rest)).value? = some (years, rest) := by
  rcases years with rfl | ⟨phrase, formed⟩
  · exact ⟨none, by rw [List.nil_append, readYears_absent noYear]; rfl⟩
  · cases phrase with
    | only isYear =>
      -- Neither a plus nor a dash makes more of the year than it is.
      obtain ⟨year, read⟩ := (formed _ List.mem_cons_self).exists_year isYear
      obtain ⟨text, position, rfl⟩ := Token.exists_of_kind isYear
      refine ⟨some (.only year), ?_⟩
      rw [List.singleton_append, readYears_alone noPlus noDash]
      simp [read]
    | onward isYear isPlus =>
      obtain ⟨year, read⟩ := (formed _ List.mem_cons_self).exists_year isYear
      obtain ⟨text, position, rfl⟩ := Token.exists_of_kind isYear
      obtain ⟨plusText, plusPosition, rfl⟩ := Token.exists_of_kind isPlus
      exact ⟨some ⟨year, none⟩, by simp [readYears, read]⟩
    | range isFirst isDash isLast ordered =>
      obtain ⟨first, firstRead⟩ := (formed _ List.mem_cons_self).exists_year isFirst
      obtain ⟨last, lastRead⟩ := (formed _ (by simp)).exists_year isLast
      -- Years are compared as numbers of sixteen bits, which keep the order of their digits.
      rw [← Token.toNat_of_readYear firstRead, ← Token.toNat_of_readYear lastRead,
        ← Nat.not_lt, ← UInt16.lt_iff_toNat_lt] at ordered
      obtain ⟨text, position, rfl⟩ := Token.exists_of_kind isFirst
      obtain ⟨dashText, dashPosition, rfl⟩ := Token.exists_of_kind isDash
      obtain ⟨lastText, lastPosition, rfl⟩ := Token.exists_of_kind isLast
      exact ⟨some ⟨first, some last⟩, by simp [readYears, firstRead, lastRead, ordered]⟩

variable (stop : Token)

/-- A month that is followed by neither a number nor a dash is a season of its own. -/
theorem readSeason_alone {name : Token} {rest : List Token}
    (noNumber : startsWith .number rest = false) (noDash : startsWith .dash rest = false) :
    readSeason stop (name :: rest) =
      (do let month ← name.readMonth; return (.ofMonths month month, rest)) := by
  cases rest with
  | nil => rfl
  | cons next others =>
    obtain ⟨kind, text, position⟩ := next
    cases kind
    case number => cases noNumber
    case dash => cases noDash
    all_goals rfl

/-- A day that is not followed by a dash is a season of its own. -/
theorem readDayRange_alone {month : Month} {number : Token} {rest : List Token}
    (noDash : startsWith .dash rest = false) :
    readDayRange stop month number rest =
      (do let day ← number.readDayOf month; return (⟨day, day⟩, rest)) := by
  cases rest with
  | nil => rfl
  | cons next others =>
    obtain ⟨kind, text, position⟩ := next
    cases kind
    case dash => cases noDash
    all_goals rfl

/-- A range of months is not followed by a number. -/
theorem readSeason_months {name : Token} {dashText lastText : List Char}
    {dashPosition lastPosition : Nat} {rest : List Token}
    (noNumber : startsWith .number rest = false) :
    readSeason stop (name :: ⟨.dash, dashText, dashPosition⟩ ::
        ⟨.month, lastText, lastPosition⟩ :: rest) = (do
      let month ← name.readMonth
      let last ← (⟨.month, lastText, lastPosition⟩ : Token).readMonth
      return (.ofMonths month last, rest)) := by
  cases rest with
  | nil => rfl
  | cons next others =>
    obtain ⟨kind, text, position⟩ := next
    cases kind
    case number => cases noNumber
    all_goals rfl

/-- A season is read where it stands, unless what follows starts like the rest of a longer one. -/
theorem exists_value?_readSeason {front rest : List Token}
    (season : OfFormed SeasonPhrase front) (noNumber : startsWith .number rest = false)
    (noDash : startsWith .dash rest = false) :
    ∃ season, (readSeason stop (front ++ rest)).value? = some (season, rest) := by
  obtain ⟨phrase, formed⟩ := season
  cases phrase with
  | month isMonth =>
    obtain ⟨-, month, named⟩ := Token.isMonth_iff.mp isMonth
    refine ⟨.ofMonths month month, ?_⟩
    rw [List.singleton_append, readSeason_alone stop noNumber noDash]
    simp [named]
  | day isMonth isNumber =>
    -- Without a dash behind it the day is both ends of its season.
    obtain ⟨-, month, named⟩ := Token.isMonth_iff.mp isMonth
    obtain ⟨day, read⟩ := (formed _ (by simp)).exists_dayOf isNumber month
    obtain ⟨text, position, rfl⟩ := Token.exists_of_kind isNumber
    refine ⟨⟨day, day⟩, ?_⟩
    simp [readSeason, named, readDayRange_alone stop noDash, read]
  | days isMonth isNumber isDash isLastMonth isLastNumber =>
    obtain ⟨-, month, named⟩ := Token.isMonth_iff.mp isMonth
    obtain ⟨lastKind, lastMonth, lastNamed⟩ := Token.isMonth_iff.mp isLastMonth
    obtain ⟨first, firstRead⟩ := (formed _ (by simp)).exists_dayOf isNumber month
    obtain ⟨last, lastRead⟩ := (formed _ (by simp)).exists_dayOf isLastNumber lastMonth
    obtain ⟨text, position, rfl⟩ := Token.exists_of_kind isNumber
    obtain ⟨dashText, dashPosition, rfl⟩ := Token.exists_of_kind isDash
    obtain ⟨monthText, monthPosition, rfl⟩ := Token.exists_of_kind lastKind
    obtain ⟨lastText, lastPosition, rfl⟩ := Token.exists_of_kind isLastNumber
    refine ⟨⟨first, last⟩, ?_⟩
    simp [readSeason, readDayRange, named, lastNamed, firstRead, lastRead]
  | months isMonth isDash isLastMonth =>
    obtain ⟨-, month, named⟩ := Token.isMonth_iff.mp isMonth
    obtain ⟨lastKind, lastMonth, lastNamed⟩ := Token.isMonth_iff.mp isLastMonth
    obtain ⟨dashText, dashPosition, rfl⟩ := Token.exists_of_kind isDash
    obtain ⟨monthText, monthPosition, rfl⟩ := Token.exists_of_kind lastKind
    refine ⟨.ofMonths month lastMonth, ?_⟩
    simp only [List.cons_append, List.nil_append]
    rw [readSeason_months stop noNumber]
    simp [named, lastNamed]

/-- A season starts with a month. -/
theorem SeasonPhrase.startsWith_month {front : List Token} (season : SeasonPhrase front)
    (rest : List Token) : startsWith .month (front ++ rest) = true := by
  cases season with
  | month isMonth => simp [startsWith, isMonth.1]
  | day isMonth isNumber => simp [startsWith, isMonth.1]
  | days isMonth isNumber isDash isLastMonth isLastNumber => simp [startsWith, isMonth.1]
  | months isMonth isDash isLastMonth => simp [startsWith, isMonth.1]

/-- Seasons are read up to the tokens that follow them. -/
theorem exists_value?_readSeasons {front rest : List Token}
    (seasons : Optional (Separated .comma (OfFormed SeasonPhrase)) front)
    (noMonth : startsWith .month rest = false) (noNumber : startsWith .number rest = false)
    (noDash : startsWith .dash rest = false) (noComma : startsWith .comma rest = false) :
    ∃ seasons, (readSeasons stop (front ++ rest)).value? = some (seasons, rest) := by
  rcases seasons with rfl | phrases
  · exact ⟨[], by simp [readSeasons, noMonth]⟩
  · -- Behind a season there are other seasons or the tokens that follow them all.
    have passes : Passes (readSeason stop) (Leading (OfFormed SeasonPhrase) (· = rest))
        (Continued (OfFormed SeasonPhrase) (· = rest)) := by
      rintro _ ⟨first, others, rfl, season, continued⟩
      obtain ⟨value, read⟩ := exists_value?_readSeason stop season
        (continued.startsWith_eq_false (by decide) fun _ same => same ▸ noNumber)
        (continued.startsWith_eq_false (by decide) fun _ same => same ▸ noDash)
      exact ⟨value, others, read, continued⟩
    have begins (front rest : List Token) (season : OfFormed SeasonPhrase front) :=
      season.1.startsWith_month rest
    have leading : Leading (OfFormed SeasonPhrase) (· = rest) (front ++ rest) :=
      phrases.leading rfl
    obtain ⟨values, _, read, rfl⟩ :=
      passes.whole takesPhrase_readSeason (fun _ same => same ▸ noComma) begins _ leading
    exact ⟨values, by rw [readSeasons, if_pos (phrases.starts_append begins _), read]⟩

/-- Seasons start with a month, and behind absent ones it matters what follows. -/
theorem startsWith_eq_false_of_seasons {kind : TokenKind} {front rest : List Token}
    (seasons : Optional (Separated .comma (OfFormed SeasonPhrase)) front)
    (notMonth : kind ≠ .month) (behind : startsWith kind rest = false) :
    startsWith kind (front ++ rest) = false := by
  rcases seasons with rfl | phrases
  · exact behind
  · have started := phrases.starts_append (fun _ rest season => season.1.startsWith_month rest) rest
    exact startsWith_eq_false started notMonth.symm

/-- Three parts that are read one behind the other make an expression, if there is any token. -/
theorem value?_readExpression_of_parts {run : TokenRun} {years : Option Years}
    {seasons : List Season} {entries : List Entry} {behindYears behindSeasons : List Token}
    (present : run.tokens ≠ [])
    (yearsRead : (readYears run.tokens).value? = some (years, behindYears))
    (seasonsRead : (readSeasons run.stop behindYears).value? = some (seasons, behindSeasons))
    (entriesRead : (readEntries run.stop behindSeasons).value? = some (entries, [])) :
    run.readExpression.value? = some ⟨years, seasons, entries⟩ := by
  have filled : ¬(years.isNone && seasons.isEmpty && entries.isEmpty) = true := by
    intro absent
    simp only [Bool.and_eq_true, Option.isNone_iff_eq_none, List.isEmpty_iff] at absent
    obtain ⟨⟨rfl, rfl⟩, rfl⟩ := absent
    -- Absent parts take no token, but there are some.
    have noYears := takesOptional_readYears.eq_of_absent yearsRead
    have noSeasons := takesOptional_readSeasons.eq_of_absent seasonsRead
    have noEntries := takesOptional_readEntries.eq_of_absent entriesRead
    exact present (noYears.trans (noSeasons.trans noEntries))
  simp only [TokenRun.readExpression, Reading.value?_bind, yearsRead, seasonsRead, entriesRead,
    Option.bind_some]
  rw [if_neg filled, Reading.value?_pure]

/-- A run of formed tokens is read when it is the phrase of an expression. -/
theorem exists_value?_readExpression {run : TokenRun} (phrase : ExpressionPhrase run.tokens)
    (formed : ∀ token ∈ run.tokens, token.Formed) :
    ∃ expression, run.readExpression.value? = some expression := by
  obtain ⟨⟨years, seasons, entries, same, isYears, isSeasons, isEntries⟩, present⟩ := phrase
  rw [same, List.forall_mem_append, List.forall_mem_append] at formed
  obtain ⟨⟨yearsFormed, seasonsFormed⟩, entriesFormed⟩ := formed
  have formedYears : Optional (OfFormed YearsPhrase) years :=
    isYears.imp_right fun phrase => ⟨phrase, yearsFormed⟩
  have formedSeasons : Optional (Separated .comma (OfFormed SeasonPhrase)) seasons :=
    isSeasons.imp_right fun phrases => phrases.ofFormed seasonsFormed
  have parts : Optional (Separated .comma (OfFormed EntryPart)) entries :=
    isEntries.imp_right fun phrases =>
      (phrases.mono fun _ entry => entry.parts).join.ofFormed entriesFormed
  -- What stands behind a part neither starts like it nor goes on with it.
  have behindSeasons (kind : TokenKind) (other : kind ∉ [TokenKind.day, .always, .time, .off]) :
      startsWith kind entries = false :=
    startsWith_eq_false_of_entries parts other
  have behindYears (kind : TokenKind) (notMonth : kind ≠ .month)
      (other : kind ∉ [TokenKind.day, .always, .time, .off]) :
      startsWith kind (seasons ++ entries) = false :=
    startsWith_eq_false_of_seasons formedSeasons notMonth (behindSeasons kind other)
  obtain ⟨yearsValue, yearsRead⟩ := exists_value?_readYears formedYears
    (behindYears .year (by decide) (by decide)) (behindYears .plus (by decide) (by decide))
    (behindYears .dash (by decide) (by decide))
  obtain ⟨seasonsValue, seasonsRead⟩ := exists_value?_readSeasons run.stop formedSeasons
    (behindSeasons .month (by decide)) (behindSeasons .number (by decide))
    (behindSeasons .dash (by decide)) (behindSeasons .comma (by decide))
  obtain ⟨entriesValue, entriesRead⟩ := exists_value?_readEntries run.stop parts
  rw [← List.append_assoc, ← same] at yearsRead
  exact ⟨_, value?_readExpression_of_parts present yearsRead seasonsRead entriesRead⟩

end OpeningTimes
