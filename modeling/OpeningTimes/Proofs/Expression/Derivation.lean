import OpeningTimes.Proofs.Expression.CommaLists
import OpeningTimes.Proofs.Expression.Terminals

/-! Whatever is read from tokens is derived by the grammar. -/

namespace OpeningTimes

/-- What is read as years is a phrase of years. -/
theorem takesOptional_readYears : TakesOptional readYears none YearsPhrase := by
  intro tokens years rest read
  unfold readYears at read
  split at read
  · -- A year and a plus.
    simp only [Reading.value?_bind_eq_some_iff, Reading.value?_pure_eq_some_iff,
      Prod.mk.injEq] at read
    obtain ⟨_, -, rfl, rfl⟩ := read
    exact ⟨[_, _], rfl, .inr ⟨Option.some_ne_none _, .onward rfl rfl⟩⟩
  · -- A range of years.
    simp only [Reading.value?_bind_eq_some_iff] at read
    obtain ⟨firstYear, first, lastYear, last, read⟩ := read
    split at read
    · simp at read
    · rename_i ordered
      simp only [Reading.value?_pure_eq_some_iff, Prod.mk.injEq] at read
      obtain ⟨rfl, rfl⟩ := read
      rw [UInt16.lt_iff_toNat_lt, Nat.not_lt, Token.toNat_of_readYear first,
        Token.toNat_of_readYear last] at ordered
      exact ⟨[_, _, _], rfl, .inr ⟨Option.some_ne_none _, .range rfl rfl rfl ordered⟩⟩
  · -- A year alone.
    simp only [Reading.value?_bind_eq_some_iff, Reading.value?_pure_eq_some_iff,
      Prod.mk.injEq] at read
    obtain ⟨_, -, rfl, rfl⟩ := read
    exact ⟨[_], rfl, .inr ⟨Option.some_ne_none _, .only rfl⟩⟩
  · cases read
    exact ⟨[], rfl, .inl ⟨rfl, rfl⟩⟩

variable {stop : Token}

/-- Behind a month, what is read as a day or a range of days completes a season. -/
theorem exists_front_of_readDayRange {month : Month} {name number : Token} (isMonth : name.IsMonth)
    (isNumber : number.kind = .number) {tokens rest : List Token} {season : Season}
    (read : (readDayRange stop month number tokens).value? = some (season, rest)) :
    ∃ front, tokens = front ++ rest ∧ SeasonPhrase (name :: number :: front) := by
  unfold readDayRange at read
  split at read
  · -- A dash makes a range, for which a month and a day have to follow.
    simp only [Reading.value?_bind_eq_some_iff] at read
    obtain ⟨first, -, lastMonth, named, read⟩ := read
    split at read
    · simp only [Reading.value?_bind_eq_some_iff, Reading.value?_pure_eq_some_iff,
        Prod.mk.injEq] at read
      obtain ⟨_, -, -, rfl⟩ := read
      have isLast := Token.isMonth_iff.mpr ⟨rfl, lastMonth, named⟩
      exact ⟨[_, _, _], rfl, .days isMonth isNumber rfl isLast rfl⟩
    · simp at read
  · -- The day is a season by itself.
    simp only [Reading.value?_bind_eq_some_iff, Reading.value?_pure_eq_some_iff,
      Prod.mk.injEq] at read
    obtain ⟨_, -, -, rfl⟩ := read
    exact ⟨[], rfl, .day isMonth isNumber⟩

/-- What is read as a season is a phrase of a season. -/
theorem takesPhrase_readSeason :
    TakesPhrase (readSeason stop) (startsWith .month) SeasonPhrase := by
  intro tokens season rest started read
  obtain ⟨text, position, behind, rfl⟩ := exists_of_startsWith started
  unfold readSeason at read
  simp only [Reading.value?_bind_eq_some_iff] at read
  obtain ⟨month, named, read⟩ := read
  have isMonth := Token.isMonth_iff.mpr ⟨rfl, month, named⟩
  split at read
  · -- A day of the month, or a range that starts with it.
    obtain ⟨front, rfl, isSeason⟩ := exists_front_of_readDayRange isMonth rfl read
    exact ⟨_ :: _ :: front, rfl, isSeason⟩
  · cases read
    exact ⟨[_], rfl, .month isMonth⟩
  · -- A range of months.
    simp only [Reading.value?_bind_eq_some_iff, Reading.value?_pure_eq_some_iff,
      Prod.mk.injEq] at read
    obtain ⟨lastMonth, last, -, rfl⟩ := read
    have isLast := Token.isMonth_iff.mpr ⟨rfl, lastMonth, last⟩
    exact ⟨[_, _, _], rfl, .months isMonth rfl isLast⟩
  · cases read
    exact ⟨[_], rfl, .month isMonth⟩

/-- What is read as seasons is a list of such phrases. -/
theorem takesOptional_readSeasons :
    TakesOptional (readSeasons stop) [] (Separated .comma SeasonPhrase) := by
  intro tokens seasons rest read
  unfold readSeasons at read
  split at read
  · rename_i started
    obtain ⟨front, same, phrases⟩ := takesPhrase_readSeason.list _ _ _ started read
    exact ⟨front, same, .inr ⟨ne_nil_of_readList read, phrases⟩⟩
  · cases read
    exact ⟨[], rfl, .inl ⟨rfl, rfl⟩⟩

/-- What is read as a single day is the phrase of one. -/
theorem takesPhrase_readNamedDay :
    TakesPhrase (readNamedDay stop) startsSingleDay DayPhrase := by
  intro tokens day rest _ read
  unfold readNamedDay at read
  split at read
  · simp only [Reading.value?_bind_eq_some_iff, Reading.value?_pure_eq_some_iff,
      Prod.mk.injEq] at read
    obtain ⟨named, code, -, rfl⟩ := read
    exact ⟨[_], rfl, .single (Token.isDay_iff.mpr ⟨rfl, named, code⟩)⟩
  · simp at read

/-- What is read as days is a range of weekdays or a list of days. -/
theorem takesPhrase_readDays : TakesPhrase (readDays stop) (startsWith .day) DaysPhrase := by
  intro tokens days rest started read
  obtain ⟨text, position, behind, rfl⟩ := exists_of_startsWith started
  by_cases dash : startsWith .dash behind = true
  · -- A dash makes a range, both ends of which are weekdays.
    obtain ⟨dashText, dashPosition, others, rfl⟩ := exists_of_startsWith dash
    simp only [readDays, Reading.value?_bind_eq_some_iff] at read
    obtain ⟨first, firstCode, read⟩ := read
    split at read
    · simp only [Reading.value?_bind_eq_some_iff] at read
      obtain ⟨last, lastCode, read⟩ := read
      split at read
      · cases read
        have isFirst := Token.isWeekday_iff.mpr ⟨rfl, _, firstCode⟩
        have isLast := Token.isWeekday_iff.mpr ⟨rfl, _, lastCode⟩
        exact ⟨[_, _, _], rfl, .range isFirst rfl isLast⟩
      · simp at read
    · simp at read
  · rw [Bool.not_eq_true] at dash
    have single : startsSingleDay (⟨.day, text, position⟩ :: behind) = true := by
      simp [startsSingleDay, started, dash]
    -- Without a dash the day is the first one of a list.
    rw [readDays_eq_readList single] at read
    obtain ⟨front, same, phrases⟩ := takesPhrase_readNamedDay.list _ _ _ single read
    exact ⟨front, same, .list phrases⟩

/-- What is read as hours is a phrase of hours. -/
theorem takesPhrase_readHours : TakesPhrase (readHours stop) (startsWith .time) HoursPhrase := by
  intro tokens hours rest _ read
  unfold readHours at read
  split at read
  · simp only [Reading.value?_bind_eq_some_iff] at read
    obtain ⟨first, firstTime, read⟩ := read
    split at read
    · simp only [Reading.value?_bind_eq_some_iff, Reading.value?_pure_eq_some_iff,
        Prod.mk.injEq] at read
      obtain ⟨last, lastTime, -, rfl⟩ := read
      have isFirst := Token.isTime_of_readTime rfl firstTime
      have isLast := Token.isTime_of_readTime rfl lastTime
      exact ⟨[_, _, _], rfl, .between isFirst rfl isLast⟩
    · simp at read
    · simp at read
  · simp at read

/-- What is read as a clause is the phrase of one. -/
theorem takesOptional_readClause : TakesOptional (readClause stop) none ClausePhrase := by
  intro tokens clause rest read
  unfold readClause at read
  split at read
  · -- The word that closes stands alone.
    cases read
    exact ⟨[_], rfl, .inr ⟨Option.some_ne_none _, .off rfl⟩⟩
  · -- A time starts a list of hours.
    simp only [Reading.value?_bind_eq_some_iff, Reading.value?_pure_eq_some_iff,
      Prod.mk.injEq, Prod.exists] at read
    obtain ⟨list, _, taken, rfl, rfl⟩ := read
    obtain ⟨front, same, phrases⟩ := takesPhrase_readHours.list _ _ _ rfl taken
    exact ⟨front, same, .inr ⟨Option.some_ne_none _, .hours phrases⟩⟩
  · -- Nothing else starts a clause, and no token is taken.
    cases read
    exact ⟨[], rfl, .inl ⟨rfl, rfl⟩⟩

/-- What an optional part takes may be absent. -/
theorem optional_of_takes {Value : Type} {value absent : Value} {phrase : List Token → Prop}
    {front : List Token}
    (takes : (value = absent ∧ front = []) ∨ (value ≠ absent ∧ phrase front)) :
    Optional phrase front :=
  takes.imp And.right And.right

/-- What is read as an entry is the phrase of one. -/
theorem takesPhrase_readEntry : TakesPhrase (readEntry stop) startsEntry EntryPhrase := by
  intro tokens entry rest _ read
  unfold readEntry at read
  split at read
  · -- The sign for all hours.
    simp only [Reading.value?_bind_eq_some_iff, Reading.value?_pure_eq_some_iff,
      Prod.mk.injEq, Prod.exists] at read
    obtain ⟨clause, _, taken, -, rfl⟩ := read
    obtain ⟨front, rfl, isClause⟩ := takesOptional_readClause _ _ _ taken
    exact ⟨_ :: front, rfl, .always rfl (optional_of_takes isClause)⟩
  · -- Days, behind which a clause may follow.
    simp only [Reading.value?_bind_eq_some_iff, Reading.value?_pure_eq_some_iff,
      Prod.mk.injEq, Prod.exists] at read
    obtain ⟨days, middle, daysTaken, clause, _, taken, -, rfl⟩ := read
    obtain ⟨daysFront, same, isDays⟩ := takesPhrase_readDays _ _ _ rfl daysTaken
    obtain ⟨front, rfl, isClause⟩ := takesOptional_readClause _ _ _ taken
    refine ⟨daysFront ++ front, ?_, .days isDays (optional_of_takes isClause)⟩
    rw [same, List.append_assoc]
  · -- Anything else has to be a clause.
    simp only [Reading.value?_bind_eq_some_iff, Prod.exists] at read
    obtain ⟨clause, _, taken, read⟩ := read
    obtain ⟨front, rfl, ⟨rfl, -⟩ | ⟨present, isClause⟩⟩ := takesOptional_readClause _ _ _ taken
    · simp at read
    · obtain ⟨clause, rfl⟩ := Option.ne_none_iff_exists'.mp present
      cases read
      exact ⟨front, rfl, .clause isClause⟩

/-- What is read as entries is a list of such phrases. -/
theorem takesOptional_readEntries :
    TakesOptional (readEntries stop) [] (Separated .comma EntryPhrase) := by
  intro tokens entries rest read
  unfold readEntries at read
  split at read
  · rename_i started
    obtain ⟨front, same, phrases⟩ := takesPhrase_readEntry.list _ _ _ started read
    exact ⟨front, same, .inr ⟨ne_nil_of_readList read, phrases⟩⟩
  · cases read
    exact ⟨[], rfl, .inl ⟨rfl, rfl⟩⟩

/-- A run that is read as an expression is the phrase of one. -/
theorem expressionPhrase_of_readExpression {run : TokenRun} {expression : Expression}
    (read : run.readExpression.value? = some expression) : ExpressionPhrase run.tokens := by
  simp only [TokenRun.readExpression, Reading.value?_bind_eq_some_iff,
    Prod.exists] at read
  obtain ⟨years, afterYears, yearsTaken, seasons, afterSeasons, seasonsTaken, entries, rest,
    entriesTaken, read⟩ := read
  have present : run.tokens ≠ [] := by
    intro empty
    -- Without tokens all three parts are absent.
    rw [empty] at yearsTaken
    cases yearsTaken
    cases seasonsTaken
    cases entriesTaken
    simp at read
  obtain ⟨yearsFront, same, isYears⟩ := takesOptional_readYears _ _ _ yearsTaken
  obtain ⟨seasonsFront, rfl, isSeasons⟩ := takesOptional_readSeasons _ _ _ seasonsTaken
  obtain ⟨entriesFront, rfl, isEntries⟩ := takesOptional_readEntries _ _ _ entriesTaken
  split at read
  · simp at read
  · split at read
    · refine ⟨⟨yearsFront, seasonsFront, entriesFront, ?_, optional_of_takes isYears,
        optional_of_takes isSeasons, optional_of_takes isEntries⟩, present⟩
      rw [same, List.append_nil, List.append_assoc]
    · simp at read

end OpeningTimes
