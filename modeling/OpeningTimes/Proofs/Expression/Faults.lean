import OpeningTimes.Proofs.Expression.CommaLists
import OpeningTimes.Proofs.Expression.Terminals

/-!
The reasons why a text that is not blank is refused, each of which names a part of the text.

Either no token starts at some character, or a token does not fit, or a time is beyond its day.
-/

namespace OpeningTimes

namespace Reading

variable {Value Next : Type}

/-- A reading comes to a value of one sort or to a fault of another sort. -/
def Ensures (faults : Fault → Prop) (values : Value → Prop) (reading : Reading Value) : Prop :=
  (∀ fault, reading.outcome = .error fault → faults fault) ∧
    ∀ value, reading.outcome = .ok value → values value

namespace Ensures

variable {faults : Fault → Prop} {values other : Value → Prop} {nextValues : Next → Prop}

/-- A value that is given is of its sort. -/
theorem pure {value : Value} (sort : values value) :
    Ensures faults values (Pure.pure value : Reading Value) := by
  constructor
  · intro fault failed
    cases failed
  · intro given same
    cases same
    exact sort

/-- A fault that ends a reading is of its sort. -/
theorem fail {fault : Fault} (sort : faults fault) :
    Ensures faults values (Reading.fail fault) := by
  constructor
  · intro given same
    cases same
    exact sort
  · intro value impossible
    cases impossible

/-- Reading on keeps the sorts of faults and values when both readings do. -/
theorem bind {reading : Reading Value} {next : Value → Reading Next}
    (first : Ensures faults values reading)
    (second : ∀ value, values value → Ensures faults nextValues (next value)) :
    Ensures faults nextValues (reading >>= next) := by
  obtain ⟨failed, given⟩ := first
  unfold Ensures
  rw [outcome_bind]
  cases outcome : reading.outcome with
  | error fault =>
    -- The fault of the first reading is the fault of both.
    constructor
    · intro same equal
      cases equal
      exact failed fault outcome
    · intro value impossible
      cases impossible
  | ok value => exact second value (given value outcome)

/-- A reading that comes to a value of a sort has no fault. -/
theorem of_value? {reading : Reading Value} {value : Value} (read : reading.value? = some value)
    (sort : values value) : Ensures faults values reading := by
  rw [value?_eq_some_iff] at read
  unfold Ensures
  rw [read]
  constructor
  · intro fault impossible
    cases impossible
  · intro same equal
    cases equal
    exact sort

end Ensures

end Reading

/-- A time token gives a minute that no hour has, or it passes 24:00. -/
def Token.IsBeyondDay (token : Token) : Prop :=
  token.kind = .time ∧ ∃ hour minute, token.text = hour ++ ':' :: minute ∧
    hour.all Char.isDigit = true ∧ minute.all Char.isDigit = true ∧
      (60 ≤ digitsValue minute ∨ 1440 < 60 * digitsValue hour + digitsValue minute)

/-- A fault names one of some tokens: it does not fit in its place, or it is beyond its day. -/
inductive Fault.Blames (source : List Token) : Fault → Prop where
  /-- Something else should stand in the place of a token, which is no unreadable number or time. -/
  | token {expected : Expectation} {found : Token} (listed : found ∈ source)
    (noNumber : expected = .dayNumber → found.kind ≠ .number)
    (noTime : expected = .time → found.kind ≠ .time) : Blames source (.token expected found)
  /-- A time is beyond its day. -/
  | beyondDay {time : Token} (listed : time ∈ source) (beyond : time.IsBeyondDay) :
    Blames source (.tooLarge time.text .timeOfDay)

/-- The tokens among which a run stands: each has the shape of its kind, and one closes the run. -/
structure Token.Closes (stop : Token) (source : List Token) : Prop where
  /-- The tokens have the shape of their kinds. -/
  formed : ∀ token ∈ source, token.Formed
  /-- The closing token is one of them. -/
  listed : stop ∈ source
  /-- A run is closed by a semicolon or by the end of the text. -/
  closing : stop.kind = .semicolon ∨ stop.kind = .finish

/-- A reading names one of some tokens if it fails. -/
abbrev Reading.Blaming {Value : Type} (source : List Token) (reading : Reading Value) : Prop :=
  reading.Ensures (Fault.Blames source) fun _ => True

/-- A reader of some tokens leaves some of them, or it names one of them. -/
def Reader.Blaming {Value : Type} (source : List Token) (reader : Reader Value) : Prop :=
  ∀ tokens ⊆ source, (reader tokens).Ensures (Fault.Blames source) fun result => result.2 ⊆ source

section Tokens

variable {source : List Token} {Value : Type} {values : Value → Prop}

/-- A token may be refused in the place of anything but a day number or a time. -/
theorem blaming_refuse {expected : Expectation} {found : Token} (listed : found ∈ source)
    (other : expected ≠ .dayNumber ∧ expected ≠ .time) :
    (Reading.refuse expected found).Ensures (Fault.Blames source) values := by
  refine .fail (.token listed ?_ ?_)
  · intro number
    exact absurd number other.1
  · intro time
    exact absurd time other.2

variable {token : Token}

/-- A year that has its shape is never too large. -/
theorem blaming_readYear (formed : token.Formed) (isYear : token.kind = .year) :
    token.readYear.Blaming source := by
  obtain ⟨year, read⟩ := formed.exists_year isYear
  exact .of_value? read trivial

/-- A number that has its shape always numbers a day. -/
theorem blaming_readDayOf (formed : token.Formed) (isNumber : token.kind = .number)
    (month : Month) : (token.readDayOf month).Blaming source := by
  obtain ⟨annual, read⟩ := formed.exists_dayOf isNumber month
  exact .of_value? read trivial

/-- A token that abbreviates no month is refused. -/
theorem blaming_readMonth (listed : token ∈ source) : token.readMonth.Blaming source := by
  unfold Token.readMonth
  cases Month.ofAbbreviation? token.text with
  | none => exact blaming_refuse listed (by decide)
  | some month => exact .pure trivial

/-- A token that is the code of no day is refused. -/
theorem blaming_readDay (listed : token ∈ source) : token.readDay.Blaming source := by
  unfold Token.readDay
  split
  · exact .pure trivial
  · cases Weekday.ofCode? token.text with
    | none => exact blaming_refuse listed (by decide)
    | some day => exact .pure trivial

/-- A time that has its shape is read, or it is beyond its day. -/
theorem blaming_readTime (formed : token.Formed) (listed : token ∈ source)
    (isTime : token.kind = .time) : token.readTime.Blaming source := by
  obtain ⟨hour, minute, text, hourDigits, minuteDigits, read⟩ := formed.exists_readTime_eq isTime
  rw [read]
  cases found : DayTime.ofHourMinute? (digitsValue hour) (digitsValue minute) with
  | some time => exact .pure trivial
  | none =>
    -- Hours and minutes that make no time exceed one of the two bounds.
    have outside : ¬ (digitsValue minute < 60 ∧
        60 * digitsValue hour + digitsValue minute ≤ 1440) := by
      rw [← exists_ofHourMinute?_iff, found]
      rintro ⟨time, impossible⟩
      cases impossible
    have beyond : 60 ≤ digitsValue minute ∨
        1440 < 60 * digitsValue hour + digitsValue minute := by
      omega
    exact .fail (.beyondDay listed ⟨isTime, hour, minute, text, hourDigits, minuteDigits, beyond⟩)

/-- What is made of a value that a token gives leaves the tokens behind it. -/
theorem Reading.Blaming.make {Result : Type} {reading : Reading Value} {rest : List Token}
    (blaming : reading.Blaming source) (make : Value → Result) (within : rest ⊆ source) :
    (do return (make (← reading), rest) : Reading (Result × List Token)).Ensures
      (Fault.Blames source) fun result => result.2 ⊆ source :=
  blaming.bind fun _ _ => .pure within

/-- Further items name a token if single ones do. -/
theorem blaming_readMore {item : Reader Value} {starts : List Token → Bool}
    (blaming : item.Blaming source) (limit : Nat) :
    Reader.Blaming source (readMore item starts limit) := by
  -- Each further item takes one step of the limit.
  induction limit with
  | zero => exact fun tokens within => .pure within
  | succ limit ih =>
    intro tokens within
    rcases endsList_or_exists_comma starts tokens with ended | ⟨text, position, rest, rfl, started⟩
    · rw [readMore_of_endsList ended]
      exact .pure within
    · rw [readMore, if_pos started]
      apply (blaming rest (List.subset_of_cons_subset within)).bind
      rintro ⟨first, middle⟩ behind
      apply (ih middle behind).bind
      rintro ⟨others, last⟩ left
      exact .pure left

/-- Lists of items name a token if single ones do. -/
theorem blaming_readList {item : Reader Value} {starts : List Token → Bool}
    (blaming : item.Blaming source) : Reader.Blaming source (readList item starts) := by
  intro tokens within
  apply (blaming tokens within).bind
  rintro ⟨first, middle⟩ behind
  apply (blaming_readMore blaming _ middle behind).bind
  rintro ⟨others, last⟩ left
  exact .pure left

end Tokens

namespace Token.Closes

variable {source tokens : List Token} {stop : Token} {Value : Type} {values : Value → Prop}

/-- The next token is one of those among which the run stands. -/
theorem nextToken_mem (closes : stop.Closes source) (within : tokens ⊆ source) :
    nextToken stop tokens ∈ source := by
  cases tokens with
  | nil => exact closes.listed
  | cons first rest => exact within List.mem_cons_self

/-- The next token is of no kind that neither starts the tokens nor closes the run. -/
theorem nextToken_kind_ne (closes : stop.Closes source) {kind : TokenKind}
    (inner : kind ≠ .semicolon ∧ kind ≠ .finish)
    (absent : ∀ text position rest, tokens = ⟨kind, text, position⟩ :: rest → False) :
    (nextToken stop tokens).kind ≠ kind := by
  cases tokens with
  | nil =>
    intro same
    rcases closes.closing with closing | closing
    · exact inner.1 (same.symm.trans closing)
    · exact inner.2 (same.symm.trans closing)
  | cons first rest =>
    rintro rfl
    exact absent first.text first.position rest rfl

/-- The next token is refused where neither a day number nor a time is missing. -/
theorem blaming_nextToken (closes : stop.Closes source) (within : tokens ⊆ source)
    {expected : Expectation} (other : expected ≠ .dayNumber ∧ expected ≠ .time) :
    (Reading.refuse expected (nextToken stop tokens)).Ensures (Fault.Blames source) values :=
  blaming_refuse (closes.nextToken_mem within) other

/-- The next token is refused in the place of a token of some kind when it is of another one. -/
theorem blaming_absent (closes : stop.Closes source) (within : tokens ⊆ source)
    {expected : Expectation} {kind : TokenKind} (inner : kind ≠ .semicolon ∧ kind ≠ .finish)
    (fits : (expected = .dayNumber → kind = .number) ∧ (expected = .time → kind = .time))
    (absent : ∀ text position rest, tokens = ⟨kind, text, position⟩ :: rest → False) :
    (Reading.refuse expected (nextToken stop tokens)).Ensures (Fault.Blames source) values := by
  have other := closes.nextToken_kind_ne inner absent
  refine .fail (.token (closes.nextToken_mem within) ?_ ?_)
  · intro number
    exact fits.1 number ▸ other
  · intro time
    exact fits.2 time ▸ other

/-- Years that are refused name a token. -/
theorem blaming_readYears (closes : stop.Closes source) : Reader.Blaming source readYears := by
  intro tokens within
  unfold readYears
  split
  · -- A year and a plus.
    have first := closes.formed _ (within List.mem_cons_self)
    have rest := List.subset_of_cons_subset (List.subset_of_cons_subset within)
    exact (blaming_readYear first rfl).make _ rest
  · -- A range of years.
    have first := closes.formed _ (within List.mem_cons_self)
    have behind := List.subset_of_cons_subset (List.subset_of_cons_subset within)
    have last := behind List.mem_cons_self
    apply (blaming_readYear first rfl).bind
    intro firstYear _
    apply (blaming_readYear (closes.formed _ last) rfl).bind
    intro lastYear _
    split
    · exact blaming_refuse last (by decide)
    · exact .pure (List.subset_of_cons_subset behind)
  · -- A year alone.
    have first := closes.formed _ (within List.mem_cons_self)
    exact (blaming_readYear first rfl).make _ (List.subset_of_cons_subset within)
  · exact .pure within

/-- What is refused behind the number of a day names a token. -/
theorem blaming_readDayRange (closes : stop.Closes source) (month : Month) {number : Token}
    (listed : number ∈ source) (isNumber : number.kind = .number) :
    Reader.Blaming source (readDayRange stop month number) := by
  intro tokens within
  have day : (number.readDayOf month).Blaming source :=
    blaming_readDayOf (closes.formed _ listed) isNumber month
  unfold readDayRange
  split
  · -- A dash and a month ask for a second number.
    have behind := List.subset_of_cons_subset within
    have rest := List.subset_of_cons_subset behind
    apply day.bind
    intro first _
    apply (blaming_readMonth (behind List.mem_cons_self)).bind
    intro lastMonth _
    split
    · have last := closes.formed _ (rest List.mem_cons_self)
      exact (blaming_readDayOf last rfl lastMonth).make _ (List.subset_of_cons_subset rest)
    · rename_i absent
      exact closes.blaming_absent rest (by decide) (by decide) absent
  · exact day.make _ within

/-- Seasons that are refused name a token. -/
theorem blaming_readSeason (closes : stop.Closes source) :
    Reader.Blaming source (readSeason stop) := by
  intro tokens within
  unfold readSeason
  split
  · exact blaming_refuse closes.listed (by decide)
  · have behind := List.subset_of_cons_subset within
    apply (blaming_readMonth (within List.mem_cons_self)).bind
    intro month _
    split
    · -- A number behind the month.
      have number := behind List.mem_cons_self
      exact closes.blaming_readDayRange month number rfl _ (List.subset_of_cons_subset behind)
    · exact .pure behind
    · -- A second month.
      have rest := List.subset_of_cons_subset behind
      exact (blaming_readMonth (rest List.mem_cons_self)).make _ (List.subset_of_cons_subset rest)
    · exact .pure behind

/-- Lists of seasons that are refused name a token. -/
theorem blaming_readSeasons (closes : stop.Closes source) :
    Reader.Blaming source (readSeasons stop) := by
  intro tokens within
  unfold readSeasons
  split
  · exact blaming_readList closes.blaming_readSeason tokens within
  · exact .pure within

/-- Single days that are refused name a token. -/
theorem blaming_readNamedDay (closes : stop.Closes source) :
    Reader.Blaming source (readNamedDay stop) := by
  intro tokens within
  unfold readNamedDay
  split
  · have day := blaming_readDay (within List.mem_cons_self)
    exact day.make id (List.subset_of_cons_subset within)
  · exact closes.blaming_nextToken within (by decide)

/-- Days that are refused name a token. -/
theorem blaming_readDays (closes : stop.Closes source) :
    Reader.Blaming source (readDays stop) := by
  intro tokens within
  unfold readDays
  split
  · -- A dash asks for the other end of a range.
    have behind := List.subset_of_cons_subset (List.subset_of_cons_subset within)
    apply (blaming_readDay (within List.mem_cons_self)).bind
    intro firstDay _
    split
    · have last := behind List.mem_cons_self
      apply (blaming_readDay last).bind
      intro lastDay _
      -- Both ends have to be weekdays.
      split
      · exact .pure (List.subset_of_cons_subset behind)
      · exact blaming_refuse last (by decide)
    · exact closes.blaming_nextToken behind (by decide)
  · exact blaming_readList closes.blaming_readNamedDay tokens within

/-- Hours that are refused name a token. -/
theorem blaming_readHours (closes : stop.Closes source) :
    Reader.Blaming source (readHours stop) := by
  intro tokens within
  unfold readHours
  split
  · have behind := List.subset_of_cons_subset within
    have first := within List.mem_cons_self
    apply (blaming_readTime (closes.formed _ first) first rfl).bind
    intro opening _
    split
    · -- A second time behind the dash.
      have rest := List.subset_of_cons_subset behind
      have last := rest List.mem_cons_self
      have time := blaming_readTime (closes.formed _ last) last rfl
      exact time.make _ (List.subset_of_cons_subset rest)
    · rename_i absent
      have rest := List.subset_of_cons_subset behind
      exact closes.blaming_absent rest (by decide) (by decide) absent
    · exact closes.blaming_nextToken behind (by decide)
  · rename_i absent
    exact closes.blaming_absent within (by decide) (by decide) absent

/-- Clauses that are refused name a token. -/
theorem blaming_readClause (closes : stop.Closes source) :
    Reader.Blaming source (readClause stop) := by
  intro tokens within
  unfold readClause
  split
  · exact .pure (List.subset_of_cons_subset within)
  · apply (blaming_readList closes.blaming_readHours _ within).bind
    rintro ⟨list, rest⟩ left
    exact .pure left
  · exact .pure within

/-- Entries that are refused name a token. -/
theorem blaming_readEntry (closes : stop.Closes source) :
    Reader.Blaming source (readEntry stop) := by
  intro tokens within
  unfold readEntry
  split
  · -- A clause behind the sign for all hours has no effect, but it may be faulty.
    apply (closes.blaming_readClause _ (List.subset_of_cons_subset within)).bind
    rintro ⟨clause, rest⟩ left
    exact .pure left
  · apply (closes.blaming_readDays _ within).bind
    rintro ⟨days, middle⟩ behind
    apply (closes.blaming_readClause middle behind).bind
    rintro ⟨clause, rest⟩ left
    exact .pure left
  · apply (closes.blaming_readClause _ within).bind
    rintro ⟨clause, rest⟩ left
    cases clause with
    | some clause => exact .pure left
    | none => exact closes.blaming_nextToken left (by decide)

/-- Lists of entries that are refused name a token. -/
theorem blaming_readEntries (closes : stop.Closes source) :
    Reader.Blaming source (readEntries stop) := by
  intro tokens within
  unfold readEntries
  split
  · exact blaming_readList closes.blaming_readEntry tokens within
  · exact .pure within

end Token.Closes

namespace TokenRun

variable {source : List Token} {run : TokenRun}

/-- A run of formed tokens, which stand among others. -/
structure Within (run : TokenRun) (source : List Token) : Prop where
  /-- The tokens of the run are some of them. -/
  tokens : run.tokens ⊆ source
  /-- One of them closes the run. -/
  stop : run.stop.Closes source

/-- An expression that is refused names a token. -/
theorem Within.blaming_readExpression (within : run.Within source) :
    run.readExpression.Blaming source := by
  obtain ⟨tokens, stop⟩ := within
  unfold readExpression
  apply (stop.blaming_readYears _ tokens).bind
  rintro ⟨years, behindYears⟩ later
  apply (stop.blaming_readSeasons behindYears later).bind
  rintro ⟨seasons, behindSeasons⟩ last
  apply (stop.blaming_readEntries behindSeasons last).bind
  rintro ⟨entries, rest⟩ left
  dsimp only at left ⊢
  -- An expression must not be empty, and nothing may be left behind it.
  split
  · exact stop.blaming_nextToken left (by decide)
  · cases rest with
    | nil => exact .pure trivial
    | cons extra others => exact blaming_refuse (left List.mem_cons_self) (by decide)

/-- Expressions in a row that are refused name a token. -/
theorem blaming_readExpressions {runs : List TokenRun}
    (within : ∀ run ∈ runs, run.Within source) : (readExpressions runs).Blaming source := by
  induction runs with
  | nil => exact .pure trivial
  | cons run runs ih =>
    obtain ⟨first, others⟩ := List.forall_mem_cons.mp within
    apply first.blaming_readExpression.bind
    intro expression _
    apply (ih others).bind
    intro expressions _
    exact .pure trivial

/-- The expressions of a run stand among the tokens that the run stands among. -/
theorem Within.expressions (within : run.Within source) :
    ∀ part ∈ run.expressions, part.Within source := by
  intro part listed
  obtain ⟨inside, closing⟩ := tokens_of_mem_expressions listed
  refine ⟨List.Subset.trans inside within.tokens, ?_⟩
  rcases closing with same | ⟨isSemicolon, member⟩
  · exact same ▸ within.stop
  · exact ⟨within.stop.formed, within.tokens member, .inl isSemicolon⟩

/-- The run of a text stands among its own tokens. -/
theorem within_of_scan {text : List Char} (scanned : scan text = .ok run) :
    run.Within run.toList := by
  obtain ⟨formed, finish⟩ := formed_of_scan scanned
  have closed : run.stop ∈ run.toList := List.mem_append_right _ (List.mem_singleton_self _)
  refine ⟨List.subset_append_left _ _, ?_, closed, .inr finish⟩
  intro token listed
  rcases List.mem_append.mp listed with inside | last
  · exact formed token inside
  · -- The end has no characters, and its pattern has no tests.
    rw [List.mem_singleton.mp last, (scanFrom_eq_ok_iff.mp scanned).stop]
    exact ⟨rfl, rfl⟩

end TokenRun

/-- A fault of a text that is not blank is one of its scan, or it names one of its tokens. -/
theorem Schedule.fault_cases {text : List Char} (filled : isBlankText text = false)
    {fault : Fault} (failed : (read text).outcome = .error fault) :
    TokenRun.scan text = .error fault ∨
      ∃ run, TokenRun.scan text = .ok run ∧ fault.Blames run.toList := by
  rw [read_eq_readText filled, readText] at failed
  cases scanned : TokenRun.scan text with
  | error other =>
    rw [scanned] at failed
    cases failed
    exact .inl rfl
  | ok run =>
    rw [scanned] at failed
    have within := (TokenRun.within_of_scan scanned).expressions
    -- What is made of the expressions does not fail any more.
    have reading : (do return ofExpressions (← readExpressions run.expressions) :
        Reading Schedule).Blaming run.toList := by
      apply (TokenRun.blaming_readExpressions within).bind
      intro expressions _
      exact .pure trivial
    exact .inr ⟨run, rfl, reading.1 fault failed⟩

/--
A text that is not blank is refused for one of three reasons.

A character starts no token exactly when the scan stops at it. What is too large is a time token
beyond its day. Any other token is refused in its place, and then it is no unreadable number or time.
-/
theorem Schedule.read_fault {text : List Char} (filled : isBlankText text = false) :
    (∀ fault, TokenRun.scan text = .error fault ↔
      (read text).outcome = .error fault ∧ ∃ position found, fault = .character position found) ∧
    (∀ value limit, (read text).outcome = .error (.tooLarge value limit) →
      limit = .timeOfDay ∧ ∃ run, TokenRun.scan text = .ok run ∧
        ∃ time ∈ run.toList, time.text = value ∧ time.IsBeyondDay) ∧
    ∀ expected found, (read text).outcome = .error (.token expected found) →
      ∃ run, TokenRun.scan text = .ok run ∧ found ∈ run.toList ∧
        (expected = .dayNumber → found.kind ≠ .number) ∧
        (expected = .time → found.kind ≠ .time) := by
  have stuck {fault : Fault} (scanned : TokenRun.scan text = .error fault) :
      ∃ position found, fault = .character position found := by
    obtain ⟨front, c, back, -, same, -⟩ := TokenRun.stuckIn_of_scanFrom scanned
    exact ⟨_, c, same⟩
  refine ⟨?_, ?_, ?_⟩
  · intro fault
    constructor
    · intro scanned
      refine ⟨?_, stuck scanned⟩
      rw [read_eq_readText filled, readText, scanned]
      rfl
    · rintro ⟨failed, position, found, rfl⟩
      rcases fault_cases filled failed with scanned | ⟨run, -, blames⟩
      · exact scanned
      · cases blames
  · intro value limit failed
    rcases fault_cases filled failed with scanned | ⟨run, scanned, blames⟩
    · obtain ⟨position, found, impossible⟩ := stuck scanned
      cases impossible
    · cases blames with
      | beyondDay listed beyond => exact ⟨rfl, run, scanned, _, listed, rfl, beyond⟩
  · intro expected found failed
    rcases fault_cases filled failed with scanned | ⟨run, scanned, blames⟩
    · obtain ⟨position, character, impossible⟩ := stuck scanned
      cases impossible
    · cases blames with
      | token listed noNumber noTime => exact ⟨run, scanned, listed, noNumber, noTime⟩

/-- A time may pass 24:00, a range may end without its day, and an hour may lack its first digit. -/
theorem Schedule.read_fault_lateEvening :
    let late := "Jan 00 Mo 10:00-12:00,23:00-24:30; Tu".toList
    let endless := "Jan 10-Feb; Mo off".toList
    let short := "Mo 8:00-12:00".toList
    (isBlankText late = false ∧
      (read late).outcome = .error (.tooLarge "24:30".toList .timeOfDay) ∧
        ∃ run, TokenRun.scan late = .ok run ∧
          ∃ time ∈ run.toList, time.text = "24:30".toList ∧ time.IsBeyondDay) ∧
    (isBlankText endless = false ∧
      (read endless).outcome = .error (.token .dayNumber ⟨.semicolon, [';'], 10⟩) ∧
        ∃ run, TokenRun.scan endless = .ok run ∧ ⟨.semicolon, [';'], 10⟩ ∈ run.toList) ∧
    isBlankText short = false ∧ TokenRun.scan short = .error (.character 3 '8') ∧
      (read short).outcome = .error (.character 3 '8') := by
  intro late endless short
  have lateFilled : isBlankText late = false := by decide
  have endlessFilled : isBlankText endless = false := by decide
  have shortFilled : isBlankText short = false := by decide
  obtain ⟨-, tooLarge⟩ := (read_fault lateFilled).2.1 _ _ rfl
  obtain ⟨run, scanned, listed, -⟩ := (read_fault endlessFilled).2.2 _ _ rfl
  have stopped := ((read_fault shortFilled).1 (.character 3 '8')).mp rfl
  exact ⟨⟨lateFilled, rfl, tooLarge⟩, ⟨endlessFilled, rfl, run, scanned, listed⟩, shortFilled, rfl,
    stopped.1⟩

end OpeningTimes
