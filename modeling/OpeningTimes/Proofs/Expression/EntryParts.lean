import OpeningTimes.Proofs.Expression.Derivation

/-!
Entries are read however a comma may be taken.

A comma goes on a list of days or of hours, or it parts two entries, and readers never go back.
So entries are cut at all of their commas, and each reader leaves a row of such parts.
-/

namespace OpeningTimes

/-- A clause without commas. -/
inductive ClausePart : List Token → Prop where
  /-- The word that closes. -/
  | off {off : Token} (isOff : off.kind = .off) : ClausePart [off]
  /-- One pair of times. -/
  | hours {tokens : List Token} (isHours : HoursPhrase tokens) : ClausePart tokens

/-- Days without commas. -/
inductive DaysPart : List Token → Prop where
  /-- A single day. -/
  | single {day : Token} (isDay : day.IsDay) : DaysPart [day]
  /-- A range of weekdays. -/
  | range {first dash last : Token} (isFirst : first.IsWeekday) (isDash : dash.kind = .dash)
    (isLast : last.IsWeekday) : DaysPart [first, dash, last]

/-- What stands between the commas of entries. -/
inductive EntryPart : List Token → Prop where
  /-- Days, with or without a clause. -/
  | days {days clause : List Token} (isDays : DaysPart days)
    (isClause : Optional ClausePart clause) : EntryPart (days ++ clause)
  /-- The sign for all hours, with or without a clause. -/
  | always {always : Token} {clause : List Token} (isAlways : always.kind = .always)
    (isClause : Optional ClausePart clause) : EntryPart (always :: clause)
  /-- A clause alone. -/
  | clause {clause : List Token} (isClause : ClausePart clause) : EntryPart clause

section Parts

variable {front clause tokens : List Token}

/-- A clause is cut at the commas between its hours. -/
theorem ClausePhrase.parts (isClause : ClausePhrase tokens) :
    Separated .comma ClausePart tokens := by
  cases isClause with
  | off isOff => exact .single (.off isOff)
  | hours list => exact list.mono fun _ isHours => .hours isHours

/-- What takes the first part of a clause as its own leaves the other ones to stand alone. -/
theorem parts_of_clause
    (takes : ∀ clause, Optional ClausePart clause → EntryPart (front ++ clause))
    (isClause : Optional ClausePhrase clause) : Separated .comma EntryPart (front ++ clause) := by
  rcases isClause with rfl | isClause
  · exact .single (takes [] (.inl rfl))
  · cases isClause.parts with
    | single only => exact .single (takes clause (.inr only))
    | cons first parts others =>
      -- The hours behind the first comma are clauses of their own.
      rw [← List.append_assoc]
      exact .cons (takes _ (.inr first)) parts (others.mono fun _ isPart => .clause isPart)

/-- Of several days the last one takes the first part of the clause behind them. -/
theorem parts_of_days (isDays : Separated .comma DayPhrase front)
    (isClause : Optional ClausePhrase clause) : Separated .comma EntryPart (front ++ clause) := by
  induction isDays with
  | single only =>
    cases only with
    | single isDay => exact parts_of_clause (fun _ => .days (.single isDay)) isClause
  | cons first parts _ ih =>
    cases first with
    | single isDay =>
      -- A day in front of the last one has no clause.
      rw [List.append_assoc, List.cons_append]
      have alone : EntryPart ([_] ++ []) := .days (.single isDay) (.inl rfl)
      exact .cons alone parts ih

/-- An entry is cut at all of its commas. -/
theorem EntryPhrase.parts (entry : EntryPhrase tokens) : Separated .comma EntryPart tokens := by
  cases entry with
  | days isDays isClause =>
    cases isDays with
    | range isFirst isDash isLast =>
      exact parts_of_clause (fun _ => .days (.range isFirst isDash isLast)) isClause
    | list days => exact parts_of_days days isClause
  | @always always clause isAlways isClause =>
    have takes (part : List Token) (isPart : Optional ClausePart part) :
        EntryPart ([always] ++ part) :=
      .always isAlways isPart
    exact parts_of_clause takes isClause
  | clause isClause => exact isClause.parts.mono fun _ isPart => .clause isPart

end Parts

section Starts

variable {front : List Token}

/-- Hours start with a time. -/
theorem HoursPhrase.startsWith_time (hours : HoursPhrase front) (rest : List Token) :
    startsWith .time (front ++ rest) = true := by
  cases hours with
  | between isFirst isDash isLast => simp [startsWith, isFirst.1]

/-- Days start with a day. -/
theorem DaysPart.startsWith_day (days : DaysPart front) (rest : List Token) :
    startsWith .day (front ++ rest) = true := by
  cases days with
  | single isDay => simp [startsWith, (Token.isDay_iff.mp isDay).1]
  | range isFirst isDash isLast => simp [startsWith, isFirst.1]

/-- A clause starts with the word that closes or with a time. -/
theorem ClausePart.startsWith_eq_false (clause : ClausePart front) (kind : TokenKind)
    (other : kind ∉ [TokenKind.off, .time]) (rest : List Token) :
    startsWith kind (front ++ rest) = false := by
  simp only [List.mem_cons, List.not_mem_nil, or_false, not_or] at other
  cases clause with
  | off isOff => simp [startsWith, isOff, Ne.symm other.1]
  | hours isHours =>
    exact OpeningTimes.startsWith_eq_false (isHours.startsWith_time rest) (Ne.symm other.2)

/-- A part starts an entry. -/
theorem EntryPart.startsEntry_append (part : EntryPart front) (rest : List Token) :
    startsEntry (front ++ rest) = true := by
  unfold startsEntry
  cases part with
  | days isDays isClause =>
    rw [List.append_assoc]
    simp [isDays.startsWith_day]
  | always isAlways isClause => simp [startsWith, isAlways]
  | clause isClause =>
    cases isClause with
    | off isOff => simp [startsWith, isOff]
    | hours isHours => simp [isHours.startsWith_time rest]

/-- A part that goes on a list of hours is made of hours. -/
theorem EntryPart.hours_of_startsWith {rest : List Token} (part : EntryPart front)
    (started : startsWith .time (front ++ rest) = true) : HoursPhrase front := by
  cases part with
  | days isDays isClause =>
    rw [List.append_assoc, startsWith_eq_false (isDays.startsWith_day _) (by decide)] at started
    contradiction
  | always isAlways isClause => simp [startsWith, isAlways] at started
  | clause isClause =>
    cases isClause with
    | off isOff => simp [startsWith, isOff] at started
    | hours isHours => exact isHours

/-- A part that goes on a list of days starts with a day, and a clause may follow that. -/
theorem EntryPart.day_of_startsSingleDay {rest : List Token} (part : EntryPart front)
    (started : startsSingleDay (front ++ rest) = true) :
    ∃ day clause, front = day :: clause ∧ day.IsDay ∧ Optional ClausePart clause := by
  cases part with
  | days isDays isClause =>
    cases isDays with
    | single isDay => exact ⟨_, _, rfl, isDay, isClause⟩
    | range isFirst isDash isLast =>
      -- The dash keeps a range from being taken for a day.
      simp [startsSingleDay, startsWith, isDash] at started
  | always isAlways isClause => simp [startsSingleDay, startsWith, isAlways] at started
  | clause isClause =>
    have noDay := isClause.startsWith_eq_false .day (by decide) rest
    simp [startsSingleDay, noDay] at started

/-- Entries start with a day, the sign for all hours or a clause, if they are there. -/
theorem startsWith_eq_false_of_entries {kind : TokenKind} {tokens : List Token}
    (entries : Optional (Separated .comma (OfFormed EntryPart)) tokens)
    (other : kind ∉ [TokenKind.day, .always, .time, .off]) : startsWith kind tokens = false := by
  simp only [List.mem_cons, List.not_mem_nil, or_false, not_or] at other
  obtain ⟨notDay, notAlways, notTime, notOff⟩ := other
  rcases entries with rfl | parts
  · rfl
  · have started := parts.starts_append (fun _ rest part => part.1.startsEntry_append rest) []
    rw [List.append_nil] at started
    simp only [startsEntry, Bool.or_eq_true] at started
    rcases started with ((day | always) | time) | off
    · exact startsWith_eq_false day (Ne.symm notDay)
    · exact startsWith_eq_false always (Ne.symm notAlways)
    · exact startsWith_eq_false time (Ne.symm notTime)
    · exact startsWith_eq_false off (Ne.symm notOff)

end Starts

/-- Parts of entries in front of others. -/
def LeadingParts : List Token → Prop :=
  Leading (OfFormed EntryPart) (· = [])

/-- Parts of entries that stand behind a comma each, up to the end. -/
def FurtherParts : List Token → Prop :=
  Continued (OfFormed EntryPart) (· = [])

/-- Behind a comma stands a part of an entry. -/
theorem FurtherParts.leading {comma : Token} {tokens : List Token}
    (further : FurtherParts (comma :: tokens)) (isComma : comma.kind = .comma) :
    LeadingParts tokens :=
  Continued.leading further isComma fun _ nothingLeft => nothingLeft ▸ rfl

/-- Further parts start with a comma, if with anything. -/
theorem FurtherParts.startsWith_eq_false {kind : TokenKind} {tokens : List Token}
    (further : FurtherParts tokens) (notComma : kind ≠ .comma) :
    startsWith kind tokens = false :=
  Continued.startsWith_eq_false further notComma fun _ nothingLeft => nothingLeft ▸ rfl

/-- What may stand behind days: a clause, and further parts of entries. -/
def BehindDays (tokens : List Token) : Prop :=
  ∃ clause rest, tokens = clause ++ rest ∧ Optional (OfFormed ClausePart) clause ∧
    FurtherParts rest

/-- Behind days no dash goes on. -/
theorem BehindDays.startsWith_dash {tokens : List Token} (behind : BehindDays tokens) :
    startsWith .dash tokens = false := by
  obtain ⟨clause, rest, rfl, rfl | isClause, further⟩ := behind
  · exact further.startsWith_eq_false (by decide)
  · exact isClause.1.startsWith_eq_false .dash (by decide) rest

/-- Behind a comma that follows days directly stands a part of an entry. -/
theorem BehindDays.leading {comma : Token} {tokens : List Token}
    (behind : BehindDays (comma :: tokens)) (isComma : comma.kind = .comma) :
    LeadingParts tokens := by
  obtain ⟨clause, rest, same, rfl | isClause, further⟩ := behind
  · rw [List.nil_append] at same
    subst same
    exact further.leading isComma
  · -- A clause does not start with a comma.
    have noComma := isClause.1.startsWith_eq_false .comma (by decide) rest
    rw [← same] at noComma
    simp [startsWith, isComma] at noComma

variable (stop : Token)

/-- Hours are read where they stand. -/
theorem exists_value?_readHours {front : List Token} (hours : OfFormed HoursPhrase front)
    (rest : List Token) :
    ∃ hours, (readHours stop (front ++ rest)).value? = some (hours, rest) := by
  obtain ⟨phrase, formed⟩ := hours
  cases phrase with
  | between isFirst isDash isLast =>
    obtain ⟨first, firstRead⟩ := (formed _ List.mem_cons_self).exists_time isFirst
    obtain ⟨last, lastRead⟩ := (formed _ (by simp)).exists_time isLast
    obtain ⟨text, position, rfl⟩ := Token.exists_of_kind isFirst.1
    obtain ⟨dashText, dashPosition, rfl⟩ := Token.exists_of_kind isDash
    obtain ⟨lastText, lastPosition, rfl⟩ := Token.exists_of_kind isLast.1
    exact ⟨⟨first, last⟩, by simp [readHours, firstRead, lastRead]⟩

/-- A list of hours takes all parts behind it that are made of hours. -/
theorem passes_hoursList : Passes (readList (readHours stop) (startsWith .time))
    (fun tokens => ∃ front rest, tokens = front ++ rest ∧ OfFormed HoursPhrase front ∧
      FurtherParts rest) FurtherParts := by
  have first : Passes (readHours stop)
      (fun tokens => ∃ front rest, tokens = front ++ rest ∧ OfFormed HoursPhrase front ∧
        FurtherParts rest) FurtherParts := by
    rintro _ ⟨front, rest, rfl, isHours, further⟩
    obtain ⟨hours, read⟩ := exists_value?_readHours stop isHours rest
    exact ⟨hours, rest, read, further⟩
  have others : Passes (readHours stop) (BehindComma (startsWith .time) FurtherParts)
      FurtherParts := by
    rintro tokens ⟨started, comma, isComma, further⟩
    -- Whichever entry the next part belongs to, it starts with a time, so it can be taken here.
    obtain ⟨front, rest, rfl, part, behind⟩ := further.leading isComma
    exact first _ ⟨front, rest, rfl, ⟨part.1.hours_of_startsWith started, part.2⟩, behind⟩
  intro tokens begun
  obtain ⟨values, rest, read, further, -⟩ := first.list takesPhrase_readHours others tokens begun
  exact ⟨values, rest, read, further⟩

/-- A clause is read where it stands, together with further hours behind it. -/
theorem exists_value?_readClause {front rest : List Token} (clause : OfFormed ClausePart front)
    (further : FurtherParts rest) : ∃ clause behind,
      (readClause stop (front ++ rest)).value? = some (some clause, behind) ∧
        FurtherParts behind := by
  obtain ⟨part, formed⟩ := clause
  cases part with
  | off isOff =>
    obtain ⟨text, position, rfl⟩ := Token.exists_of_kind isOff
    exact ⟨.off, rest, rfl, further⟩
  | hours isHours =>
    obtain ⟨list, behind, read, kept⟩ :=
      passes_hoursList stop _ ⟨front, rest, rfl, ⟨isHours, formed⟩, further⟩
    obtain ⟨text, position, others, same⟩ := exists_of_startsWith (isHours.startsWith_time rest)
    refine ⟨.hours list, behind, ?_, kept⟩
    rw [same] at read ⊢
    simp [readClause, read]

/-- Where no clause starts, none is read. -/
theorem readClause_absent {tokens : List Token} (noOff : startsWith .off tokens = false)
    (noTime : startsWith .time tokens = false) :
    readClause stop tokens = return (none, tokens) := by
  cases tokens with
  | nil => rfl
  | cons first others =>
    obtain ⟨kind, text, position⟩ := first
    cases kind
    case off => cases noOff
    case time => cases noTime
    all_goals rfl

/-- Behind days a clause is read if there is one. -/
theorem passes_readClause : Passes (readClause stop) BehindDays FurtherParts := by
  rintro _ ⟨clause, rest, rfl, rfl | isClause, further⟩
  · -- What follows starts with a comma, if with anything.
    have absent := readClause_absent stop (further.startsWith_eq_false (by decide))
      (further.startsWith_eq_false (by decide))
    exact ⟨none, rest, by rw [List.nil_append, absent]; rfl, further⟩
  · obtain ⟨value, behind, read, kept⟩ := exists_value?_readClause stop isClause further
    exact ⟨some value, behind, read, kept⟩

/-- A list of days takes all days behind it that start no range, up to one with a clause. -/
theorem passes_dayList : Passes (readList (readNamedDay stop) startsSingleDay)
    (fun tokens => ∃ day rest, tokens = day :: rest ∧ day.IsDay ∧ BehindDays rest)
    BehindDays := by
  have first : Passes (readNamedDay stop)
      (fun tokens => ∃ day rest, tokens = day :: rest ∧ day.IsDay ∧ BehindDays rest)
      BehindDays := by
    rintro _ ⟨day, rest, rfl, isDay, behind⟩
    obtain ⟨kind, named, read⟩ := Token.isDay_iff.mp isDay
    obtain ⟨text, position, rfl⟩ := Token.exists_of_kind kind
    exact ⟨named, rest, by simp [readNamedDay, read], behind⟩
  have others : Passes (readNamedDay stop) (BehindComma startsSingleDay BehindDays)
      BehindDays := by
    rintro tokens ⟨started, comma, isComma, behind⟩
    -- The day of the next part goes on the list, and its clause stands behind days again.
    obtain ⟨front, rest, rfl, part, further⟩ := behind.leading isComma
    obtain ⟨day, clause, rfl, isDay, isClause⟩ := part.1.day_of_startsSingleDay started
    have formed := (List.forall_mem_cons.mp part.2).2
    exact first _ ⟨day, clause ++ rest, rfl, isDay, clause, rest, rfl,
      isClause.imp_right fun isPart => ⟨isPart, formed⟩, further⟩
  intro tokens begun
  obtain ⟨values, rest, read, behind, -⟩ :=
    first.list takesPhrase_readNamedDay others tokens begun
  exact ⟨values, rest, read, behind⟩

/-- Days are read, and what is left may stand behind days. -/
theorem passes_readDays : Passes (readDays stop)
    (fun tokens => ∃ front rest, tokens = front ++ rest ∧ DaysPart front ∧ BehindDays rest)
    BehindDays := by
  rintro _ ⟨front, rest, rfl, isDays, behind⟩
  cases isDays with
  | @single day isDay =>
    obtain ⟨days, after, read, kept⟩ := passes_dayList stop _ ⟨day, rest, rfl, isDay, behind⟩
    -- No dash follows the first day, so a list is read.
    have noDash : startsWith .dash ([day] ++ rest).tail = false := behind.startsWith_dash
    have single : startsSingleDay ([day] ++ rest) = true := by
      rw [startsSingleDay, (DaysPart.single isDay).startsWith_day rest, noDash]
      rfl
    refine ⟨days, after, ?_, kept⟩
    rw [readDays_eq_readList single]
    exact read
  | range isFirst isDash isLast =>
    obtain ⟨firstKind, first, firstRead⟩ := Token.isWeekday_iff.mp isFirst
    obtain ⟨lastKind, last, lastRead⟩ := Token.isWeekday_iff.mp isLast
    obtain ⟨dashText, dashPosition, rfl⟩ := Token.exists_of_kind isDash
    obtain ⟨lastText, lastPosition, rfl⟩ := Token.exists_of_kind lastKind
    refine ⟨(first.through last).map .weekday, rest, ?_, behind⟩
    simp [readDays, firstRead, lastRead]

/-- An entry that starts with neither a day nor the sign for all hours is a clause. -/
theorem value?_readEntry_clause {tokens rest : List Token} {clause : Clause}
    (noDay : startsWith .day tokens = false) (noAlways : startsWith .always tokens = false)
    (read : (readClause stop tokens).value? = some (some clause, rest)) :
    (readEntry stop tokens).value? = some (.clause clause, rest) := by
  cases tokens with
  | nil => cases read
  | cons first others =>
    obtain ⟨kind, text, position⟩ := first
    cases kind
    case day => cases noDay
    case always => cases noAlways
    all_goals simp [readEntry, read]

/-- An entry is read, and further parts of entries are left. -/
theorem passes_readEntry : Passes (readEntry stop) LeadingParts FurtherParts := by
  rintro _ ⟨front, rest, rfl, ⟨part, formed⟩, further⟩
  cases part with
  | @days daysFront clause isDays isClause =>
    -- The days may take more than those in front of their first comma.
    have behind : BehindDays (clause ++ rest) := by
      have clauseFormed := (List.forall_mem_append.mp formed).2
      exact ⟨clause, rest, rfl, isClause.imp_right fun isPart => ⟨isPart, clauseFormed⟩, further⟩
    obtain ⟨days, middle, daysRead, kept⟩ :=
      passes_readDays stop _ ⟨daysFront, clause ++ rest, rfl, isDays, behind⟩
    obtain ⟨value, after, clauseRead, left⟩ := passes_readClause stop _ kept
    refine ⟨.days days value, after, ?_, left⟩
    obtain ⟨text, position, others, same⟩ :=
      exists_of_startsWith (isDays.startsWith_day (clause ++ rest))
    rw [List.append_assoc, same]
    rw [same] at daysRead
    simp [readEntry, daysRead, clauseRead]
  | @always always clause isAlways isClause =>
    have behind : BehindDays (clause ++ rest) := by
      have clauseFormed := (List.forall_mem_cons.mp formed).2
      exact ⟨clause, rest, rfl, isClause.imp_right fun isPart => ⟨isPart, clauseFormed⟩, further⟩
    obtain ⟨text, position, rfl⟩ := Token.exists_of_kind isAlways
    obtain ⟨value, after, read, left⟩ := passes_readClause stop _ behind
    exact ⟨.always, after, by simp [readEntry, read], left⟩
  | clause isClause =>
    -- A clause without days may take the hours of the parts behind it.
    obtain ⟨value, after, read, left⟩ :=
      exists_value?_readClause stop ⟨isClause, formed⟩ further
    have noDay := isClause.startsWith_eq_false .day (by decide) rest
    have noAlways := isClause.startsWith_eq_false .always (by decide) rest
    exact ⟨.clause value, after, value?_readEntry_clause stop noDay noAlways read, left⟩

/-- Entries are read up to the end of their expression. -/
theorem exists_value?_readEntries {tokens : List Token}
    (entries : Optional (Separated .comma (OfFormed EntryPart)) tokens) :
    ∃ entries, (readEntries stop tokens).value? = some (entries, []) := by
  rcases entries with rfl | parts
  · exact ⟨[], rfl⟩
  · have begins (front rest : List Token) (part : OfFormed EntryPart front) :=
      part.1.startsEntry_append rest
    have leading : LeadingParts (tokens ++ []) := parts.leading rfl
    have started := parts.starts_append begins []
    rw [List.append_nil] at leading started
    obtain ⟨values, _, read, rfl⟩ := Passes.whole (passes_readEntry stop)
      takesPhrase_readEntry (fun _ nothingLeft => nothingLeft ▸ rfl) begins _ leading
    exact ⟨values, by rw [readEntries, if_pos started, read]⟩

end OpeningTimes
