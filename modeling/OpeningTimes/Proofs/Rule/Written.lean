import OpeningTimes.Proofs.Expression.NearestDay
import OpeningTimes.Proofs.Expression.Words
import OpeningTimes.Proofs.Rule.Spelling

/-! The parts of a written schedule are read as what they were written for. -/

namespace OpeningTimes

namespace Token

variable {position : Nat}

/-- A written year is read as that year. -/
theorem value?_readYear_padded (year : UInt16) :
    (⟨.year, padded 4 year.toNat, position⟩ : Token).readYear.value? = some year := by
  have below : year.toNat < 65536 := year.toNat_lt_size
  have number : readDecimal? (padded 4 year.toNat) = some year.toNat :=
    readDecimal?_padded (by decide)
  unfold readYear
  simp [number, below]

/-- A written month is read as that month. -/
@[simp] theorem value?_readMonth_abbreviation (month : Month) :
    (⟨.month, month.abbreviation, position⟩ : Token).readMonth.value? = some month := by
  cases month <;> rfl

/-- A written day number is read as that day of its month. -/
@[simp] theorem value?_readDayOf_padded (annual : AnnualDay) :
    ((⟨.number, padded 2 annual.day, position⟩ : Token).readDayOf annual.month).value? =
      some annual := by
  have bounded := annual.day_le
  have number : readByte? (padded 2 annual.day) = some annual.day :=
    readByte?_eq_some_iff.mpr ⟨readDecimal?_padded (by decide), by omega⟩
  rw [readDayOf_eq number, annual.nearest_self]
  rfl

/-- A written weekday is read as that day. -/
@[simp] theorem value?_readDay_code (day : Weekday) :
    (⟨.day, day.code, position⟩ : Token).readDay.value? = some (.weekday day) := by
  cases day <;> rfl

/-- The two letters for public holidays are read as these. -/
@[simp] theorem value?_readDay_holiday :
    (⟨.day, HolidayRule.code, position⟩ : Token).readDay.value? = some .holiday :=
  rfl

/-- A written time is read as that time. -/
@[simp] theorem value?_readTime_text (time : DayTime) :
    (⟨.time, time.text, position⟩ : Token).readTime.value? = some time := by
  have bounded := time.minutes_le
  have hours : time.hour < 100 := by
    unfold DayTime.hour
    omega
  have within : time.minute < 60 := Nat.mod_lt _ (by decide)
  -- The hours end at the colon, as digits are no colons.
  have parts : time.text.span (· ≠ ':') = (padded 2 time.hour, ':' :: padded 2 time.minute) := by
    obtain ⟨tens, ones, text, first, second⟩ := exists_padded_two hours
    have one : tens ≠ ':' := beq_eq_false_iff_ne.mp (ne_of_isDigit first rfl)
    have two : ones ≠ ':' := beq_eq_false_iff_ne.mp (ne_of_isDigit second rfl)
    rw [List.span_eq_takeWhile_dropWhile, DayTime.text, text]
    simp [one, two]
  -- The hours and the minutes make the time up again.
  have found : DayTime.ofHourMinute? time.hour time.minute = some time := by
    have whole : 60 * time.hour + time.minute = time.minutes := Nat.div_add_mod time.minutes 60
    simp [DayTime.ofHourMinute?, DayTime.ofMinutes?, within, whole, bounded]
  have hour : readByte? (padded 2 time.hour) = some time.hour :=
    readByte?_eq_some_iff.mpr ⟨readDecimal?_padded (by decide), by omega⟩
  have minute : readByte? (padded 2 time.minute) = some time.minute :=
    readByte?_eq_some_iff.mpr ⟨readDecimal?_padded (by decide), by omega⟩
  unfold readTime
  rw [parts]
  simp [hour, minute, found]

end Token

/--
A reader takes a text as a value, whatever follows within `follows`.

The tokens of the text and of what follows are ones of which `begins` holds.
-/
def Written {Value : Type} (reader : Reader Value) (begins follows : List Token → Prop)
    (text : List Char) (value : Value) : Prop :=
  ∃ words, Spells text words ∧ ∀ rest, follows rest →
    begins (words.map Word.token ++ rest) ∧
      (reader (words.map Word.token ++ rest)).value? = some (value, rest)

/-- Tokens that do not continue a list, as no item follows their comma. -/
def EndsList (starts : List Token → Bool) (rest : List Token) : Prop :=
  startsWith .comma rest = true → starts rest.tail = false

/-- Tokens that do not begin with a comma end a list. -/
theorem endsList_of_startsWith_comma {starts : List Token → Bool} {rest : List Token}
    (ended : startsWith .comma rest = false) : EndsList starts rest := by
  intro continued
  rw [ended] at continued
  contradiction

namespace Written

variable {Value : Type}

/-- A text is also read as its value when less may follow it and less is said of its beginning. -/
theorem weaken {reader : Reader Value} {begins weaker follows stronger : List Token → Prop}
    {text : List Char} {value : Value} (written : Written reader begins follows text value)
    (begun : ∀ tokens, begins tokens → weaker tokens)
    (followed : ∀ rest, stronger rest → follows rest) :
    Written reader weaker stronger text value := by
  obtain ⟨words, spelled, read⟩ := written
  refine ⟨words, spelled, fun rest after => ?_⟩
  obtain ⟨beginning, taken⟩ := read rest (followed rest after)
  exact ⟨begun _ beginning, taken⟩

end Written

section Lists

variable {Value : Type} {item : Reader Value} {starts : List Token → Bool}
  {begins follows : List Token → Prop} {words : List Word}

/-- Tokens that do not continue a list end it. -/
theorem readMore_of_endsList {rest : List Token} (ended : EndsList starts rest) (limit : Nat) :
    readMore item starts limit rest = return ([], rest) := by
  cases limit with
  | zero => rfl
  | succ limit =>
    cases rest with
    | nil => rfl
    | cons first others =>
      obtain ⟨kind, text, position⟩ := first
      cases kind
      -- What stands behind a comma does not start an item.
      case comma =>
        have stops : starts others = false := ended rfl
        simp [readMore, stops]
      all_goals rfl

variable (item starts begins follows)

/--
Words are read as a first item and as further ones behind it.

The first item leaves tokens from which the others are read, within any limit that is large enough.
-/
structure SpellsList (text : List Char) (first : Value) (others : List Value)
    (words : List Word) : Prop where
  /-- The text is cut into the words. -/
  spelled : Spells text words
  /-- There is a word for each of the further items. -/
  enough : others.length ≤ words.length
  /-- Whatever follows the list, the items are read and it is left. -/
  read : ∀ rest, follows rest → EndsList starts rest →
    begins (words.map Word.token ++ rest) ∧
      ∃ middle, (item (words.map Word.token ++ rest)).value? = some (first, middle) ∧
        others.length ≤ middle.length ∧ ∀ limit, others.length ≤ limit →
          (readMore item starts limit middle).value? = some (others, rest)

variable {item starts begins follows}

/-- A single item is a list. -/
theorem exists_spellsList_single {text : List Char} {value : Value}
    (written : Written item begins follows text value) :
    ∃ words, SpellsList item starts begins follows text value [] words := by
  obtain ⟨words, spelled, read⟩ := written
  refine ⟨words, spelled, Nat.zero_le _, fun rest after ended => ?_⟩
  obtain ⟨beginning, taken⟩ := read rest after
  refine ⟨beginning, rest, taken, Nat.zero_le _, fun limit _ => ?_⟩
  -- Behind the only item the list ends.
  rw [readMore_of_endsList ended]
  rfl

/-- An item and a comma in front of a list make a longer list. -/
theorem SpellsList.exists_cons {text front whole : List Char} {value first : Value}
    {others : List Value} (list : SpellsList item starts begins follows text first others words)
    (begun : ∀ tokens, begins tokens →
      starts tokens = true ∧ follows (⟨.comma, [','], 0⟩ :: tokens))
    (written : Written item begins follows front value)
    (joined : ∀ frontWords, Spells front frontWords →
      Spells whole (frontWords ++ ⟨.comma, [',']⟩ :: words)) :
    ∃ words, SpellsList item starts begins follows whole value (first :: others) words := by
  obtain ⟨frontWords, spelled, read⟩ := written
  have enough := list.enough
  refine ⟨_, joined frontWords spelled, ?_, fun rest after ended => ?_⟩
  · -- Every further item has a comma of its own.
    simp only [List.length_cons, List.length_append]
    omega
  · obtain ⟨beginning, middle, taken, bounded, last⟩ := list.read rest after ended
    obtain ⟨started, continued⟩ := begun _ beginning
    obtain ⟨frontBeginning, frontTaken⟩ := read _ continued
    have shape : (frontWords ++ ⟨.comma, [',']⟩ :: words).map Word.token ++ rest =
        frontWords.map Word.token ++ ⟨.comma, [','], 0⟩ :: (words.map Word.token ++ rest) := by
      simp [Word.token]
    rw [shape]
    refine ⟨frontBeginning, _, frontTaken, ?_, fun limit within => ?_⟩
    · simp only [List.length_cons, List.length_append, List.length_map]
      omega
    · -- One step reads the item behind the comma, and the others are left to the smaller limit.
      cases limit with
      | zero => cases within
      | succ limit =>
        have moreTaken := last limit (Nat.le_of_succ_le_succ within)
        simp [readMore, started, taken, moreTaken]

/-- Items with commas between them are read as the list of them. -/
theorem Written.list {Item : Type} (item : Reader Value) {separator : List Char}
    {text : Item → List Char} {value : Item → Value} {entries : List Item}
    (separated : ∀ {left right leftWords rightWords},
      Spells left leftWords → Spells right rightWords →
      Spells (left ++ separator ++ right) (leftWords ++ ⟨.comma, [',']⟩ :: rightWords))
    (begun : ∀ tokens, begins tokens →
      starts tokens = true ∧ follows (⟨.comma, [','], 0⟩ :: tokens))
    (filled : entries ≠ [])
    (written : ∀ entry ∈ entries, Written item begins follows (text entry) (value entry)) :
    Written (readList item starts) begins (fun rest => follows rest ∧ EndsList starts rest)
      (separator.intercalate (entries.map text)) (entries.map value) := by
  have general : ∀ (others : List Item) (first : Item),
      (∀ entry ∈ first :: others, Written item begins follows (text entry) (value entry)) →
      ∃ words, SpellsList item starts begins follows
        (separator.intercalate ((first :: others).map text)) (value first) (others.map value)
        words := by
    intro others
    -- The items are put in front one by one, the last one first.
    induction others with
    | nil =>
      intro first written
      simpa using exists_spellsList_single (written first List.mem_cons_self)
    | cons second more ih =>
      intro first written
      obtain ⟨words, list⟩ :=
        ih second fun entry listed => written entry (List.mem_cons_of_mem _ listed)
      refine list.exists_cons begun (written first List.mem_cons_self) fun frontWords spelled => ?_
      rw [List.map_cons, List.map_cons, List.intercalate_cons_cons]
      exact separated spelled list.spelled
  cases entries with
  | nil => exact absurd rfl filled
  | cons first others =>
    obtain ⟨words, list⟩ := general others first written
    refine ⟨words, list.spelled, fun rest following => ?_⟩
    obtain ⟨beginning, middle, taken, bounded, last⟩ := list.read rest following.1 following.2
    refine ⟨beginning, ?_⟩
    -- The tokens that the first item leaves are limit enough.
    simp [readList, taken, last _ bounded]

end Lists

variable {stop : Token}

/-- A season is read from its text, whatever follows. -/
theorem written_season (season : Season) :
    Written (readSeason stop) (startsWith .month · = true) (fun _ => True) season.text season := by
  have day : ∀ annual : AnnualDay, Spells annual.text
      [⟨.month, annual.month.abbreviation⟩, ⟨.number, padded 2 annual.day⟩] := by
    intro annual
    have bounded := annual.day_le
    have number := spells_number (show annual.day < 100 by omega)
    simpa [AnnualDay.text] using (spells_month annual.month).spaced number
  -- The dash has blanks around it.
  have tail := Spells.nil.signed isSign_dash (by decide) (day season.last).blank
  have spelled := (day season.first).spaced tail
  refine ⟨_, by simpa [Season.text] using spelled, fun rest _ => ⟨rfl, ?_⟩⟩
  simp [Word.token, readSeason, readDayRange]

/-- Hours are read from their text, whatever follows. -/
theorem written_hours (hours : Hours) :
    Written (readHours stop) (startsWith .time · = true) (fun _ => True) hours.text hours := by
  have spelled := (spells_time hours.first).signed isSign_dash (by decide) (spells_time hours.last)
  refine ⟨_, by simpa [Hours.text] using spelled, fun rest _ => ⟨rfl, ?_⟩⟩
  simp [Word.token, readHours]

/-- Texts with a comma between them spell the words of both with the comma between these. -/
theorem Spells.comma {left right : List Char} {leftWords rightWords : List Word}
    (front : Spells left leftWords) (back : Spells right rightWords) :
    Spells (left ++ [','] ++ right) (leftWords ++ ⟨.comma, [',']⟩ :: rightWords) := by
  simpa using front.signed isSign_comma (by decide) back

/-- A blank behind the comma does not matter. -/
theorem Spells.commaBlank {left right : List Char} {leftWords rightWords : List Word}
    (front : Spells left leftWords) (back : Spells right rightWords) :
    Spells (left ++ [',', ' '] ++ right) (leftWords ++ ⟨.comma, [',']⟩ :: rightWords) := by
  simpa using front.signed isSign_comma (by decide) back.blank

/-- Tokens that start with a kind have a first token of that kind. -/
theorem exists_of_startsWith {kind : TokenKind} {tokens : List Token}
    (started : startsWith kind tokens = true) :
    ∃ text position rest, tokens = ⟨kind, text, position⟩ :: rest := by
  cases tokens with
  | nil => cases started
  | cons first rest =>
    obtain ⟨found, text, position⟩ := first
    obtain rfl : found = kind := by simpa [startsWith] using started
    exact ⟨text, position, rest, rfl⟩

/-- Tokens that start with one kind start with no other. -/
theorem startsWith_eq_false {kind other : TokenKind} {tokens : List Token}
    (started : startsWith kind tokens = true) (different : kind ≠ other) :
    startsWith other tokens = false := by
  obtain ⟨_, _, _, rfl⟩ := exists_of_startsWith started
  simp [startsWith, different]

/-- A list of hours is read as a clause, unless a comma and a time follow. -/
theorem written_hoursList {list : List Hours} (filled : list ≠ []) :
    Written (readClause stop) (startsWith .time · = true) (EndsList (startsWith .time))
      (hoursListText list) (some (.hours list)) := by
  obtain ⟨words, spelled, read⟩ := Written.list (readHours stop) Spells.comma
    (fun tokens begun => ⟨begun, trivial⟩) filled fun hours _ => written_hours hours
  refine ⟨words, spelled, fun rest ended => ?_⟩
  obtain ⟨started, taken⟩ := read rest ⟨trivial, ended⟩
  obtain ⟨text, position, others, shape⟩ := exists_of_startsWith started
  refine ⟨started, ?_⟩
  -- The first token is a time, which is where a clause of hours is chosen.
  rw [shape] at taken ⊢
  rw [List.map_id'] at taken
  simp [readClause, taken]

/-- The word that closes is read as a clause, whatever follows. -/
theorem written_off :
    Written (readClause stop) (startsWith .off · = true) (fun _ => True) offWord (some .off) :=
  ⟨_, spells_off, fun _ _ => ⟨rfl, rfl⟩⟩

/-- A named day as it is written. -/
def NamedDay.code : NamedDay → List Char
  | .weekday day => day.code
  | .holiday => HolidayRule.code

/-- A named day is read from its two letters, unless it begins a range. -/
theorem written_namedDay (day : NamedDay) :
    Written (readNamedDay stop) (startsSingleDay · = true) (startsWith .dash · = false)
      day.code day := by
  have spelled : Spells day.code [⟨.day, day.code⟩] := by
    cases day with
    | weekday day => exact spells_weekday day
    | holiday => exact spells_holiday
  refine ⟨_, spelled, fun rest single => ⟨?_, ?_⟩⟩
  · -- Without a dash behind it, the day is a single one.
    simp [startsSingleDay, Word.token, single]
    rfl
  · cases day <;> simp [Word.token, readNamedDay, NamedDay.code]

/-- Tokens that start with a single day are read as a list of days. -/
theorem readDays_eq_readList {tokens : List Token} (single : startsSingleDay tokens = true) :
    readDays stop tokens = readList (readNamedDay stop) startsSingleDay tokens := by
  cases tokens with
  | nil => rfl
  | cons first rest =>
    cases rest with
    | nil => rfl
    | cons second others =>
      obtain ⟨kind, text, position⟩ := second
      cases kind
      -- Only a dash behind the first day would make a range.
      case dash => simp [startsSingleDay, startsWith] at single
      all_goals rfl

/-- A list of days is read from its codes, unless a comma follows or the last day begins a range. -/
theorem written_dayList {days : List NamedDay} (filled : days ≠ []) :
    Written (readDays stop) (startsWith .day · = true)
      (fun rest => startsWith .dash rest = false ∧ startsWith .comma rest = false)
      ([','].intercalate (days.map NamedDay.code)) days := by
  obtain ⟨words, spelled, read⟩ := Written.list (readNamedDay stop) Spells.comma
    (fun tokens begun => ⟨begun, rfl⟩) filled fun day _ => written_namedDay day
  refine ⟨words, spelled, fun rest following => ?_⟩
  obtain ⟨single, ended⟩ := following
  obtain ⟨started, taken⟩ := read rest ⟨single, endsList_of_startsWith_comma ended⟩
  -- The first day is a single one, so a list is read.
  rw [readDays_eq_readList started]
  exact ⟨(Bool.and_eq_true_iff.mp started).1, by simpa using taken⟩

/-- Weekdays that follow each other are counted on from the first one. -/
theorem eq_map_range_of_consecutive {first last : Weekday} {rest : List Weekday}
    (follows : consecutive (first :: rest) = true) (ends : (first :: rest).getLast? = some last) :
    last.index = first.index + rest.length ∧
      first :: rest =
        (List.range (rest.length + 1)).map fun steps => Weekday.ofIndex (first.index + steps) := by
  induction rest generalizing first with
  | nil =>
    obtain rfl : first = last := by simpa using ends
    simp
  | cons second more ih =>
    -- The second day is the one after the first, from which the others are counted on.
    simp only [consecutive, Bool.and_eq_true, beq_iff_eq] at follows
    rw [List.getLast?_cons_cons] at ends
    obtain ⟨index, listed⟩ := ih follows.2 ends
    refine ⟨by rw [List.length_cons]; omega, ?_⟩
    rw [List.length_cons, List.range_succ_eq_map, List.map_cons, List.map_map, listed,
      ← follows.1]
    simp [Function.comp_def, Nat.add_assoc, Nat.add_comm 1]

/-- Weekdays that follow each other are those from the first one through the last one. -/
theorem through_of_consecutive {first last : Weekday} {rest : List Weekday}
    (follows : consecutive (first :: rest) = true) (ends : (first :: rest).getLast? = some last) :
    first.through last = first :: rest := by
  obtain ⟨index, listed⟩ := eq_map_range_of_consecutive follows ends
  -- They stay within the week, so the distance of its ends does not wrap.
  have bounded : last.index < 7 := by cases last <;> decide
  have distance : (last.index + 7 - first.index) % 7 = rest.length := by omega
  rw [listed, Weekday.through, distance]

/-- Weekdays are read from their text as these days in the order of the week. -/
theorem written_days {days : List Weekday} (filled : inWeekOrder days ≠ []) :
    Written (readDays stop) (startsWith .day · = true)
      (fun rest => startsWith .dash rest = false ∧ startsWith .comma rest = false) (daysText days)
      ((inWeekOrder days).map .weekday) := by
  have codes : ((inWeekOrder days).map NamedDay.weekday).map NamedDay.code =
      (inWeekOrder days).map Weekday.code :=
    List.map_map
  have asList : Written (readDays stop) (startsWith .day · = true)
      (fun rest => startsWith .dash rest = false ∧ startsWith .comma rest = false)
      ([','].intercalate (((inWeekOrder days).map .weekday).map NamedDay.code))
      ((inWeekOrder days).map .weekday) :=
    written_dayList (by simpa using filled)
  rw [codes] at asList
  -- A range is read as the same days as their list.
  unfold daysText
  cases ordered : inWeekOrder days with
  | nil => exact absurd ordered filled
  | cons first rest =>
    rw [ordered] at asList
    obtain ⟨last, ends⟩ : ∃ last, (first :: rest).getLast? = some last := ⟨_, List.getLast?_cons⟩
    simp only [List.head?_cons, ends]
    split
    · -- Days that follow each other are written as a range.
      rename_i range
      have days := through_of_consecutive (Bool.and_eq_true_iff.mp range).1 ends
      have spelled := (spells_weekday first).signed isSign_dash (by decide) (spells_weekday last)
      refine ⟨_, by simpa using spelled, fun rest _ => ⟨rfl, ?_⟩⟩
      rw [← days]
      simp [Word.token, readDays]
    · exact asList

/-- An entry is read from its days and its clause, as far as the clause is. -/
theorem written_entry {days : List NamedDay} {clause : Clause} {begins : TokenKind}
    {ends : List Token → Prop} {daysText clauseText : List Char}
    (daysWritten : Written (readDays stop) (startsWith .day · = true)
      (fun rest => startsWith .dash rest = false ∧ startsWith .comma rest = false) daysText days)
    (clauseWritten : Written (readClause stop) (startsWith begins · = true) ends clauseText
      (some clause))
    (notDash : begins ≠ .dash) (notComma : begins ≠ .comma) :
    Written (readEntry stop) (startsWith .day · = true) ends (daysText ++ [' '] ++ clauseText)
      (.days days (some clause)) := by
  obtain ⟨words, spelled, read⟩ := daysWritten
  obtain ⟨clauseWords, clauseSpelled, clauseRead⟩ := clauseWritten
  refine ⟨words ++ clauseWords, by simpa using spelled.spaced clauseSpelled, fun rest ended => ?_⟩
  obtain ⟨beginning, clauseTaken⟩ := clauseRead rest ended
  -- The clause begins with neither of the signs that would go on with the days.
  obtain ⟨started, taken⟩ :=
    read _ ⟨startsWith_eq_false beginning notDash, startsWith_eq_false beginning notComma⟩
  rw [List.map_append, List.append_assoc]
  refine ⟨started, ?_⟩
  obtain ⟨text, position, others, shape⟩ := exists_of_startsWith started
  rw [shape] at taken ⊢
  simp [readEntry, taken, clauseTaken]

/-- Entries are read from their texts, up to the end. -/
theorem written_entries {Item : Type} {text : Item → List Char} {value : Item → Entry}
    {entries : List Item} (filled : entries ≠ [])
    (written : ∀ entry ∈ entries, Written (readEntry stop) (startsWith .day · = true)
      (EndsList (startsWith .time)) (text entry) (value entry)) :
    Written (readEntries stop) (startsWith .day · = true) (· = [])
      ([',', ' '].intercalate (entries.map text)) (entries.map value) := by
  have begun : ∀ tokens, startsWith .day tokens = true → startsEntry tokens = true ∧
      EndsList (startsWith .time) (⟨.comma, [','], 0⟩ :: tokens) := by
    intro tokens started
    -- A day in front is no time, so hours end at the comma in front of it.
    exact ⟨by simp [startsEntry, started], fun _ => startsWith_eq_false started (by decide)⟩
  obtain ⟨words, spelled, read⟩ :=
    Written.list (readEntry stop) Spells.commaBlank begun filled written
  refine ⟨words, spelled, fun rest ended => ?_⟩
  subst ended
  have neither : EndsList (startsWith .time) [] ∧ EndsList startsEntry [] :=
    ⟨endsList_of_startsWith_comma rfl, endsList_of_startsWith_comma rfl⟩
  obtain ⟨started, taken⟩ := read [] neither
  refine ⟨started, ?_⟩
  rw [readEntries, if_pos (begun _ started).1]
  exact taken

/-- The word that closes is read as the only entry. -/
theorem written_offEntries :
    Written (readEntries stop) (startsWith .off · = true) (· = []) offWord [.clause .off] := by
  refine ⟨_, spells_off, fun rest ended => ?_⟩
  subst ended
  exact ⟨rfl, rfl⟩

/-- Years that four digits can write, in order. -/
def Years.Printable (years : Years) : Prop :=
  years.first.toNat ≤ 9999 ∧ ∀ last, years.last = some last → years.first ≤ last ∧ last.toNat ≤ 9999

/-- A year that is followed by neither sign stands alone. -/
theorem readYears_alone {text : List Char} {position : Nat} {rest : List Token}
    (noPlus : startsWith .plus rest = false) (noDash : startsWith .dash rest = false) :
    readYears (⟨.year, text, position⟩ :: rest) =
      (do return (some (.only (← (⟨.year, text, position⟩ : Token).readYear)), rest)) := by
  cases rest with
  | nil => rfl
  | cons next others =>
    obtain ⟨kind, text, position⟩ := next
    -- Behind the year only a sign would change what is read.
    cases kind
    case plus => cases noPlus
    case dash => cases noDash
    all_goals rfl

/-- Years are read from their text, unless a sign follows. -/
theorem written_years {years : Years} (printable : years.Printable) :
    Written readYears (fun _ => True)
      (fun rest => startsWith .plus rest = false ∧ startsWith .dash rest = false)
      years.text (some years) := by
  obtain ⟨first, last⟩ := years
  obtain ⟨firstFits, lastFits⟩ := printable
  dsimp only at firstFits lastFits
  have firstSpelled := spells_year (Nat.lt_succ_of_le firstFits)
  have firstRead : ∀ position, (⟨.year, padded 4 first.toNat, position⟩ : Token).readYear.value? =
      some first :=
    fun _ => Token.value?_readYear_padded _
  cases last with
  | none =>
    -- Years without an end are written with a plus.
    have spelled := firstSpelled.signed isSign_plus (by decide) Spells.nil
    refine ⟨_, by simpa [Years.text] using spelled, fun rest _ => ⟨trivial, ?_⟩⟩
    simp [Word.token, readYears, firstRead]
  | some last =>
    obtain ⟨ordered, fits⟩ := lastFits last rfl
    by_cases same : last = first
    · -- A single year is written alone, and neither sign follows it.
      subst same
      refine ⟨_, by simpa [Years.text] using firstSpelled, fun rest following => ⟨trivial, ?_⟩⟩
      simp [Word.token, readYears_alone following.1 following.2, firstRead, Years.only]
    · -- Two years are written with a dash, and the reader finds them in order.
      have lastSpelled := spells_year (Nat.lt_succ_of_le fits)
      have spelled := firstSpelled.signed isSign_dash (by decide) lastSpelled
      refine ⟨_, by simpa [Years.text, same] using spelled, fun rest _ => ⟨trivial, ?_⟩⟩
      have lastRead : ∀ position, (⟨.year, padded 4 last.toNat, position⟩ : Token).readYear.value? =
          some last :=
        fun _ => Token.value?_readYear_padded _
      have notBefore : ¬ last < first := UInt16.not_lt.mpr ordered
      simp [Word.token, readYears, firstRead, lastRead, notBefore]

/-- Tokens of one expression are not cut. -/
theorem TokenRun.cut_of_unparted {tokens : List Token}
    (unparted : ∀ token ∈ tokens, token.kind ≠ .semicolon) :
    cut stop tokens = (⟨tokens, stop⟩, []) := by
  induction tokens with
  | nil => rfl
  | cons token rest ih =>
    rw [cut, ih fun other listed => unparted other (List.mem_cons_of_mem _ listed)]
    exact if_neg (unparted token List.mem_cons_self)

/-- Words of one expression are read as that expression. -/
theorem expressions?_of_unparted {words : List Word}
    (unparted : ∀ word ∈ words, word.kind ≠ .semicolon) :
    expressions? words =
      (TokenRun.ofWords words).readExpression.value?.map fun expression => [expression] := by
  have tokens : ∀ token ∈ words.map Word.token, token.kind ≠ .semicolon := by
    intro token listed
    obtain ⟨word, member, rfl⟩ := List.mem_map.mp listed
    exact unparted word member
  -- Without a semicolon there is one run, which is the whole.
  have whole : (TokenRun.ofWords words).expressions = [TokenRun.ofWords words] := by
    rw [TokenRun.expressions, TokenRun.ofWords, TokenRun.cut_of_unparted tokens]
  rw [expressions?, whole]
  cases read : (TokenRun.ofWords words).readExpression.value? <;> simp [readExpressions, read]

/-- A text describes an expression when its words are read as that one only. -/
def Describes (text : List Char) (expression : Expression) : Prop :=
  ∃ words, words? text = some words ∧ expressions? words = some [expression]

/-- The seasons in front of entries are read from their text. -/
theorem written_seasons (season : Season) :
    Written (readSeasons stop) (startsWith .month · = true) (startsWith .comma · = false)
      season.text [season] := by
  -- A single season is a list of seasons.
  have alone : ∀ entry ∈ [season], Written (readSeason stop) (startsWith .month · = true)
      (fun _ => True) entry.text (id entry) := fun entry _ => written_season entry
  obtain ⟨words, spelled, read⟩ := Written.list (readSeason stop) Spells.comma
    (fun tokens begun => ⟨begun, trivial⟩) (by simp) alone
  refine ⟨words, by simpa using spelled, fun rest ended => ?_⟩
  obtain ⟨started, taken⟩ := read rest ⟨trivial, endsList_of_startsWith_comma ended⟩
  refine ⟨started, ?_⟩
  rw [readSeasons, if_pos started]
  exact taken

/-- A season and entries that are written one after the other are read as these. -/
theorem exists_words_seasonEntries {season : Option Season} {entriesText : List Char}
    {entries : List Entry} {begins : TokenKind} (early : begins = .day ∨ begins = .off)
    (written : Written (readEntries stop) (startsWith begins · = true) (· = [])
      entriesText entries) :
    ∃ words, Spells (limitsText season none ++ entriesText) words ∧
      (startsWith .month (words.map Word.token) = true ∨
        startsWith begins (words.map Word.token) = true) ∧
      ∃ middle, (readSeasons stop (words.map Word.token)).value? = some (season.toList, middle) ∧
        (readEntries stop middle).value? = some (entries, []) := by
  obtain ⟨words, spelled, read⟩ := written
  obtain ⟨started, taken⟩ := read [] rfl
  rw [List.append_nil] at started taken
  -- Entries begin neither with a month nor with the comma that would continue the seasons.
  have others : startsWith .month (words.map Word.token) = false ∧
      startsWith .comma (words.map Word.token) = false := by
    rcases early with rfl | rfl
    · exact ⟨startsWith_eq_false started (by decide), startsWith_eq_false started (by decide)⟩
    · exact ⟨startsWith_eq_false started (by decide), startsWith_eq_false started (by decide)⟩
  cases season with
  | none =>
    have nothing : (readSeasons stop (words.map Word.token)).value? =
        some ([], words.map Word.token) := by
      simp [readSeasons, others.1]
    exact ⟨words, by simpa [limitsText] using spelled, .inr started, _, nothing, taken⟩
  | some season =>
    -- The season is followed by the entries, where its list ends.
    obtain ⟨seasonWords, seasonSpelled, seasonRead⟩ := @written_seasons stop season
    obtain ⟨seasonStarted, seasonTaken⟩ := seasonRead _ others.2
    rw [← List.map_append] at seasonStarted seasonTaken
    refine ⟨seasonWords ++ words, ?_, .inl seasonStarted, words.map Word.token, seasonTaken, taken⟩
    simpa [limitsText] using seasonSpelled.spaced spelled

/-- Years, a season and entries that are written one after the other describe their expression. -/
theorem describes_expression {season : Option Season} {years : Option Years}
    {entriesText : List Char} {entries : List Entry} {begins : TokenKind}
    (printable : ∀ range, years = some range → range.Printable)
    (early : begins = .day ∨ begins = .off) (filled : entries ≠ [])
    (written : ∀ stop, Written (readEntries stop) (startsWith begins · = true) (· = [])
      entriesText entries) :
    Describes (limitsText season years ++ entriesText) ⟨years, season.toList, entries⟩ := by
  obtain ⟨words, spelled, started, middle, seasonsTaken, entriesTaken⟩ :=
    @exists_words_seasonEntries _ season _ _ _ early (written ⟨.finish, [], 0⟩)
  -- Neither a season nor an entry begins with a year or goes on with years.
  have others : ∀ kind, kind = .year ∨ kind = .plus ∨ kind = .dash →
      startsWith kind (words.map Word.token) = false := by
    intro kind late
    rcases started with month | first
    · exact startsWith_eq_false month (by rcases late with rfl | rfl | rfl <;> decide)
    · refine startsWith_eq_false first ?_
      rcases early with rfl | rfl <;> rcases late with rfl | rfl | rfl <;> decide
  -- It is enough to read the years in front of these words.
  suffices found : ∃ allWords, Spells (limitsText season years ++ entriesText) allWords ∧
      (readYears (allWords.map Word.token)).value? = some (years, words.map Word.token) by
    obtain ⟨allWords, allSpelled, yearsTaken⟩ := found
    refine ⟨allWords, allSpelled.cut, ?_⟩
    rw [expressions?_of_unparted allSpelled.unparted]
    simp [TokenRun.readExpression, TokenRun.ofWords, yearsTaken, seasonsTaken, entriesTaken, filled]
  cases years with
  | none =>
    refine ⟨words, spelled, ?_⟩
    have noYear := others .year (.inl rfl)
    generalize words.map Word.token = tokens at noYear
    unfold readYears
    split
    case h_4 => rfl
    all_goals cases noYear
  | some range =>
    obtain ⟨yearsWords, yearsSpelled, yearsRead⟩ := written_years (printable range rfl)
    have taken := (yearsRead _ ⟨others .plus (.inr (.inl rfl)), others .dash (.inr (.inr rfl))⟩).2
    rw [← List.map_append] at taken
    refine ⟨yearsWords ++ words, ?_, taken⟩
    simpa [limitsText] using yearsSpelled.spaced spelled

end OpeningTimes
