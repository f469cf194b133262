import OpeningTimes.Proofs.Expression.Grammar
import OpeningTimes.Proofs.Expression.MaximalMunch
import OpeningTimes.Proofs.Expression.NearestDay
import OpeningTimes.Proofs.Expression.Words
import OpeningTimes.Proofs.Text.Decimal

/-!
The tokens that a text is cut into have the shape of their kinds.

So only the names of months and days and the bounds of times are left to be checked.
-/

namespace OpeningTimes

/-- The characters of a token match the pattern of its kind, one for each test. -/
structure Token.Formed (token : Token) : Prop where
  /-- Each test accepts its character. -/
  fits : beginsWith token.kind.pattern token.text = true
  /-- There is no further character. -/
  length : token.text.length = token.kind.width

/-- The longest token in front of a text has the shape of its kind. -/
theorem TokenKind.Longest.formed {kind : TokenKind} {text rest : List Char}
    (longest : kind.Longest (text ++ rest)) (whole : text.length = kind.width) (position : Nat) :
    Token.Formed ⟨kind, text, position⟩ := by
  refine ⟨?_, whole⟩
  -- What follows a token in the text does not matter to its own characters.
  rw [← beginsWith_append_of_length_le (Nat.le_of_eq whole.symm) rest]
  exact longest.begins.2

/-- A token has some characters, unless it is the end. -/
theorem Token.Formed.text_ne_nil {token : Token} (formed : token.Formed)
    (shown : token.kind ≠ .finish) : token.text ≠ [] := by
  intro empty
  have filled := TokenKind.width_pos shown
  rw [← formed.length, empty] at filled
  exact Nat.lt_irrefl 0 filled

/-- A token of a kind has that kind, whatever its text and place are. -/
theorem Token.exists_of_kind {token : Token} {kind : TokenKind} (isKind : token.kind = kind) :
    ∃ text position, token = ⟨kind, text, position⟩ := by
  subst isKind
  exact ⟨token.text, token.position, rfl⟩

namespace TokenRun

/-- The tokens of a text have the shape of their kinds, and the closing token ends them. -/
theorem formed_of_scan {text : List Char} {run : TokenRun} (scanned : scan text = .ok run) :
    (∀ token ∈ run.tokens, token.Formed) ∧ run.stop.kind = .finish := by
  have munch := scanFrom_eq_ok_iff.mp scanned
  refine ⟨?_, by rw [munch.stop]⟩
  intro token listed
  obtain ⟨front, back, -, -, whole, longest⟩ := munch.stands token listed
  exact longest.formed whole token.position

/-- The expressions of a run are made of its tokens, and a semicolon or the end closes each. -/
theorem tokens_of_mem_expressions {run part : TokenRun} (listed : part ∈ run.expressions) :
    part.tokens ⊆ run.tokens ∧
      (part.stop = run.stop ∨ part.stop.kind = .semicolon ∧ part.stop ∈ run.tokens) := by
  obtain ⟨tokens, stop⟩ := run
  unfold expressions at listed
  dsimp only at *
  -- Each token goes to the first expression behind it, and a semicolon to none.
  induction tokens generalizing part with
  | nil =>
    rw [cut, List.mem_singleton] at listed
    subst listed
    exact ⟨List.nil_subset [], .inl rfl⟩
  | cons first rest ih =>
    -- What stands among the other tokens stands among all of them.
    have onward {token : Token}
        (closing : token = stop ∨ token.kind = .semicolon ∧ token ∈ rest) :
        token = stop ∨ token.kind = .semicolon ∧ token ∈ first :: rest :=
      closing.imp_right (And.imp_right (List.mem_cons_of_mem first))
    by_cases parts : first.kind = .semicolon
    · -- A semicolon closes an empty run in front of the others.
      simp only [cut, parts, if_true] at listed
      rcases List.mem_cons.mp listed with rfl | later
      · exact ⟨List.nil_subset _, .inr ⟨parts, List.mem_cons_self⟩⟩
      · obtain ⟨inside, closing⟩ := ih later
        exact ⟨List.subset_cons_of_subset first inside, onward closing⟩
    · -- Any other token is put in front of the first run.
      simp only [cut, parts, if_false] at listed
      rcases List.mem_cons.mp listed with rfl | later
      · obtain ⟨inside, closing⟩ := ih List.mem_cons_self
        exact ⟨List.cons_subset_cons first inside, onward closing⟩
      · obtain ⟨inside, closing⟩ := ih (List.mem_cons_of_mem _ later)
        exact ⟨List.subset_cons_of_subset first inside, onward closing⟩

end TokenRun

/-- A phrase whose tokens have the shape of their kinds. -/
def OfFormed (phrase : List Token → Prop) (tokens : List Token) : Prop :=
  phrase tokens ∧ ∀ token ∈ tokens, token.Formed

/-- Formed tokens in a row make phrases of formed tokens. -/
theorem Separated.ofFormed {sign : TokenKind} {phrase : List Token → Prop} {tokens : List Token}
    (separated : Separated sign phrase tokens)
    (formed : ∀ token ∈ tokens, token.Formed) : Separated sign (OfFormed phrase) tokens := by
  induction separated with
  | single only => exact .single ⟨only, formed⟩
  | cons first parts _ ih =>
    rw [List.forall_mem_append, List.forall_mem_cons] at formed
    exact .cons ⟨first, formed.1⟩ parts (ih formed.2.2)

/-- A text is made of digits when it passes a test for one digit after the other. -/
theorem all_isDigit_of_beginsWith {text : List Char} {width : Nat}
    (begun : beginsWith (List.replicate width Char.isDigit) text = true)
    (length : text.length = width) : text.all Char.isDigit = true := by
  induction width generalizing text with
  | zero => rw [List.length_eq_zero_iff.mp length, List.all_nil]
  | succ width ih =>
    cases text with
    | nil => cases length
    | cons c rest =>
      simp only [List.replicate_succ, beginsWith, Bool.and_eq_true] at begun
      rw [List.all_cons, begun.1, ih begun.2 (Nat.succ.inj length), Bool.and_self]

namespace Token

variable {token : Token}

/-- The year that is read from a token is the value of its digits. -/
theorem toNat_of_readYear {year : UInt16} (read : token.readYear.value? = some year) :
    year.toNat = digitsValue token.text := by
  unfold readYear at read
  cases number : readDecimal? token.text with
  | none => simp [number] at read
  | some value =>
    by_cases fits : value < 65536
    · simp only [number, if_pos fits, Reading.value?_pure, Option.some.injEq] at read
      -- The number fits into sixteen bits, so it is kept as it is.
      rw [← read, (readDecimal?_eq_some_iff.mp number).2]
      exact Nat.mod_eq_of_lt fits
    · simp [number, fits] at read

/-- A formed token of digits only denotes a number with as many digits. -/
theorem Formed.exists_number (formed : token.Formed) (width : Nat)
    (digits : token.kind.pattern = List.replicate (width + 1) Char.isDigit) :
    ∃ number < Nat.pow 10 (width + 1), readDecimal? token.text = some number := by
  obtain ⟨fits, length⟩ := formed
  rw [TokenKind.width, digits, List.length_replicate] at length
  rw [digits] at fits
  have all := all_isDigit_of_beginsWith fits length
  have filled : token.text ≠ [] := List.ne_nil_of_length_eq_add_one length
  refine ⟨digitsValue token.text, ?_, readDecimal?_eq_some_iff.mpr ⟨⟨filled, all⟩, rfl⟩⟩
  rw [← length]
  exact digitsValue_lt all

/-- Four digits are read as a year. -/
theorem Formed.exists_year (formed : token.Formed) (isYear : token.kind = .year) :
    ∃ year, token.readYear.value? = some year := by
  obtain ⟨number, small, read⟩ := formed.exists_number 3 (by rw [isYear]; rfl)
  refine ⟨.ofNat number, ?_⟩
  have size : Nat.pow 10 (3 + 1) = 10000 := rfl
  unfold readYear
  simp only [read]
  rw [if_pos (by omega), Reading.value?_pure]

/-- Two digits are read as a day of any month. -/
theorem Formed.exists_dayOf (formed : token.Formed) (isNumber : token.kind = .number)
    (month : Month) : ∃ annual, (token.readDayOf month).value? = some annual := by
  obtain ⟨number, small, read⟩ := formed.exists_number 1 (by rw [isNumber]; rfl)
  have size : Nat.pow 10 (1 + 1) = 100 := rfl
  have fits := readByte?_eq_some_iff.mpr ⟨read, by omega⟩
  exact ⟨.nearest month number, by rw [readDayOf_eq fits]; rfl⟩

/-- Some member of a list is found when one has the property in question. -/
theorem exists_find?_iff {Value : Type} {list : List Value} {property : Value → Bool} :
    (∃ value, list.find? property = some value) ↔ ∃ value ∈ list, property value = true := by
  rw [← Option.isSome_iff_exists, List.find?_isSome]

/-- A token abbreviates a month when it is read as one. -/
theorem isMonth_iff : token.IsMonth ↔
    token.kind = .month ∧ ∃ month, token.readMonth.value? = some month := by
  have listed : ∀ month : Month, month ∈ Month.all := by
    intro month
    cases month <;> decide
  have named : (∃ month, Month.ofAbbreviation? token.text = some month) ↔
      ∃ month : Month, sameLetters month.abbreviation token.text = true := by
    simp [Month.ofAbbreviation?, exists_find?_iff, listed]
  unfold IsMonth readMonth
  rw [← named]
  cases Month.ofAbbreviation? token.text <;> simp

/-- A token that is not the code of public holidays is read as the weekday it stands for. -/
theorem exists_ofCode?_iff : (∃ day, Weekday.ofCode? token.text = some day) ↔
    ∃ day : Weekday, sameLetters day.code token.text = true := by
  have listed : ∀ day : Weekday, day ∈ Weekday.all := by
    intro day
    cases day <;> decide
  simp [Weekday.ofCode?, exists_find?_iff, listed]

/-- The two letters for public holidays are the code of no weekday. -/
theorem ofCode?_of_holiday (holiday : sameLetters token.text HolidayRule.code = true) :
    Weekday.ofCode? token.text = none := by
  cases found : Weekday.ofCode? token.text with
  | none => rfl
  | some day =>
    have same := sameLetters_iff.mp
      (List.find?_some (p := fun day : Weekday => sameLetters day.code token.text) found)
    -- None of the seven codes consists of these letters.
    rw [sameLetters_iff.mp holiday] at same
    cases day <;> cases same

/-- A token is the code of a weekday when it is read as one. -/
theorem isWeekday_iff : token.IsWeekday ↔
    token.kind = .day ∧ ∃ day, token.readDay.value? = some (.weekday day) := by
  unfold IsWeekday readDay
  rw [← exists_ofCode?_iff]
  -- The code of holidays is read as them, before weekdays are looked at.
  by_cases holiday : sameLetters token.text HolidayRule.code = true
  · simp [holiday, ofCode?_of_holiday holiday]
  · rw [if_neg holiday]
    cases Weekday.ofCode? token.text <;> simp

/-- A token is the code of some day when it is read as one. -/
theorem isDay_iff : token.IsDay ↔
    token.kind = .day ∧ ∃ day, token.readDay.value? = some day := by
  unfold IsDay IsWeekday readDay
  rw [← exists_ofCode?_iff]
  by_cases holiday : sameLetters token.text HolidayRule.code = true
  · simp [holiday, ofCode?_of_holiday holiday]
  · simp only [holiday]
    cases Weekday.ofCode? token.text <;> simp

end Token

/-- A text is divided at its first colon, or there is none. -/
theorem span_colon_cases (text : List Char) :
    (∃ hour minute, text.span (· ≠ ':') = (hour, ':' :: minute) ∧ text = hour ++ ':' :: minute) ∨
      text.span (· ≠ ':') = (text, []) := by
  rw [List.span_eq_takeWhile_dropWhile]
  induction text with
  | nil => exact .inr rfl
  | cons c rest ih =>
    by_cases colon : c = ':'
    · exact .inl ⟨[], rest, by simp [colon], by rw [colon, List.nil_append]⟩
    · -- Another character comes in front of the colon, if there is any.
      rcases ih with ⟨hour, minute, parts, same⟩ | whole
      · rw [Prod.mk.injEq] at parts
        exact .inl ⟨c :: hour, minute, by simpa [colon] using parts, by rw [same, List.cons_append]⟩
      · rw [Prod.mk.injEq] at whole
        exact .inr (by simpa [colon] using whole)

/-- An hour and a minute make a time when the minute is one of an hour and 24:00 is not passed. -/
theorem exists_ofHourMinute?_iff {hour minute : Nat} :
    (∃ time, DayTime.ofHourMinute? hour minute = some time) ↔
      minute < 60 ∧ 60 * hour + minute ≤ 1440 := by
  unfold DayTime.ofHourMinute? DayTime.ofMinutes?
  by_cases within : minute < 60
  · by_cases last : 60 * hour + minute ≤ 1440 <;> simp [within, last]
  · simp [within]

namespace Token

variable {token : Token}

/-- A token that is read as a time gives hours and minutes, no later than 24:00. -/
theorem isTime_of_readTime {time : DayTime} (isTime : token.kind = .time)
    (read : token.readTime.value? = some time) : token.IsTime := by
  unfold readTime at read
  rcases span_colon_cases token.text with ⟨hour, minute, parts, same⟩ | whole
  · rw [parts] at read
    cases hours : readByte? hour with
    | none => simp [hours] at read
    | some hourValue =>
      cases minutes : readByte? minute with
      | none => simp [hours, minutes] at read
      | some minuteValue =>
        simp only [hours, minutes] at read
        -- Both numbers are known, and only their bounds are left.
        refine ⟨isTime, hour, minute, same, ?_⟩
        rw [digitsValue_of_readByte? hours, digitsValue_of_readByte? minutes,
          ← exists_ofHourMinute?_iff]
        cases found : DayTime.ofHourMinute? hourValue minuteValue with
        | none => simp [found] at read
        | some day => exact ⟨day, rfl⟩
  · rw [whole] at read
    contradiction

/-- A formed token of a time has two digits on both sides of its colon. -/
theorem Formed.exists_digits (formed : token.Formed) (isTime : token.kind = .time) :
    ∃ a b c d : Char, token.text = [a, b, ':', c, d] ∧
      a.isDigit = true ∧ b.isDigit = true ∧ c.isDigit = true ∧ d.isDigit = true := by
  obtain ⟨fits, length⟩ := formed
  rw [isTime] at fits length
  obtain ⟨a, b, colon, c, d, text⟩ : ∃ a b colon c d, token.text = [a, b, colon, c, d] := by
    -- There are as many characters as tests in the pattern.
    rcases text : token.text with _ | ⟨a, _ | ⟨b, _ | ⟨colon, _ | ⟨c, _ | ⟨d, rest⟩⟩⟩⟩⟩ <;>
      simp [text, TokenKind.width, TokenKind.pattern] at length
    exact ⟨a, b, colon, c, d, by rw [length]⟩
  simp only [text, TokenKind.pattern, beginsWith, Bool.and_eq_true, beq_iff_eq, and_true] at fits
  obtain ⟨first, second, rfl, third, fourth⟩ := fits
  exact ⟨a, b, c, d, text, first, second, third, fourth⟩

/-- The digits of a formed token of a time are read as hours and minutes, which may be too large. -/
theorem Formed.exists_readTime_eq (formed : token.Formed) (isTime : token.kind = .time) :
    ∃ hour minute, token.text = hour ++ ':' :: minute ∧
      hour.all Char.isDigit = true ∧ minute.all Char.isDigit = true ∧
        token.readTime = match DayTime.ofHourMinute? (digitsValue hour) (digitsValue minute) with
          | some time => return time
          | none => .fail (.tooLarge token.text .timeOfDay) := by
  obtain ⟨a, b, c, d, text, first, second, third, fourth⟩ := formed.exists_digits isTime
  have hour : [a, b].all Char.isDigit = true := by simp [first, second]
  have minute : [c, d].all Char.isDigit = true := by simp [third, fourth]
  have hourRead := readByte?_of_two_digits rfl hour
  have minuteRead := readByte?_of_two_digits rfl minute
  have noColon {e : Char} (digit : e.isDigit = true) : e ≠ ':' := by
    rintro rfl
    contradiction
  -- A digit is no colon, so the text is divided where the pattern has its colon.
  have parts : token.text.span (· ≠ ':') = ([a, b], ':' :: [c, d]) := by
    rw [List.span_eq_takeWhile_dropWhile, text]
    simp [noColon first, noColon second]
  refine ⟨[a, b], [c, d], text, hour, minute, ?_⟩
  unfold readTime
  rw [parts]
  cases found : DayTime.ofHourMinute? (digitsValue [a, b]) (digitsValue [c, d]) <;>
    simp only [hourRead, minuteRead, found]

end Token

/-- Two texts without colons are told apart by a colon between them. -/
theorem append_colon_inj {left right otherLeft otherRight : List Char}
    (leftDigits : left.all Char.isDigit = true) (rightDigits : right.all Char.isDigit = true)
    (same : left ++ ':' :: right = otherLeft ++ ':' :: otherRight) :
    left = otherLeft ∧ right = otherRight := by
  have noColon {text : List Char} (digits : text.all Char.isDigit = true) : ':' ∉ text := by
    intro listed
    have digit := List.all_eq_true.mp digits ':' listed
    contradiction
  rcases List.append_eq_append_iff.mp same with ⟨gap, rfl, behind⟩ | ⟨gap, rfl, behind⟩
  · cases gap with
    | nil =>
      rw [List.append_nil]
      exact ⟨rfl, (List.cons.inj behind).2⟩
    | cons c gap =>
      -- The other colon would stand on the right.
      obtain ⟨-, inside⟩ := List.cons.inj behind
      exact absurd (inside ▸ List.mem_append_right gap List.mem_cons_self) (noColon rightDigits)
  · cases gap with
    | nil =>
      rw [List.append_nil]
      exact ⟨rfl, (List.cons.inj behind).2.symm⟩
    | cons c gap =>
      -- The other colon would stand on the left.
      obtain ⟨rfl, -⟩ := List.cons.inj behind
      exact absurd (List.mem_append_right _ List.mem_cons_self) (noColon leftDigits)

/-- A formed token of a time is read as one. -/
theorem Token.Formed.exists_time {token : Token} (formed : token.Formed) (isTime : token.IsTime) :
    ∃ time, token.readTime.value? = some time := by
  obtain ⟨kind, hour, minute, text, bounds⟩ := isTime
  obtain ⟨first, second, parts, firstDigits, secondDigits, read⟩ := formed.exists_readTime_eq kind
  -- The hours and minutes within bounds are those that are read.
  obtain ⟨rfl, rfl⟩ := append_colon_inj firstDigits secondDigits (parts.symm.trans text)
  obtain ⟨time, found⟩ := exists_ofHourMinute?_iff.mpr bounds
  refine ⟨time, ?_⟩
  rw [read, found, Reading.value?_pure]

end OpeningTimes
