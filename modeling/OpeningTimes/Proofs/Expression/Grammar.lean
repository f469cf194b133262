import OpeningTimes.Calendar.Month
import OpeningTimes.Expression.Token
import OpeningTimes.Rule.Text
import OpeningTimes.Text.Letters

/-!
The grammar of opening hours expressions, as phrases made of tokens.

It says which tokens may follow each other, and nothing about how they are read.
-/

namespace OpeningTimes

namespace Token

/-- A token abbreviates a month. -/
def IsMonth (token : Token) : Prop :=
  token.kind = .month ∧ ∃ month : Month, sameLetters month.abbreviation token.text = true

/-- A token is the code of a weekday. -/
def IsWeekday (token : Token) : Prop :=
  token.kind = .day ∧ ∃ day : Weekday, sameLetters day.code token.text = true

/-- A token is the code of a weekday or of public holidays. -/
def IsDay (token : Token) : Prop :=
  token.IsWeekday ∨ (token.kind = .day ∧ sameLetters token.text HolidayRule.code = true)

/-- A token gives hours and minutes, no later than 24:00. -/
def IsTime (token : Token) : Prop :=
  token.kind = .time ∧ ∃ hour minute, token.text = hour ++ ':' :: minute ∧
    digitsValue minute < 60 ∧ 60 * digitsValue hour + digitsValue minute ≤ 1440

end Token

/-- A phrase may be absent. -/
def Optional (phrase : List Token → Prop) (tokens : List Token) : Prop :=
  tokens = [] ∨ phrase tokens

/-- At least one phrase, with a sign of the given kind between any two neighbours. -/
inductive Separated (sign : TokenKind) (phrase : List Token → Prop) : List Token → Prop where
  /-- There is one phrase only. -/
  | single {tokens : List Token} (only : phrase tokens) : Separated sign phrase tokens
  /-- A phrase and a sign stand in front of the other phrases. -/
  | cons {front rest : List Token} {parting : Token} (first : phrase front)
    (parts : parting.kind = sign) (others : Separated sign phrase rest) :
    Separated sign phrase (front ++ parting :: rest)

/-- The years of an expression. -/
inductive YearsPhrase : List Token → Prop where
  /-- A year alone. -/
  | only {year : Token} (isYear : year.kind = .year) : YearsPhrase [year]
  /-- A year and all later ones. -/
  | onward {year plus : Token} (isYear : year.kind = .year) (isPlus : plus.kind = .plus) :
    YearsPhrase [year, plus]
  /-- A range of years, which do not decrease. -/
  | range {first dash last : Token} (isFirst : first.kind = .year) (isDash : dash.kind = .dash)
    (isLast : last.kind = .year) (ordered : digitsValue first.text ≤ digitsValue last.text) :
    YearsPhrase [first, dash, last]

/-- One season of an expression. -/
inductive SeasonPhrase : List Token → Prop where
  /-- A month. -/
  | month {month : Token} (isMonth : month.IsMonth) : SeasonPhrase [month]
  /-- A day of a month. -/
  | day {month number : Token} (isMonth : month.IsMonth) (isNumber : number.kind = .number) :
    SeasonPhrase [month, number]
  /-- A range between two days. -/
  | days {month number dash lastMonth lastNumber : Token} (isMonth : month.IsMonth)
    (isNumber : number.kind = .number) (isDash : dash.kind = .dash)
    (isLastMonth : lastMonth.IsMonth) (isLastNumber : lastNumber.kind = .number) :
    SeasonPhrase [month, number, dash, lastMonth, lastNumber]
  /-- A range between two months. -/
  | months {month dash lastMonth : Token} (isMonth : month.IsMonth) (isDash : dash.kind = .dash)
    (isLastMonth : lastMonth.IsMonth) : SeasonPhrase [month, dash, lastMonth]

/-- The hours between two times. -/
inductive HoursPhrase : List Token → Prop where
  /-- Both times with a dash between them. -/
  | between {first dash last : Token} (isFirst : first.IsTime) (isDash : dash.kind = .dash)
    (isLast : last.IsTime) : HoursPhrase [first, dash, last]

/-- What is said about some days. -/
inductive ClausePhrase : List Token → Prop where
  /-- The days are closed. -/
  | off {off : Token} (isOff : off.kind = .off) : ClausePhrase [off]
  /-- The days have these hours. -/
  | hours {tokens : List Token} (list : Separated .comma HoursPhrase tokens) : ClausePhrase tokens

/-- A single day. -/
inductive DayPhrase : List Token → Prop where
  /-- The code of the day. -/
  | single {day : Token} (isDay : day.IsDay) : DayPhrase [day]

/-- The days of an entry. -/
inductive DaysPhrase : List Token → Prop where
  /-- A range, which extends between weekdays only. -/
  | range {first dash last : Token} (isFirst : first.IsWeekday) (isDash : dash.kind = .dash)
    (isLast : last.IsWeekday) : DaysPhrase [first, dash, last]
  /-- One day or more. -/
  | list {tokens : List Token} (days : Separated .comma DayPhrase tokens) : DaysPhrase tokens

/-- One entry of an expression. -/
inductive EntryPhrase : List Token → Prop where
  /-- Days, with or without a clause. -/
  | days {days clause : List Token} (isDays : DaysPhrase days)
    (isClause : Optional ClausePhrase clause) : EntryPhrase (days ++ clause)
  /-- The sign for all hours, with or without a clause. -/
  | always {always : Token} {clause : List Token} (isAlways : always.kind = .always)
    (isClause : Optional ClausePhrase clause) : EntryPhrase (always :: clause)
  /-- A clause alone. -/
  | clause {clause : List Token} (isClause : ClausePhrase clause) : EntryPhrase clause

/-- One expression, of whose three parts at least one is there. -/
structure ExpressionPhrase (tokens : List Token) : Prop where
  /-- Some of the parts may be absent, and the others follow each other. -/
  parts : ∃ years seasons entries, tokens = years ++ seasons ++ entries ∧
    Optional YearsPhrase years ∧ Optional (Separated .comma SeasonPhrase) seasons ∧
      Optional (Separated .comma EntryPhrase) entries
  /-- Not all of them are absent. -/
  present : tokens ≠ []

/-- All expressions up to the end of the text. -/
inductive SchedulePhrase : List Token → Prop where
  /-- Semicolons part the expressions, and the closing token follows. -/
  | ended {tokens : List Token} {stop : Token}
    (expressions : Separated .semicolon ExpressionPhrase tokens) (isStop : stop.kind = .finish) :
    SchedulePhrase (tokens ++ [stop])

end OpeningTimes
