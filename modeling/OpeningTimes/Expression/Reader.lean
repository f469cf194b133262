import OpeningTimes.Expression.Basic
import OpeningTimes.Expression.Reading
import OpeningTimes.Expression.Scan

/-! Expressions read from their tokens, each part taking the tokens it needs and leaving the others. -/

namespace OpeningTimes

/-- A part that reads tokens and leaves the ones behind it. -/
abbrev Reader (Value : Type) := List Token → Reading (Value × List Token)

/-- The token that comes next, which is the closing one when no other is left. -/
def nextToken (stop : Token) (tokens : List Token) : Token :=
  tokens.headD stop

/-- The next token exists and is of a given kind. -/
def startsWith (kind : TokenKind) (tokens : List Token) : Bool :=
  tokens.head?.any (·.kind = kind)

/-- Read items after commas, as long as the tokens behind the comma can start one. -/
def readMore {Item : Type} (item : Reader Item) (starts : List Token → Bool) :
    Nat → Reader (List Item)
  | limit + 1, comma@⟨.comma, _, _⟩ :: rest =>
    -- A comma in front of anything else belongs to a part further out.
    if starts rest then do
      let (first, rest) ← item rest
      let (others, rest) ← readMore item starts limit rest
      return (first :: others, rest)
    else return ([], comma :: rest)
  | _, tokens => return ([], tokens)

/-- Read one item and all others that follow it after commas. -/
def readList {Item : Type} (item : Reader Item) (starts : List Token → Bool) : Reader (List Item) :=
  fun tokens => do
    let (first, rest) ← item tokens
    -- Every further item takes a comma at least, so there are no more of them than tokens.
    let (others, rest) ← readMore item starts rest.length rest
    return (first :: others, rest)

namespace Token

/-- The year that a token names. -/
def readYear (token : Token) : Reading UInt16 :=
  match readDecimal? token.text with
  | some year => if year < 65536 then return .ofNat year else .fail (.tooLarge token.text .year)
  | none => .fail (.tooLarge token.text .year)

/-- The month that a token abbreviates. -/
def readMonth (token : Token) : Reading Month :=
  match Month.ofAbbreviation? token.text with
  | some month => return month
  | none => .refuse .month token

/-- The day of a month that a token numbers, where a number that no month has gives way to the nearest day. -/
def readDayOf (month : Month) (token : Token) : Reading AnnualDay := do
  match readByte? token.text with
  | none => .refuse .dayNumber token
  | some number =>
    let kept := if number = 0 then 1 else min number 31
    if kept ≠ number then Reading.warn ⟨month, number⟩
    match AnnualDay.of? month kept with
    | some annual => return annual
    | none => .fail (.tooLarge (month.abbreviation ++ [' '] ++ padded 2 kept) .dayOfYear)

/-- The day that a token stands for. -/
def readDay (token : Token) : Reading NamedDay :=
  if sameLetters token.text HolidayRule.code then return .holiday
  else
    match Weekday.ofCode? token.text with
    | some day => return .weekday day
    | none => .refuse .dayCode token

/-- The time that a token gives. -/
def readTime (token : Token) : Reading DayTime :=
  -- The colon divides the hours from the minutes.
  match token.text.span (· ≠ ':') with
  | (hour, _ :: minute) =>
    match readByte? hour, readByte? minute with
    | some hour, some minute =>
      match DayTime.ofHourMinute? hour minute with
      | some time => return time
      | none => .fail (.tooLarge token.text .timeOfDay)
    | _, _ => .refuse .time token
  | (_, []) => .refuse .time token

end Token

/-- Read a range of years where one starts. -/
def readYears : Reader (Option Years)
  | first@⟨.year, _, _⟩ :: ⟨.plus, _, _⟩ :: rest => do
    return (some ⟨← first.readYear, none⟩, rest)
  | first@⟨.year, _, _⟩ :: ⟨.dash, _, _⟩ :: last@⟨.year, _, _⟩ :: rest => do
    let firstYear ← first.readYear
    let lastYear ← last.readYear
    if lastYear < firstYear then .refuse .laterYear last
    else return (some ⟨firstYear, some lastYear⟩, rest)
  | year@⟨.year, _, _⟩ :: rest => do
    return (some (.only (← year.readYear)), rest)
  | tokens => return (none, tokens)

/-- Read a day of a month or a range between two such days. -/
def readDayRange (stop : Token) (month : Month) (number : Token) : Reader Season
  | ⟨.dash, _, _⟩ :: name@⟨.month, _, _⟩ :: rest => do
    let first ← number.readDayOf month
    let lastMonth ← name.readMonth
    match rest with
    | lastNumber@⟨.number, _, _⟩ :: rest => return (⟨first, ← lastNumber.readDayOf lastMonth⟩, rest)
    | _ => .refuse .dayNumber (nextToken stop rest)
  | rest => do
    let day ← number.readDayOf month
    return (⟨day, day⟩, rest)

/-- Read a season, which is made of days or of whole months. -/
def readSeason (stop : Token) : Reader Season
  | [] => .refuse .month stop
  | name :: rest => do
    let month ← name.readMonth
    match rest with
    | number@⟨.number, _, _⟩ :: rest => readDayRange stop month number rest
    | ⟨.dash, _, _⟩ :: ⟨.month, _, _⟩ :: ⟨.number, _, _⟩ :: _ =>
      -- A range of months does not end at a day.
      return (.ofMonths month month, rest)
    | ⟨.dash, _, _⟩ :: last@⟨.month, _, _⟩ :: rest => return (.ofMonths month (← last.readMonth), rest)
    | _ => return (.ofMonths month month, rest)

/-- Read the seasons of an expression where they start. -/
def readSeasons (stop : Token) : Reader (List Season) := fun tokens =>
  if startsWith .month tokens then readList (readSeason stop) (startsWith .month) tokens
  else return ([], tokens)

/-- Read a single day. -/
def readNamedDay (stop : Token) : Reader NamedDay
  | token@⟨.day, _, _⟩ :: rest => do
    return (← token.readDay, rest)
  | tokens => .refuse .day (nextToken stop tokens)

/-- A list of days goes on with a day that is not the beginning of a range. -/
def startsSingleDay (tokens : List Token) : Bool :=
  startsWith .day tokens && !startsWith .dash tokens.tail

/-- Read a range of weekdays or a list of days. -/
def readDays (stop : Token) : Reader (List NamedDay)
  | token :: ⟨.dash, _, _⟩ :: rest => do
    let first ← token.readDay
    match rest with
    | last@⟨.day, _, _⟩ :: rest =>
      match first, ← last.readDay with
      | .weekday first, .weekday last => return ((first.through last).map .weekday, rest)
      | _, _ => .refuse .weekdayRange last
    | _ => .refuse .day (nextToken stop rest)
  | tokens => readList (readNamedDay stop) startsSingleDay tokens

/-- Read the hours between two times. -/
def readHours (stop : Token) : Reader Hours
  | start@⟨.time, _, _⟩ :: rest => do
    let first ← start.readTime
    match rest with
    | ⟨.dash, _, _⟩ :: last@⟨.time, _, _⟩ :: rest => return (⟨first, ← last.readTime⟩, rest)
    | ⟨.dash, _, _⟩ :: rest => .refuse .time (nextToken stop rest)
    | _ => .refuse .dash (nextToken stop rest)
  | tokens => .refuse .time (nextToken stop tokens)

/-- Read a clause where one starts. -/
def readClause (stop : Token) : Reader (Option Clause)
  | ⟨.off, _, _⟩ :: rest => return (some .off, rest)
  | tokens@(⟨.time, _, _⟩ :: _) => do
    let (list, rest) ← readList (readHours stop) (startsWith .time) tokens
    return (some (.hours list), rest)
  | tokens => return (none, tokens)

/-- An entry starts with a day, a clause or the sign for all hours. -/
def startsEntry (tokens : List Token) : Bool :=
  startsWith .day tokens || startsWith .always tokens || startsWith .time tokens || startsWith .off tokens

/-- Read an entry. -/
def readEntry (stop : Token) : Reader Entry
  | ⟨.always, _, _⟩ :: rest => do
    -- All hours leave nothing for a clause to add, so it has no effect.
    let (_, rest) ← readClause stop rest
    return (.always, rest)
  | tokens@(⟨.day, _, _⟩ :: _) => do
    let (days, rest) ← readDays stop tokens
    let (clause, rest) ← readClause stop rest
    return (.days days clause, rest)
  | tokens => do
    match ← readClause stop tokens with
    | (some clause, rest) => return (.clause clause, rest)
    | (none, rest) => .refuse .selector (nextToken stop rest)

/-- Read the entries of an expression where they start. -/
def readEntries (stop : Token) : Reader (List Entry) := fun tokens =>
  if startsEntry tokens then readList (readEntry stop) startsEntry tokens
  else return ([], tokens)

/-- Read the whole of a run as one expression. -/
def TokenRun.readExpression (run : TokenRun) : Reading Expression := do
  let (years, rest) ← readYears run.tokens
  let (seasons, rest) ← readSeasons run.stop rest
  let (entries, rest) ← readEntries run.stop rest
  -- At least one of the parts must be there, and nothing else may follow them.
  if years.isNone && seasons.isEmpty && entries.isEmpty then
    .refuse .selector (nextToken run.stop rest)
  else
    match rest with
    | [] => return ⟨years, seasons, entries⟩
    | extra :: _ => .refuse .ending extra

/-- Read each run as an expression, in order. -/
def readExpressions : List TokenRun → Reading (List Expression)
  | [] => return []
  | run :: rest => do
    let first ← run.readExpression
    let others ← readExpressions rest
    return first :: others

end OpeningTimes
