/-! The words and signs of opening hours expressions. -/

namespace OpeningTimes

/-- What a token of an expression is. -/
inductive TokenKind where
  /-- Four digits. -/
  | year
  /-- Two digits, the number of a day. -/
  | number
  /-- Hours and minutes, two digits each. -/
  | time
  /-- The sign for all hours of all days. -/
  | always
  /-- The word that closes. -/
  | off
  /-- Three letters. -/
  | month
  /-- Two letters. -/
  | day
  /-- The sign for years without an end. -/
  | plus
  /-- The sign between the ends of a range. -/
  | dash
  /-- The sign between expressions. -/
  | semicolon
  /-- The sign between the parts of a list. -/
  | comma
  /-- The end of the text. -/
  | finish
  deriving DecidableEq

/-- A text begins with one character for each of some tests, in order. -/
def beginsWith : List (Char → Bool) → List Char → Bool
  | [], _ => true
  | _ :: _, [] => false
  | test :: tests, c :: rest => test c && beginsWith tests rest

namespace TokenKind

/-- The characters of a token of some kind, one test for each. -/
def pattern : TokenKind → List (Char → Bool)
  | year => [Char.isDigit, Char.isDigit, Char.isDigit, Char.isDigit]
  | number => [Char.isDigit, Char.isDigit]
  | time => [Char.isDigit, Char.isDigit, (· == ':'), Char.isDigit, Char.isDigit]
  | always => [(· == '2'), (· == '4'), (· == '/'), (· == '7')]
  | off => [(·.toLower == 'o'), (·.toLower == 'f'), (·.toLower == 'f')]
  | month => [Char.isAlpha, Char.isAlpha, Char.isAlpha]
  | day => [Char.isAlpha, Char.isAlpha]
  | plus => [(· == '+')]
  | dash => [(· == '-')]
  | semicolon => [(· == ';')]
  | comma => [(· == ',')]
  | finish => []

/-- Each kind has tokens of one length only. -/
def width (kind : TokenKind) : Nat :=
  kind.pattern.length

/-- The kinds in order of precedence, so that a longer token is found before a shorter one inside it. -/
def precedence : List TokenKind :=
  -- A time starts with two digits, and the word that closes is also three letters.
  [time, always, year, number, off, month, day, plus, dash, semicolon, comma]

/-- The kind of the token that a text begins with, if any. -/
def leading? (text : List Char) : Option TokenKind :=
  precedence.find? fun kind => beginsWith kind.pattern text

end TokenKind

/-- A token of an expression with its place in the text. -/
structure Token where
  /-- What the token is. -/
  kind : TokenKind
  /-- The characters of the token, none at the end of the text. -/
  text : List Char
  /-- The number of bytes in front of the token. -/
  position : Nat
  deriving DecidableEq

/-- A token as a message names it. -/
def Token.display (token : Token) : String :=
  if token.kind = .finish then "end of input" else "`" ++ String.ofList token.text ++ "`"

end OpeningTimes
