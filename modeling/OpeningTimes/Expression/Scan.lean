import OpeningTimes.Expression.Fault

/-! Texts cut into tokens. -/

namespace OpeningTimes

/-- Tokens in a row and the token that ends them. -/
structure TokenRun where
  /-- The tokens in front of the end. -/
  tokens : List Token
  /-- The token at the end, which belongs to no part of the row. -/
  stop : Token
  deriving DecidableEq

namespace TokenRun

/-- All tokens of a run, the end included. -/
def toList (run : TokenRun) : List Token :=
  run.tokens ++ [run.stop]

/-- Blanks and colons between tokens are passed over. -/
def isSkipped (c : Char) : Bool :=
  c == ' ' || c == '\t' || c == '\r' || c == '\n' || c == ':'

/--
Cut a text into tokens, given the bytes in front of it and the characters at its beginning that belong to a
token already found.
-/
def scanFrom (position inside : Nat) : List Char → Except Fault TokenRun
  | [] => .ok ⟨[], ⟨.finish, [], position⟩⟩
  | c :: rest =>
    let next := position + c.utf8Size
    match inside with
    | inside + 1 => scanFrom next inside rest
    | 0 =>
      if isSkipped c then scanFrom next 0 rest
      else
        -- The characters of a token behind its first one are passed over in the following steps.
        match TokenKind.leading? (c :: rest) with
        | none => .error (.character position c)
        | some kind =>
          match scanFrom next (kind.width - 1) rest with
          | .error fault => .error fault
          | .ok run => .ok { run with tokens := ⟨kind, (c :: rest).take kind.width, position⟩ :: run.tokens }

/-- Cut a text into tokens, up to the end of the text. -/
def scan (text : List Char) : Except Fault TokenRun :=
  scanFrom 0 0 text

/-- Cut tokens at their semicolons into a first run and the other ones, where `stop` closes the last. -/
def cut (stop : Token) : List Token → TokenRun × List TokenRun
  | [] => (⟨[], stop⟩, [])
  | token :: rest =>
    -- A semicolon closes the run in front of it, any other token belongs to the run of its successors.
    let (first, others) := cut stop rest
    if token.kind = .semicolon then (⟨[], token⟩, first :: others)
    else ({ first with tokens := token :: first.tokens }, others)

/-- The expressions of a run, each closed by a semicolon but the last one. -/
def expressions (run : TokenRun) : List TokenRun :=
  (cut run.stop run.tokens).1 :: (cut run.stop run.tokens).2

end TokenRun

end OpeningTimes
