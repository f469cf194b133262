/-! Texts between double quotes. -/

namespace OpeningTimes

/-- A character as it stands between quotes, where signs that would be misread are escaped. -/
def quotedChar (c : Char) : List Char :=
  match c with
  | '"' => ['\\', '"']
  | '\\' => ['\\', '\\']
  | '\n' => ['\\', 'n']
  | '\t' => ['\\', 't']
  | '\r' => ['\\', 'r']
  | '\x00' => ['\\', '0']
  | _ =>
    -- The other control characters of ASCII are given by their numbers.
    if c.toNat < 32 || c.toNat == 127 then "\\u\x7b".toList ++ Nat.toDigits 16 c.toNat ++ ['\x7d']
    else [c]

/-- A text between quotes. -/
def quoted (text : List Char) : List Char :=
  ['"'] ++ text.flatMap quotedChar ++ ['"']

end OpeningTimes
