/-! Comparing texts without regard to the case of ASCII letters. -/

namespace OpeningTimes

/-- Two texts agree up to the case of ASCII letters. -/
def sameLetters (left right : List Char) : Bool :=
  -- Lowering a character changes the ASCII capitals only, so other letters must match exactly.
  left.map Char.toLower == right.map Char.toLower

end OpeningTimes
