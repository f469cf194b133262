/-! White space as Unicode counts it, and texts freed of it at both ends. -/

namespace OpeningTimes

/-- The ranges of characters with the Unicode property `White_Space`, as code points. -/
def blankRanges : List (Nat × Nat) :=
  -- The ASCII controls and the space come first, then the spaces beyond ASCII in order.
  [(0x9, 0xD), (0x20, 0x20), (0x85, 0x85), (0xA0, 0xA0), (0x1680, 0x1680), (0x2000, 0x200A),
    (0x2028, 0x2029), (0x202F, 0x202F), (0x205F, 0x205F), (0x3000, 0x3000)]

/-- A character is blank when one of the white space ranges holds it. -/
def isBlank (c : Char) : Bool :=
  blankRanges.any fun (first, last) => first ≤ c.toNat && c.toNat ≤ last

/-- A text is blank when all of its characters are. -/
def isBlankText (text : List Char) : Bool :=
  text.all isBlank

/-- A text without the blanks at its two ends. -/
def trimBlanks (text : List Char) : List Char :=
  -- Reversing turns the closing blanks into leading ones.
  ((text.dropWhile isBlank).reverse.dropWhile isBlank).reverse

end OpeningTimes
