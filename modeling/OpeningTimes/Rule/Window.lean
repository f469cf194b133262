/-! Windows of a recurring period, which may run past its end and go on at its beginning. -/

namespace OpeningTimes

/-- A window from a first point of a recurring period to a last one, both included. -/
structure Window (Point : Type) where
  /-- The point at which the window begins. -/
  first : Point
  /-- The point at which the window ends. -/
  last : Point
  deriving DecidableEq

namespace Window

variable {Point : Type} [LE Point] [LT Point] [DecidableLE Point] [DecidableLT Point]

/-- A window runs past the end of the period when its last point precedes its first one. -/
def wraps (window : Window Point) : Bool :=
  window.last < window.first

/-- The points of a window that wraps are those outside the stretch between its ends. -/
def contains (window : Window Point) (point : Point) : Bool :=
  if window.wraps then window.first ≤ point || point ≤ window.last
  else window.first ≤ point && point ≤ window.last

/-- A window has the points between its ends or, when it wraps, the points outside of the stretch between them. -/
theorem contains_iff {window : Window Point} {point : Point} :
    window.contains point = true ↔
      if window.wraps then window.first ≤ point ∨ point ≤ window.last
      else window.first ≤ point ∧ point ≤ window.last := by
  unfold contains
  split <;> simp

end Window

end OpeningTimes
