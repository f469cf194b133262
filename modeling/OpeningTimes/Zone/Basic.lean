import OpeningTimes.Calendar.LocalTime

/-! Time zones as tables of the offsets that clocks take over time. -/

namespace OpeningTimes

/-- How far the clocks of a zone are ahead of universal time. -/
structure ZoneOffset where
  /-- The number of seconds ahead, negative for clocks that are behind. -/
  seconds : Int
  /-- The abbreviation that stands for the offset, if the zone gives one. -/
  abbreviation : Option (List Char)
  deriving DecidableEq

/-- An offset as its abbreviation, or else in hours and minutes such as `+01:00`. -/
def ZoneOffset.text (offset : ZoneOffset) : List Char :=
  match offset.abbreviation with
  | some abbreviation => abbreviation
  | none =>
    let size := offset.seconds.natAbs
    -- Seconds are written only where there are some.
    (if offset.seconds < 0 then ['-'] else ['+']) ++ padded 2 (size / 3600) ++ [':'] ++
      padded 2 (size / 60 % 60) ++ if size % 60 = 0 then [] else ':' :: padded 2 (size % 60)

/-- A change of the clocks of a zone. -/
structure Transition where
  /-- The number of seconds from the beginning of 1970 to the change. -/
  timestamp : Int
  /-- The offset from then on. -/
  offset : ZoneOffset
  deriving DecidableEq

/-- A time zone with its name, its first offset and the changes of its clocks. -/
structure Zone where
  /-- The name of the zone. -/
  name : List Char
  /-- The offset in front of all changes. -/
  base : ZoneOffset
  /-- The changes, of which a later one in the list takes precedence. -/
  transitions : List Transition
  deriving DecidableEq

namespace Zone

/-- The offset of a zone at a timestamp is the one of the last transition in the list that has taken place. -/
def offsetAt (zone : Zone) (timestamp : Int) : ZoneOffset :=
  zone.transitions.foldl (fun current transition =>
    if transition.timestamp ≤ timestamp then transition.offset else current) zone.base

/-- The offsets that a zone ever takes. -/
def offsets (zone : Zone) : List ZoneOffset :=
  zone.base :: zone.transitions.map Transition.offset

/-- The offsets at which the clocks of a zone show a local time, given in seconds like a timestamp. -/
def offsetsShowing (zone : Zone) (reading : Int) : List Int :=
  -- An offset fits if it is the one in force at the instant that it leads to.
  (zone.offsets.map ZoneOffset.seconds).filter fun seconds =>
    (zone.offsetAt (reading - seconds)).seconds = seconds

end Zone

/-- An instant in universal time, with the zone whose clocks it is shown on. -/
structure Instant where
  /-- The reading of a clock on universal time. -/
  universal : LocalTime
  /-- The zone of the instant. -/
  zone : Zone
  deriving DecidableEq

namespace Instant

/-- The offset of an instant in its own zone. -/
def offset (instant : Instant) : ZoneOffset :=
  instant.zone.offsetAt instant.universal.timestamp

/-- What the clocks of some zone show at an instant, if the date is supported. -/
def readingIn? (instant : Instant) (zone : Zone) : Option LocalTime :=
  instant.universal.shift? (zone.offsetAt instant.universal.timestamp).seconds

/-- The instant after some seconds have passed, if its date is supported. -/
def addSeconds? (instant : Instant) (seconds : Int) : Option Instant :=
  (instant.universal.addSeconds? seconds).map fun universal => { instant with universal }

end Instant

end OpeningTimes
