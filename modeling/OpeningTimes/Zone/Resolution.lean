import OpeningTimes.Log

/-! Local times turned into instants of a zone. -/

namespace OpeningTimes

/-- The instants at which the clocks of a zone show a local time. -/
inductive Readings where
  /-- Clocks skip the local time. -/
  | none
  /-- Clocks show the local time once. -/
  | once (instant : Instant)
  /-- Clocks show the local time several times, of which these are the first and the last. -/
  | repeated (first last : Instant)

namespace Zone

/-- The instant at which a local time is shown under an offset, if its date is supported. -/
def instantUnder? (zone : Zone) (time : LocalTime) (offset : Int) : Option Instant :=
  (time.shift? (-offset)).map fun universal => ⟨universal, zone⟩

/-- The instants at which the clocks of a zone show a local time. -/
def readings (zone : Zone) (time : LocalTime) : Readings :=
  let fitting := zone.offsetsShowing time.timestamp
  -- The further the clocks are ahead, the earlier the instant.
  match fitting.max?, fitting.min? with
  | some ahead, some behind =>
    match zone.instantUnder? time ahead, zone.instantUnder? time behind with
    | some first, some last => if ahead = behind then .once first else .repeated first last
    | _, _ => .none
  | _, _ => .none

/-- The first instant at which the clocks of a zone show a local time. -/
def earliest? (zone : Zone) (time : LocalTime) : Option Instant :=
  match zone.readings time with
  | .none => none
  | .once instant => some instant
  | .repeated first _ => some first

/--
The first instant behind a gap in the local time, looked for minute by minute from `current` on.

When it is not found within `minutes` steps the local time `start` counts as universal time, and there is no
instant at all where the steps leave the supported dates.
-/
def behindGap (zone : Zone) (start : LocalTime) : Nat → LocalTime → Logged (Option Instant)
  | 0, _ => ⟨some ⟨start, zone⟩, []⟩
  | minutes + 1, current =>
    match current.addSeconds? 60 with
    | none => ⟨none, []⟩
    | some next =>
      match zone.earliest? next with
      | some instant => ⟨some instant, [.skipped start next]⟩
      | none => behindGap zone start minutes next

/-- The number of minutes within which the end of a gap is looked for, a whole day. -/
def longestGap : Nat := 1440

/-- The instant that a local time stands for: the first one that shows it, or else the one behind the gap. -/
def resolve (zone : Zone) (time : LocalTime) : Logged (Option Instant) :=
  match zone.readings time with
  | .once instant => ⟨some instant, []⟩
  | .repeated first last => ⟨some first, [.ambiguous time first.offset last.offset]⟩
  | .none => zone.behindGap time longestGap time

end Zone

end OpeningTimes
