import OpeningTimes.Zone.Basic

/-! Time zones known by name, with the changes of their clocks in the years of this century. -/

namespace OpeningTimes

namespace Zone

/-- The timestamp of a time of day, in seconds, on the first Sunday that is not before a date. -/
def sundayTimestamp (year : Int) (month : Month) (day : Nat) (seconds : Int) : Int :=
  -- Sunday is the seventh day of the week that starts at a multiple of seven.
  let leap := isLeapYear year
  let number := daysBeforeYear year + month.daysBefore leap + day - 1
  secondsPerDay * (number + (6 - number) % 7) + seconds - LocalTime.epoch.seconds

/-- The years whose changes of clocks are listed. -/
def listedYears : List Int :=
  (List.range 93).map fun (year : Nat) => 2008 + (year : Int)

/-- The zone whose clocks never change. -/
def fixed (name : String) (seconds : Int) (abbreviation : String) : Zone :=
  ⟨name.toList, ⟨seconds, some abbreviation.toList⟩, []⟩

/-- The changes of two kinds that come back every year. -/
def yearly (first second : Int → Transition) : List Transition :=
  listedYears.flatMap fun year => [first year, second year]

/-- Clocks of western Europe go forward on the last Sunday of March and back on that of October. -/
def london (name : String) : Zone :=
  let standard : ZoneOffset := ⟨0, some "GMT".toList⟩
  let summer : ZoneOffset := ⟨3600, some "BST".toList⟩
  ⟨name.toList, standard, yearly
    (fun year => ⟨sundayTimestamp year .march 25 3600, summer⟩)
    (fun year => ⟨sundayTimestamp year .october 25 3600, standard⟩)⟩

/-- Clocks of eastern America go forward on the second Sunday of March and back on the first of November. -/
def newYork (name : String) : Zone :=
  let standard : ZoneOffset := ⟨-18000, some "EST".toList⟩
  let summer : ZoneOffset := ⟨-14400, some "EDT".toList⟩
  ⟨name.toList, standard, yearly
    (fun year => ⟨sundayTimestamp year .march 8 25200, summer⟩)
    (fun year => ⟨sundayTimestamp year .november 1 21600, standard⟩)⟩

/-- Clocks of Lord Howe Island go back by half an hour in April and forward again in October. -/
def lordHowe (name : String) : Zone :=
  let standard : ZoneOffset := ⟨37800, some "+1030".toList⟩
  let summer : ZoneOffset := ⟨39600, some "+11".toList⟩
  ⟨name.toList, summer, yearly
    (fun year => ⟨sundayTimestamp year .april 1 54000 - secondsPerDay, standard⟩)
    (fun year => ⟨sundayTimestamp year .october 1 55800 - secondsPerDay, summer⟩)⟩

/-- Samoa skipped the 30th of December 2011 to change the side of the date line. -/
def apia (name : String) : Zone :=
  let dayAhead : ZoneOffset := ⟨50400, some "+14".toList⟩
  ⟨name.toList, ⟨-39600, some "-11".toList⟩,
    [⟨1316872800, ⟨-36000, some "-10".toList⟩⟩, ⟨1325239200, dayAhead⟩,
      ⟨1333202400, ⟨46800, some "+13".toList⟩⟩, ⟨1348927200, dayAhead⟩]⟩

/-- The known zones, where some have several names. -/
def known : List Zone :=
  [fixed "UTC" 0 "UTC", fixed "Etc/UTC" 0 "UTC", fixed "Asia/Tokyo" 32400 "JST",
    fixed "Asia/Kolkata" 19800 "IST", fixed "Asia/Kathmandu" 20700 "+0545",
    fixed "Etc/GMT+5" (-18000) "-05", london "Europe/London", london "GB",
    newYork "America/New_York", newYork "US/Eastern", newYork "EST5EDT",
    lordHowe "Australia/Lord_Howe", apia "Pacific/Apia"]

/-- A name that no known zone has. -/
structure UnknownName where
  /-- The name as it was given. -/
  name : List Char
  deriving DecidableEq

/-- The wording of the refusal. -/
def UnknownName.message (unknown : UnknownName) : String :=
  s!"Unknown timezone `{String.ofList unknown.name}`"

/-- The known zone of exactly the given name. -/
def named (name : List Char) : Except UnknownName Zone :=
  match known.find? (·.name = name) with
  | some zone => .ok zone
  | none => .error ⟨name⟩

end Zone

end OpeningTimes
