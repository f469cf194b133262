import OpeningTimes.Rule.Schedule

/-! Opening hours expressions as they are written, before their parts are combined. -/

namespace OpeningTimes

/-- A day that hours can be given for. -/
inductive NamedDay where
  /-- A day of the week. -/
  | weekday (day : Weekday)
  /-- Any public holiday. -/
  | holiday
  deriving DecidableEq

/-- What an expression says about some days. -/
inductive Clause where
  /-- The days have these hours. -/
  | hours (list : List Hours)
  /-- The days are closed. -/
  | off
  deriving DecidableEq

/-- An entry of an expression. -/
inductive Entry where
  /-- Days with a clause, or open all day without one. -/
  | days (days : List NamedDay) (clause : Option Clause)
  /-- The sign that opens every hour of the week. -/
  | always
  /-- A clause that goes on with the days in front of it. -/
  | clause (clause : Clause)
  deriving DecidableEq

/-- One expression: years, seasons and entries, each of which may be absent. -/
structure Expression where
  /-- The years to which the expression is limited, if any. -/
  years : Option Years
  /-- The seasons to which the expression is limited, none meaning the whole year. -/
  seasons : List Season
  /-- The days and hours of the expression, none meaning every hour of the week. -/
  entries : List Entry
  deriving DecidableEq

end OpeningTimes
