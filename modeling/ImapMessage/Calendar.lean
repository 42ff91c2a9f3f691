/-
# Calendar dates

Dates of the Gregorian calendar, extended to all years, and date-times with the offset of
their zone.

Key constructions:
* `CalendarDate`, `CalendarDate.IsValid`: a year, month and day, and whether the calendar has it.
* `CalendarDate.dayNumber`: the days from 1 January 1970.
* `DateTime`, `DateTime.timestamp`: a date-time and its second since then.
-/

namespace ImapMessage

/-- A year, month and day. -/
structure CalendarDate where
  /-- The year; year 0 precedes year 1. -/
  year : Int
  /-- The month, from 1. -/
  month : Nat
  /-- The day of the month, from 1. -/
  day : Nat
  deriving DecidableEq, Repr

namespace CalendarDate

/-- Leap years. -/
def isLeap (year : Int) : Bool :=
  year % 4 == 0 && (year % 100 != 0 || year % 400 == 0)

/-- How many days a month has. -/
def daysInMonth (year : Int) (month : Nat) : Nat :=
  if month = 2 then if isLeap year then 29 else 28
  else if month = 4 ∨ month = 6 ∨ month = 9 ∨ month = 11 then 30
  else 31

/-- Whether the calendar has the date. -/
def IsValid (d : CalendarDate) : Prop :=
  1 ≤ d.month ∧ d.month ≤ 12 ∧ 1 ≤ d.day ∧ d.day ≤ daysInMonth d.year d.month

instance (d : CalendarDate) : Decidable d.IsValid :=
  inferInstanceAs (Decidable (_ ∧ _ ∧ _ ∧ _))

/-- Whether one date lies before another. -/
def isBefore (a b : CalendarDate) : Bool :=
  a.year < b.year ||
    (a.year == b.year && (a.month < b.month || (a.month == b.month && a.day < b.day)))

/-- The days of a year before the first of a month. -/
def daysBeforeMonth (year : Int) : (month : Nat) → Nat
  | 0 => 0
  | 1 => 0
  | month + 2 => daysBeforeMonth year (month + 1) + daysInMonth year (month + 1)

/-- The days from 1 January of year 1 to 1 January of a year. -/
def daysBeforeYear (year : Int) : Int :=
  365 * (year - 1) + (year - 1) / 4 - (year - 1) / 100 + (year - 1) / 400

/-- The days from 1 January 1970. -/
def dayNumber (d : CalendarDate) : Int :=
  daysBeforeYear d.year - daysBeforeYear 1970 + daysBeforeMonth d.year d.month + (d.day - 1)

end CalendarDate

/-- A date and time of day, and the offset of the zone in which they are told. -/
structure DateTime where
  /-- The date. -/
  date : CalendarDate
  /-- The hour, from 0 to 23. -/
  hour : Nat
  /-- The minute, from 0 to 59. -/
  minute : Nat
  /-- The second, from 0 to 59. -/
  second : Nat
  /-- The seconds by which the zone is ahead of universal time. -/
  offset : Int
  deriving DecidableEq, Repr

namespace DateTime

/-- Whether the calendar has the date, the day has the time, and a zone may have the offset. -/
def IsValid (t : DateTime) : Prop :=
  t.date.IsValid ∧ t.hour < 24 ∧ t.minute < 60 ∧ t.second < 60 ∧
    -86400 < t.offset ∧ t.offset < 86400

instance (t : DateTime) : Decidable t.IsValid :=
  inferInstanceAs (Decidable (_ ∧ _ ∧ _ ∧ _ ∧ _ ∧ _))

/-- The start of 1 January 1970 in universal time. -/
def epoch : DateTime :=
  ⟨⟨1970, 1, 1⟩, 0, 0, 0, 0⟩

/-- The seconds since `epoch`. -/
def timestamp (t : DateTime) : Int :=
  t.date.dayNumber * 86400 + t.hour * 3600 + t.minute * 60 + t.second - t.offset

/-- Whether it is later, by the clock of its zone, than the start of a day. -/
def isAfterStartOf (t : DateTime) (d : CalendarDate) : Bool :=
  d.isBefore t.date || (d == t.date && (t.hour != 0 || t.minute != 0 || t.second != 0))

example : epoch.timestamp = 0 := by decide

end DateTime

end ImapMessage
