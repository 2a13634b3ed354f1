import Tsql.Number.Power

/-!
# Dates and times of day

Dates of the proleptic Gregorian calendar, times of day with nanoseconds, and their combinations
with and without an offset from universal time. A leap second is the last second of its minute with
a nanosecond count of a full second or more.
-/

namespace Tsql

def isLeapYear (year : Int) : Bool :=
  year % 4 == 0 && (year % 100 != 0 || year % 400 == 0)

def daysInMonth (year : Int) (month : Nat) : Nat :=
  if month = 2 then (if isLeapYear year then 29 else 28)
  else if month = 4 ∨ month = 6 ∨ month = 9 ∨ month = 11 then 30
  else 31

def firstYear : Int := -262143

def lastYear : Int := 262142

/-- A day of the calendar. -/
structure Date where
  year : Int
  month : Nat
  day : Nat
  year_mem : firstYear ≤ year ∧ year ≤ lastYear
  month_mem : 1 ≤ month ∧ month ≤ 12
  day_mem : 1 ≤ day ∧ day ≤ daysInMonth year month
  deriving DecidableEq, Repr

def Date.make? (year : Int) (month day : Nat) : Option Date :=
  if h : (firstYear ≤ year ∧ year ≤ lastYear) ∧ (1 ≤ month ∧ month ≤ 12) ∧
      (1 ≤ day ∧ day ≤ daysInMonth year month) then
    some ⟨year, month, day, h.1, h.2.1, h.2.2⟩
  else none

def nanosPerSecond : Nat := 1000000000

/-- A time of day. `nanos` reaches into a leap second only after the last second of a minute. -/
structure Time where
  hour : Nat
  minute : Nat
  second : Nat
  nanos : Nat
  hour_lt : hour < 24
  minute_lt : minute < 60
  second_lt : second < 60
  nanos_lt : nanos < 2 * nanosPerSecond
  leap : nanosPerSecond ≤ nanos → second = 59
  deriving DecidableEq, Repr

def Time.make? (hour minute second nanos : Nat) : Option Time :=
  if h : hour < 24 ∧ minute < 60 ∧ second < 60 ∧ nanos < 2 * nanosPerSecond ∧
      (nanosPerSecond ≤ nanos → second = 59) then
    some ⟨hour, minute, second, nanos, h.1, h.2.1, h.2.2.1, h.2.2.2.1, h.2.2.2.2⟩
  else none

/-- The whole seconds since midnight, a leap second not counted. -/
def Time.secondOfDay (t : Time) : Nat := 3600 * t.hour + 60 * t.minute + t.second

/-- A day and a time of day. -/
structure DateTime where
  date : Date
  time : Time
  deriving DecidableEq, Repr

def secondsPerDay : Nat := 86400

/-- The reading less its offset stays inside the calendar. -/
def DateTime.allowsOffset (c : DateTime) (offset : Int) : Bool :=
  let first := c.date.year == firstYear && c.date.month == 1 && c.date.day == 1
  let last := c.date.year == lastYear && c.date.month == 12 && c.date.day == 31
  let universal : Int := c.time.secondOfDay - offset
  !(first && universal < 0) && !(last && universal ≥ secondsPerDay)

/-- A local clock reading together with its offset east of universal time, in seconds. -/
structure OffsetDateTime where
  clock : DateTime
  offset : Int
  offset_lt : offset.natAbs < secondsPerDay
  allowed : clock.allowsOffset offset = true
  deriving DecidableEq, Repr

/-- The reading at an offset of less than a day, if it stays inside the calendar. -/
def OffsetDateTime.make? (clock : DateTime) (offset : Int) : Option OffsetDateTime :=
  if h : offset.natAbs < secondsPerDay ∧ clock.allowsOffset offset = true then
    some ⟨clock, offset, h.1, h.2⟩
  else none

end Tsql
