import Tsql.Text.Digits
import Tsql.Calendar.Basic

/-!
# Texts of dates and times

A year outside four digits carries its sign. A fraction of a second is written either with the
fewest of 0, 3, 6 or 9 digits that are exact, or with a given number of digits, later ones dropped.
An offset is written to the minute or, if asked to be exact, with its seconds.
-/

namespace Tsql

open Text

/-- A year with at least four digits, and a sign outside `0000` to `9999`. -/
def yearText (year : Int) : List Char :=
  if 0 ≤ year ∧ year ≤ 9999 then padded 4 year.toNat
  else (if year < 0 then '-' else '+') :: padded 4 year.natAbs

/-- The text of a day: year, month and day with hyphens. -/
def Date.chars (d : Date) : List Char :=
  yearText d.year ++ '-' :: padded 2 d.month ++ '-' :: padded 2 d.day

/-- The second that a clock shows: 60 in a leap second. -/
def Time.shownSecond (t : Time) : Nat := t.second + t.nanos / nanosPerSecond

/-- Hour, minute and second with colons. -/
def Time.clockChars (t : Time) : List Char :=
  padded 2 t.hour ++ ':' :: padded 2 t.minute ++ ':' :: padded 2 t.shownSecond

/-- A fraction of a second with the fewest of 0, 3, 6 or 9 digits that are exact. -/
def exactFraction (nanos : Nat) : List Char :=
  if nanos = 0 then []
  else if nanos % 1000000 = 0 then '.' :: padded 3 (nanos / 1000000)
  else if nanos % 1000 = 0 then '.' :: padded 6 (nanos / 1000)
  else '.' :: padded 9 nanos

/-- A fraction of a second cut to a number of digits; a leap second counts as the last nanosecond.
-/
def cutFraction (nanos digitCount : Nat) : List Char :=
  if digitCount = 0 then []
  else
    let places := min digitCount 9
    '.' :: padded places (min nanos (nanosPerSecond - 1) / tenPow (9 - places))

def Time.chars (t : Time) : List Char := t.clockChars ++ exactFraction (t.nanos % nanosPerSecond)

def Time.cutChars (t : Time) (digitCount : Nat) : List Char :=
  t.clockChars ++ cutFraction t.nanos digitCount

def offsetMinutes (offset : Int) : List Char :=
  let minutes := (offset.natAbs + 30) / 60
  (if offset < 0 then '-' else '+') :: padded 2 (minutes / 60) ++ ':' :: padded 2 (minutes % 60)

def offsetExact (offset : Int) : List Char :=
  let n := offset.natAbs
  let seconds := if n % 60 = 0 then [] else ':' :: padded 2 (n % 60)
  (if offset < 0 then '-' else '+') :: padded 2 (n / 3600) ++ ':' :: padded 2 (n / 60 % 60) ++
    seconds

def DateTime.chars (d : DateTime) (separator : Char) : List Char :=
  d.date.chars ++ separator :: d.time.chars

def Date.text (d : Date) : String := String.ofList d.chars

def Time.text (t : Time) : String := String.ofList t.chars

/-- The text of a day and a time, separated by a blank. -/
def DateTime.text (d : DateTime) : String := String.ofList (d.chars ' ')

def DateTime.isoText (d : DateTime) : String := String.ofList (d.chars 'T')

/-- The text of a clock reading and its exact offset. -/
def OffsetDateTime.text (d : OffsetDateTime) : String :=
  String.ofList (d.clock.chars ' ' ++ ' ' :: offsetExact d.offset)

/-- A clock reading directly followed by its exact offset, with a `T`. -/
def OffsetDateTime.inspect (d : OffsetDateTime) : String :=
  String.ofList (d.clock.chars 'T' ++ offsetExact d.offset)

/-- A clock reading with its offset to the minute, `Z` standing for no offset. -/
def OffsetDateTime.isoText (d : OffsetDateTime) : String :=
  String.ofList (d.clock.chars 'T' ++ (if d.offset = 0 then ['Z'] else offsetMinutes d.offset))

end Tsql
