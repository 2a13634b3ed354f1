import Tsql.Calendar.Basic
import Tsql.Toml.Text

/-!
# Dates and times of TOML

A moment is a day, a time of day, or both, then perhaps with an offset. It is read into a text of
one form: a `T` before the time, no zeros at the end of a fraction. `takeMoment?` reads one that
stands in a document, `readMoment?` one that is a whole text by itself; there the clock may show
hour 24, and an offset is any sum of hours and minutes within a day.
-/

namespace Tsql.Toml

open Text

/-- A number of exactly so many digits, within bounds. -/
def takeFixed? (width low high : Nat) (s : List Char) : Option (Nat × List Char) := do
  let n ← ofDigits? (s.take width)
  if (s.take width).length = width ∧ low ≤ n ∧ n ≤ high then some (n, s.drop width) else none

/-- The text of a fraction of a second: at most nine digits, no zeros at the end. -/
def secondFraction (ds : List Char) : List Char :=
  match ((ds.take 9).reverse.dropWhile (· = '0')).reverse with
  | [] => []
  | kept => '.' :: kept

def takeSecondFraction? : List Char → Option (List Char × List Char)
  | '.' :: r =>
    let ds := r.takeWhile isDigit
    if ds = [] then none else some (secondFraction ds, r.drop ds.length)
  | s => some ([], s)

def takeTime? (lastHour : Nat) (s : List Char) : Option (List Char × List Char) := do
  let (hour, r) ← takeFixed? 2 0 lastHour s
  let (minute, r) ← takeFixed? 2 0 59 (← takeMark? ':' r)
  let (second, r) ← takeFixed? 2 0 60 (← takeMark? ':' r)
  let (fraction, r) ← takeSecondFraction? r
  some (padded 2 hour ++ ':' :: padded 2 minute ++ ':' :: padded 2 second ++ fraction, r)

def takeDay? (s : List Char) : Option (List Char × List Char) := do
  let (year, r) ← takeFixed? 4 0 9999 s
  let (month, r) ← takeFixed? 2 1 12 (← takeMark? '-' r)
  let (day, r) ← takeFixed? 2 1 31 (← takeMark? '-' r)
  if day ≤ daysInMonth year month then
    some (padded 4 year ++ '-' :: padded 2 month ++ '-' :: padded 2 day, r)
  else none

/-- The text of an offset in minutes; none has a plus sign. -/
def offsetText (negative : Bool) (minutes : Nat) : List Char :=
  (if negative && 0 < minutes then '-' else '+')
    :: padded 2 (minutes / 60) ++ ':' :: padded 2 (minutes % 60)

def takeMinutes? (lastHour lastMinute : Nat) (s : List Char) : Option (Nat × List Char) := do
  let (hours, r) ← takeFixed? 2 0 lastHour s
  let (minutes, r) ← takeFixed? 2 0 lastMinute (← takeMark? ':' r)
  some (60 * hours + minutes, r)

def takeOffset? : List Char → Option (List Char × List Char)
  | 'Z' :: r | 'z' :: r => some (['Z'], r)
  | '+' :: r => (takeMinutes? 23 59 r).map fun (n, r) => (offsetText false n, r)
  | '-' :: r => (takeMinutes? 23 59 r).map fun (n, r) => (offsetText true n, r)
  | s => some ([], s)

/-- Two digits and a colon come first. -/
def startsTime (s : List Char) : Bool :=
  (takeFixed? 2 0 23 s).any fun (_, r) => r.head? == some ':'

/-- Four digits and a hyphen come first. -/
def startsDay (s : List Char) : Bool :=
  (takeFixed? 4 0 9999 s).any fun (_, r) => r.head? == some '-'

/-- The time and offset after a day, if a separator and a time follow. -/
def takeTimeAfterDay? (s : List Char) : Option (List Char × List Char) :=
  match s with
  | 'T' :: r | 't' :: r | ' ' :: r =>
    if startsTime r then do
      let (time, r) ← takeTime? 23 r
      let (offset, r) ← takeOffset? r
      some ('T' :: time ++ offset, r)
    else some ([], s)
  | s => some ([], s)

def startsMoment (s : List Char) : Bool := startsDay s || startsTime s

def takeMoment? (s : List Char) : Option (List Char × List Char) :=
  if startsDay s then do
    let (day, r) ← takeDay? s
    let (time, r) ← takeTimeAfterDay? r
    some (day ++ time, r)
  else takeTime? 23 s

def readMinutes? (s : List Char) : Option Nat :=
  match takeMinutes? 99 99 s with
  | some (n, []) => if n ≤ 1440 then some n else none
  | _ => none

def readOffset? : List Char → Option (List Char)
  | [] => some []
  | ['Z'] | ['z'] => some ['Z']
  | '+' :: r => (readMinutes? r).map (offsetText false)
  | '-' :: r => (readMinutes? r).map (offsetText true)
  | _ => none

def readMoment? (s : List Char) : Option (List Char) :=
  if s[2]? = some ':' then
    match takeTime? 24 s with
    | some (time, []) => some time
    | _ => none
  else do
    match ← takeDay? s with
    | (day, []) => some day
    | (day, 'T' :: r) | (day, 't' :: r) | (day, ' ' :: r) =>
      let (time, r) ← takeTime? 24 r
      some (day ++ 'T' :: time ++ (← readOffset? r))
    | _ => none

end Tsql.Toml
