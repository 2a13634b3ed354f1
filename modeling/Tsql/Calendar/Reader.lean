import Tsql.Text.Blank
import Tsql.Text.Digits
import Tsql.Calendar.Basic

/-!
# Reading dates and times

A layout is a list of `Part`s: numbers, fixed characters and optional blanks. Before each number
blanks may stand, and a number may have fewer digits than its field is wide. `Slots.read?` collects
the numbers of a text by a layout; a day, a time or both are then put together from them.
-/

namespace Tsql

open Text

/-- A numbered slot of a date or a time. -/
inductive Slot where
  | year | month | day | hour | minute | second
  deriving DecidableEq, Repr

inductive Part where
  | number (slot : Slot)
  | mark (c : Char)
  | blanks
  /-- A point and digits, or nothing. -/
  | fraction
  /-- A sign, two digits of hours, a separator and two digits of minutes. -/
  | offset
  deriving DecidableEq, Repr

/-- The numbers read so far. -/
structure Slots where
  year : Option Int := none
  month : Option Nat := none
  day : Option Nat := none
  hour : Option Nat := none
  minute : Option Nat := none
  second : Option Nat := none
  nanos : Nat := 0
  offset : Option Int := none

/-- Up to `width` digits, at least one, and the rest. -/
def takeNumber? (width : Nat) (s : List Char) : Option (Nat × List Char) :=
  let ds := (s.take width).takeWhile isDigit
  (ofDigits? ds).map fun n => (n, s.drop ds.length)

def takeYear? : List Char → Option (Int × List Char)
  | '-' :: r => (takeNumber? r.length r).map fun (n, t) => (-(n : Int), t)
  | '+' :: r => (takeNumber? r.length r).map fun (n, t) => ((n : Int), t)
  | s => (takeNumber? 4 s).map fun (n, t) => ((n : Int), t)

/-- A fraction after its point: nine digits count, later ones are dropped. -/
def takeFraction? (s : List Char) : Option (Nat × List Char) :=
  let ds := s.takeWhile isDigit
  let kept := ds.take 9
  (ofDigits? kept).map fun n => (n * tenPow (9 - kept.length), s.drop ds.length)

def takeTwo? : List Char → Option (Nat × List Char)
  | a :: b :: r => (ofDigits? [a, b]).map fun n => (n, r)
  | _ => none

/-- Colons and blanks may stand between the hours and the minutes of an offset. -/
def dropOffsetMarks (s : List Char) : List Char := s.dropWhile fun c => c = ':' || isBlank c

/-- An offset in seconds and the rest. The minus sign may be the mathematical one. -/
def takeOffset? (s : List Char) : Option (Int × List Char) := do
  let (negative, r) ← match s with
    | '+' :: r => some (false, r)
    | '-' :: r => some (true, r)
    | c :: r => if c.toNat = 0x2212 then some (true, r) else none
    | [] => none
  let (hours, r) ← takeTwo? r
  let (minutes, r) ← takeTwo? (dropOffsetMarks r)
  if minutes < 60 then
    let seconds : Int := 3600 * hours + 60 * minutes
    some (if negative then -seconds else seconds, r)
  else none

def within? (low high n : Nat) : Option Nat := if low ≤ n ∧ n ≤ high then some n else none

/-- Puts a number into its slot, if the slot can hold it. -/
def Slots.take? (f : Slots) (slot : Slot) (s : List Char) : Option (Slots × List Char) :=
  let s := trimStart s
  match slot with
  | .year => (takeYear? s).map fun (n, r) => ({ f with year := some n }, r)
  | .month => do
    let (n, r) ← takeNumber? 2 s
    let n ← within? 1 12 n
    some ({ f with month := some n }, r)
  | .day => do
    let (n, r) ← takeNumber? 2 s
    let n ← within? 1 31 n
    some ({ f with day := some n }, r)
  | .hour => do
    let (n, r) ← takeNumber? 2 s
    let n ← within? 0 23 n
    some ({ f with hour := some n }, r)
  | .minute => do
    let (n, r) ← takeNumber? 2 s
    let n ← within? 0 59 n
    some ({ f with minute := some n }, r)
  | .second => do
    let (n, r) ← takeNumber? 2 s
    let n ← within? 0 60 n
    some ({ f with second := some n }, r)

def Slots.read? (f : Slots) : List Part → List Char → Option (Slots × List Char)
  | [], s => some (f, s)
  | .number slot :: parts, s => do
    let (f, r) ← f.take? slot s
    Slots.read? f parts r
  | .mark c :: parts, s => match s with
    | d :: r => if d = c then Slots.read? f parts r else none
    | [] => none
  | .blanks :: parts, s => Slots.read? f parts (trimStart s)
  | .fraction :: parts, s => match s with
    | '.' :: r => do
      let (n, r) ← takeFraction? r
      Slots.read? { f with nanos := n } parts r
    | s => Slots.read? f parts s
  | .offset :: parts, s => do
    let (o, r) ← takeOffset? (trimStart s)
    Slots.read? { f with offset := some o } parts r

def Slots.readAll? (parts : List Part) (s : List Char) : Option Slots :=
  match Slots.read? {} parts s with
  | some (f, []) => some f
  | _ => none

def Slots.date? (f : Slots) : Option Date := do
  Date.make? (← f.year) (← f.month) (← f.day)

/-- The time that the fields give; second 60 is a leap second, a missing second is zero. -/
def Slots.time? (f : Slots) : Option Time := do
  let second := f.second.getD 0
  if second = 60 then Time.make? (← f.hour) (← f.minute) 59 (nanosPerSecond + f.nanos)
  else Time.make? (← f.hour) (← f.minute) second f.nanos

def Slots.dateTime? (f : Slots) : Option DateTime := do
  some ⟨← f.date?, ← f.time?⟩

/-- The clock reading and offset that the fields give. -/
def Slots.offsetDateTime? (f : Slots) : Option OffsetDateTime := do
  OffsetDateTime.make? (← f.dateTime?) (← f.offset)

def dateParts : List Part := [.number .year, .mark '-', .number .month, .mark '-', .number .day]

/-- Hour, minute and second with colons, and an optional fraction. -/
def timeParts : List Part :=
  [.number .hour, .mark ':', .number .minute, .mark ':', .number .second, .fraction]

def readDate? (s : List Char) : Option Date := (Slots.readAll? dateParts s).bind Slots.date?

def readTime? (s : List Char) : Option Time := (Slots.readAll? timeParts s).bind Slots.time?

/-- The day and time of a literal, with blanks or nothing between them. -/
def readDateTime? (s : List Char) : Option DateTime :=
  (Slots.readAll? (dateParts ++ .blanks :: timeParts) s).bind Slots.dateTime?

/-- The clock reading of a literal, followed by its offset. -/
def readOffsetDateTime? (s : List Char) : Option OffsetDateTime :=
  (Slots.readAll? (dateParts ++ .blanks :: timeParts ++ [.blanks, .offset]) s).bind
    Slots.offsetDateTime?

def loosened : List Part → List Part
  | [] => []
  | .mark c :: parts => .blanks :: .mark c :: loosened parts
  | p :: parts => p :: loosened parts

/-- A day, blanks allowed around the hyphens and at the end. -/
def readLooseDate? (s : List Char) : Option Date :=
  (Slots.readAll? (loosened dateParts ++ [.blanks]) s).bind Slots.date?

/-- A time, blanks allowed around the colons and at the end, the seconds optional. -/
def readLooseTime? (s : List Char) : Option Time := do
  let (f, r) ← Slots.read? {} (loosened [.number .hour, .mark ':', .number .minute]) s
  match Slots.read? f (loosened [.mark ':', .number .second, .fraction] ++ [.blanks]) r with
  | some (g, r) => if trimStart r = [] then g.time? else none
  | none => if trimStart r = [] then f.time? else none

/-- A day, a `T` and a time, blanks allowed around the marks and at the end. -/
def readLooseDateTime? (s : List Char) : Option DateTime :=
  (Slots.readAll? (loosened dateParts ++ [.blanks, .mark 'T'] ++ loosened timeParts ++ [.blanks])
    s).bind Slots.dateTime?

/-- The offset at the end of a clock reading; `Z` and `UTC` stand for none. -/
def takeZone? : List Char → Option (Int × List Char)
  | 'Z' :: r | 'z' :: r => some (0, r)
  | a :: b :: c :: r =>
    if a.toLower = 'u' ∧ b.toLower = 't' ∧ c.toLower = 'c' then some (0, r)
    else takeOffset? (a :: b :: c :: r)
  | s => takeOffset? s

/-- A day, a `T` or a blank, a time and an offset, blanks allowed around the marks and at the end.
-/
def readLooseOffsetDateTime? (s : List Char) : Option OffsetDateTime := do
  let (f, r) ← Slots.read? {} (loosened dateParts) s
  let r ← match r with
    | 'T' :: r | 't' :: r | ' ' :: r => some r
    | _ => none
  let (f, r) ← Slots.read? f (loosened timeParts ++ [.blanks]) r
  let (o, r) ← takeZone? (trimStart r)
  if trimStart r = [] then Slots.offsetDateTime? { f with offset := some o } else none

end Tsql
