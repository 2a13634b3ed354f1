import Tsql.Number.Power
import Tsql.Text.Digits

/-!
# Decimals

A decimal is a sign, a mantissa below `2 ^ 96` and a scale of at most 28: the number
`± mantissa / 10 ^ scale`. The scale is kept as written, so `1.50` and `1.5` are different texts.
A zero has no sign, unless an exponent moved all its digits behind the last place.
-/

namespace Tsql

open Text

def mantissaBound : Nat := 79228162514264337593543950336

/-- The greatest number of decimal places. -/
def maxScale : Nat := 28

/-- A fixed-point decimal. -/
structure Decimal where
  negative : Bool
  mantissa : Nat
  scale : Nat
  mantissa_lt : mantissa < mantissaBound
  scale_le : scale ≤ maxScale
  deriving DecidableEq, Repr

namespace Decimal

def ofParts? (negative : Bool) (mantissa scale : Nat) : Option Decimal :=
  if h : mantissa < mantissaBound ∧ scale ≤ maxScale then
    some ⟨negative, mantissa, scale, h.1, h.2⟩
  else none

/-- The decimal with given parts, if they are within bounds; the sign of zero is dropped. -/
def make? (negative : Bool) (mantissa scale : Nat) : Option Decimal :=
  ofParts? (negative && decide (mantissa ≠ 0)) mantissa scale

def text (d : Decimal) : String :=
  let ds := padded (d.scale + 1) d.mantissa
  let whole := ds.take (ds.length - d.scale)
  let places := ds.drop (ds.length - d.scale)
  String.ofList ((if d.negative then ['-'] else []) ++ whole ++
    (if d.scale = 0 then [] else '.' :: places))

/-- The decimal without its last places, the first of which is `dropped`: at least five rounds up. A
mantissa that outgrows its bound gives up one more place, rounded. -/
def roundAt? (negative : Bool) (m scale dropped : Nat) : Option Decimal :=
  if dropped < 5 then make? negative m scale
  else if m + 1 < mantissaBound then make? negative (m + 1) scale
  else if scale = 0 then none
  else make? negative ((m + 1 + 4) / 10) (scale - 1)

/-- A quotient by a power of ten, a half rounded up. -/
def dropPlaces (m places : Nat) : Nat := (2 * m + tenPow places) / (2 * tenPow places)

/-- A decimal divided by a power of ten; places beyond the last are rounded away. -/
def shiftDown? (d : Decimal) (e : Nat) : Option Decimal :=
  if d.scale + e ≤ maxScale then ofParts? d.negative d.mantissa (d.scale + e)
  else ofParts? d.negative (dropPlaces d.mantissa (d.scale + e - maxScale)) maxScale

def shiftUp? (d : Decimal) (e : Nat) : Option Decimal :=
  if e ≤ d.scale then ofParts? d.negative d.mantissa (d.scale - e)
  else ofParts? d.negative (d.mantissa * tenPow (e - d.scale)) 0

/-- The digits of an exponent after an optional plus sign; it is at most the number of places. -/
def readPower? (s : List Char) : Option Nat := do
  let e ← ofDigits? (match s with | '+' :: r => r | r => r)
  if e ≤ maxScale then some e else none

/-- A decimal times a power of ten, given as the text of the exponent. -/
def shift? (d : Decimal) : List Char → Option Decimal
  | '-' :: s => (readPower? s).bind d.shiftDown?
  | s => (readPower? s).bind d.shiftUp?

/-- What follows the last place that is kept: digits and underscores, which count for nothing, and
an exponent. -/
def finish? (d : Decimal) (s : List Char) : Option Decimal :=
  match s.dropWhile fun c => isDigit c || c = '_' with
  | [] => some d
  | c :: r => if c = 'e' ∨ c = 'E' then d.shift? r else none

/-- The decimal of the places that are kept, given the text behind them: its first digit decides the
rounding. -/
def cutAt? (negative : Bool) (m scale : Nat) (s : List Char) : Option Decimal := do
  let dropped := ((s.dropWhile (· = '_')).head?.bind digitValue?).getD 0
  (← roundAt? negative m scale dropped).finish? s

/-- Reads the digits of a decimal. `point` tells that the point was passed, `seen` that a digit was;
`m` and `scale` are what the digits read so far write. Places beyond the last that fits are cut
off. -/
def readDigits? (negative point seen : Bool) (m scale : Nat) : List Char → Option Decimal
  | [] => if seen then make? negative m scale else none
  | c :: r =>
    if (c = 'e' ∨ c = 'E') ∧ seen then (make? negative m scale).bind fun d => d.shift? r
    else if point ∧ maxScale ≤ scale then cutAt? negative m scale (c :: r)
    else match digitValue? c with
      | some d =>
        if 10 * m + d < mantissaBound then
          readDigits? negative point true (10 * m + d) (if point then scale + 1 else 0) r
        else if point then cutAt? negative m scale (c :: r)
        else none
      | none =>
        if c = '.' ∧ !point then readDigits? negative true seen m scale r
        else if c = '_' ∧ seen then readDigits? negative point seen m scale r
        else none

/-- The decimal that a text writes: an optional sign, digits with at most one point among them and
underscores after the first, and an optional exponent. -/
def read? : List Char → Option Decimal
  | '-' :: r => readDigits? true false false 0 0 r
  | '+' :: r => readDigits? false false false 0 0 r
  | s => readDigits? false false false 0 0 s

def ofInt? (i : Int) : Option Decimal := make? (i < 0) i.natAbs 0

end Decimal

end Tsql
