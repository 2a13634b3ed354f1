import Tsql.Text.Digits
import Tsql.Number.Binary

/-!
# Shortest decimals

The real numbers that round to a floating-point number `m · 2 ^ q` form an interval.
`shortest` is a decimal in that interval with the fewest digits, and the nearest of those. Of two
equally near ones a `Tie` takes one.
-/

namespace Tsql

/-- The decimal number `digits · 10 ^ exponent`. -/
structure Scientific where
  digits : Nat
  exponent : Int
  deriving DecidableEq, Repr

namespace Scientific

/-- The same number without trailing zero digits; `fuel` bounds how many are dropped. -/
def stripZeros : Nat → Scientific → Scientific
  | 0, x => x
  | fuel + 1, x =>
    if x.digits ≠ 0 ∧ x.digits % 10 = 0 then stripZeros fuel ⟨x.digits / 10, x.exponent + 1⟩
    else x

/-- The exponent when one digit stands before the point. -/
def leading (x : Scientific) : Int := x.exponent + (Text.digitCount x.digits : Int) - 1

end Scientific

/-- Which of two neighbouring decimals is taken where both are equally near. -/
inductive Tie where
  /-- The one whose last digit is even. -/
  | even
  /-- The one further from zero. -/
  | away
  deriving DecidableEq, Repr

/-- The lower of two neighbours is taken; `side` compares the number with their middle. -/
def Tie.takesLower (tie : Tie) (lower : Nat) (side : Ordering) : Bool :=
  match side, tie with
  | .lt, _ => true
  | .eq, even => lower % 2 == 0
  | .eq, away => false
  | .gt, _ => false

/-- A multiple of a power of two and a power of ten. -/
structure Scaled where
  factor : Nat
  twos : Int
  tens : Int

/-- Comparison of two such numbers, by cross-multiplication. -/
def Scaled.le (a b : Scaled) : Bool :=
  a.factor * twoPow (a.twos - b.twos).toNat * tenPow (a.tens - b.tens).toNat ≤
    b.factor * twoPow (b.twos - a.twos).toNat * tenPow (b.tens - a.tens).toNat

/-- The greatest `k` with `10 ^ k ≤ m · 2 ^ q`, for positive `m`. -/
def floorLog10 (m : Nat) (q : Int) : Int :=
  let num := m * twoPow q.toNat
  let den := twoPow (-q).toNat
  if den ≤ num then (Text.digitCount (num / den) : Int) - 1
  else -(Text.digitCount ((den + num - 1) / num - 1) : Int)

/-- The reals that round to `m · 2 ^ q`: from `low` to `high`, ends included if `closed`. -/
structure Rounding where
  low : Scaled
  high : Scaled
  closed : Bool

/-- The interval of a number; the gap below a power of two is half as wide as the one above. -/
def Rounding.of (l : Layout) (m : Nat) (q : Int) : Rounding :=
  let narrow := m = twoPow l.fractionBits ∧ l.leastExponent < q
  { low := ⟨4 * m - (if narrow then 1 else 2), q - 2, 0⟩
    high := ⟨4 * m + 2, q - 2, 0⟩
    closed := m % 2 = 0 }

/-- A decimal reads back to the number. -/
def Rounding.holds (r : Rounding) (x : Scientific) : Bool :=
  let s : Scaled := ⟨x.digits, 0, x.exponent⟩
  if r.closed then r.low.le s && s.le r.high
  else !s.le r.low && !r.high.le s

/-- The decimal on the grid `10 ^ e` that reads back to `m · 2 ^ q` and is nearest to it. -/
def onGrid? (tie : Tie) (r : Rounding) (m : Nat) (q e : Int) : Option Scientific :=
  let num := m * twoPow q.toNat * tenPow (-e).toNat
  let den := twoPow (-q).toNat * tenPow e.toNat
  let below : Scientific := ⟨num / den, e⟩
  let above : Scientific := ⟨num / den + 1, e⟩
  match r.holds below, r.holds above with
  | true, true =>
    some (if tie.takesLower below.digits (compare (2 * (num % den)) den) then below else above)
  | true, false => some below
  | false, true => some above
  | false, false => none

/-- The first grid, from `10 ^ e` down, with a decimal that reads back. -/
def firstGrid? (tie : Tie) (r : Rounding) (m : Nat) (q : Int) : Nat → Int → Option Scientific
  | 0, _ => none
  | fuel + 1, e =>
    match onGrid? tie r m q e with
    | some x => some x
    | none => firstGrid? tie r m q fuel (e - 1)

def exactDecimal (m : Nat) (q : Int) : Scientific :=
  if 0 ≤ q then ⟨m * twoPow q.toNat, 0⟩ else ⟨m * Nat.pow 5 (-q).toNat, q⟩

/-- The fewest digits that read back to the number `m · 2 ^ q` of a layout. -/
def shortest (tie : Tie) (l : Layout) (m : Nat) (q : Int) : Scientific :=
  if m = 0 then ⟨0, 0⟩
  else
    let first := firstGrid? tie (Rounding.of l m q) m q 18 (floorLog10 m q)
    let found := first.getD (exactDecimal m q)
    found.stripZeros (Text.digitCount found.digits)

end Tsql
