import Tsql.Number.Power

/-!
# Binary floating-point numbers

A floating-point number is its bit pattern; `Floating.shape` reads the pattern as one of: not a
number, an infinity, or `± m · 2 ^ q` with natural `m`. `Floating.ofRatio` is the nearest number to
a quotient of naturals, a tie going to the even neighbour. All arithmetic is exact, on naturals.
-/

namespace Tsql

/-- The widths of the two fields after the sign. -/
structure Layout where
  exponentBits : Nat
  fractionBits : Nat
  deriving DecidableEq, Repr

namespace Layout

/-- The format of thirty-two bits. -/
def single : Layout := ⟨8, 23⟩

/-- The format of sixty-four bits. -/
def double : Layout := ⟨11, 52⟩

abbrev width (l : Layout) : Nat := 1 + l.exponentBits + l.fractionBits

def topField (l : Layout) : Nat := twoPow l.exponentBits - 1

/-- The power of two that the last place of the smallest numbers stands for. -/
def leastExponent (l : Layout) : Int :=
  2 - (twoPow (l.exponentBits - 1) : Nat) - l.fractionBits

end Layout

/-- A floating-point number of a layout, as its bits. -/
structure Floating (l : Layout) where
  bits : BitVec l.width
  deriving DecidableEq, Repr

/-- A number of thirty-two bits. -/
abbrev Binary32 := Floating Layout.single

/-- A number of sixty-four bits. -/
abbrev Binary64 := Floating Layout.double

/-- What a bit pattern stands for. -/
inductive Shape where
  | notANumber
  | infinite (negative : Bool)
  /-- The number `m · 2 ^ q`, negated if so marked. -/
  | finite (negative : Bool) (m : Nat) (q : Int)
  deriving DecidableEq, Repr

/-- A quotient rounded to the nearest natural, a tie to the even one. -/
def roundHalfEven (num den : Nat) : Nat :=
  let q := num / den
  let twice := 2 * (num % den)
  if den < twice ∨ (twice = den ∧ q % 2 = 1) then q + 1 else q

/-- The greatest `e` with `2 ^ e ≤ num / den`, for positive operands. -/
def floorLog2 (num den : Nat) : Int :=
  let e : Int := (Nat.log2 num : Int) - Nat.log2 den
  let reached := if 0 ≤ e then den * twoPow e.toNat ≤ num else den ≤ num * twoPow (-e).toNat
  if reached then e else e - 1

namespace Floating

variable {l : Layout}

def shape (x : Floating l) : Shape :=
  let n := x.bits.toNat
  let fraction := n % twoPow l.fractionBits
  let field := n / twoPow l.fractionBits % twoPow l.exponentBits
  let negative := n / twoPow (l.fractionBits + l.exponentBits) == 1
  if field = l.topField then
    if fraction = 0 then .infinite negative else .notANumber
  else if field = 0 then .finite negative fraction l.leastExponent
  else .finite negative (twoPow l.fractionBits + fraction) (l.leastExponent + (field - 1 : Nat))

/-- The number with given sign whose other bits form the given natural. -/
def pack (l : Layout) (negative : Bool) (magnitude : Nat) : Floating l :=
  ⟨BitVec.ofNat _ ((if negative then twoPow (l.exponentBits + l.fractionBits) else 0) + magnitude)⟩

def infinity (l : Layout) (negative : Bool) : Floating l :=
  pack l negative (l.topField * twoPow l.fractionBits)

def nan (l : Layout) : Floating l :=
  pack l false (l.topField * twoPow l.fractionBits + twoPow (l.fractionBits - 1))

/-- The number nearest to `num / den`; infinite where that lies beyond the greatest number. -/
def ofRatio (l : Layout) (negative : Bool) (num den : Nat) : Floating l :=
  if num = 0 then pack l negative 0
  else
    let q := max (floorLog2 num den - l.fractionBits) l.leastExponent
    let m := if 0 ≤ q then roundHalfEven num (den * twoPow q.toNat)
      else roundHalfEven (num * twoPow (-q).toNat) den
    let magnitude := (q - l.leastExponent).toNat * twoPow l.fractionBits + m
    pack l negative (min magnitude (l.topField * twoPow l.fractionBits))

/-- The number nearest to `m · 10 ^ e`. Exponents far outside the range are decided by the number of
digits alone. -/
def ofDecimal (l : Layout) (negative : Bool) (m : Nat) (digitCount : Nat) (e : Int) : Floating l :=
  if m = 0 then pack l negative 0
  else if (400 : Int) < digitCount + e then infinity l negative
  else if (digitCount + e : Int) < -400 then pack l negative 0
  else if 0 ≤ e then ofRatio l negative (m * tenPow e.toNat) 1
  else ofRatio l negative m (tenPow (-e).toNat)

/-- The number nearest to a signed power-of-two multiple. -/
def ofShape (l : Layout) : Shape → Floating l
  | .notANumber => nan l
  | .infinite negative => infinity l negative
  | .finite negative m q =>
    if 0 ≤ q then ofRatio l negative (m * twoPow q.toNat) 1
    else ofRatio l negative m (twoPow (-q).toNat)

def convert (l' : Layout) (x : Floating l) : Floating l' := ofShape l' x.shape

/-- Neither infinite nor outside the numbers. -/
def isFinite (x : Floating l) : Bool :=
  match x.shape with
  | .finite .. => true
  | _ => false

def ofInt (l : Layout) (i : Int) : Floating l := ofRatio l (i < 0) i.natAbs 1

end Floating

end Tsql
