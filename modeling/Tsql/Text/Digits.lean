/-!
# Digits

Numbers as texts of digits: `digits n` writes `n` in base ten without leading zeros, `padded w n`
with at least `w` digits, `ofDigits?` reads digits back. Hexadecimal digits are read in both cases.
-/

namespace Tsql.Text

/-- The digit of a number below sixteen, in lower case. -/
def digitChar (n : Nat) : Char :=
  if n < 10 then Char.ofNat (48 + n) else Char.ofNat (87 + n)

/-- The digit of a number below sixteen, in upper case. -/
def upperDigitChar (n : Nat) : Char :=
  if n < 10 then Char.ofNat (48 + n) else Char.ofNat (55 + n)

def digitValue? (c : Char) : Option Nat :=
  if 48 ≤ c.toNat ∧ c.toNat ≤ 57 then some (c.toNat - 48) else none

/-- The value of a hexadecimal digit of either case. -/
def hexValue? (c : Char) : Option Nat :=
  let n := c.toNat
  if 48 ≤ n ∧ n ≤ 57 then some (n - 48)
  else if 97 ≤ n ∧ n ≤ 102 then some (n - 87)
  else if 65 ≤ n ∧ n ≤ 70 then some (n - 55)
  else none

def isDigit (c : Char) : Bool := (digitValue? c).isSome

/-- The decimal digits of a number, most significant first. -/
def digits (n : Nat) : List Char :=
  if n < 10 then [digitChar n] else digits (n / 10) ++ [digitChar (n % 10)]

/-- The decimal digits of a number, with zeros in front up to a width. -/
def padded (width n : Nat) : List Char :=
  let ds := digits n
  List.replicate (width - ds.length) '0' ++ ds

def ofDigitsFrom? (start : Nat) : List Char → Option Nat
  | [] => some start
  | c :: r => match digitValue? c with
    | some d => ofDigitsFrom? (10 * start + d) r
    | none => none

/-- The number that a non-empty text of decimal digits writes. -/
def ofDigits? : List Char → Option Nat
  | [] => none
  | s => ofDigitsFrom? 0 s

def digitCount (n : Nat) : Nat := (digits n).length

def natText (n : Nat) : String := String.ofList (digits n)

def intText (i : Int) : String :=
  if i < 0 then "-" ++ natText i.natAbs else natText i.natAbs

def readInt? : List Char → Option Int
  | '-' :: r => (ofDigits? r).map fun n => -(n : Int)
  | '+' :: r => (ofDigits? r).map Int.ofNat
  | s => (ofDigits? s).map Int.ofNat

/-- A byte as two hexadecimal digits in lower case. -/
def hexByte (b : UInt8) : List Char := [digitChar (b.toNat / 16), digitChar (b.toNat % 16)]

/-- A byte as two hexadecimal digits in upper case. -/
def upperHexByte (b : UInt8) : List Char :=
  [upperDigitChar (b.toNat / 16), upperDigitChar (b.toNat % 16)]

def hexText (bytes : List UInt8) : String := String.ofList (bytes.flatMap hexByte)

def upperHexText (bytes : List UInt8) : String := String.ofList (bytes.flatMap upperHexByte)

/-- One byte from two hexadecimal digits; a plus sign may stand for the first of them. -/
def readHexByte? (a b : Char) : Option UInt8 :=
  if a = '+' then (hexValue? b).map UInt8.ofNat
  else match hexValue? a, hexValue? b with
    | some x, some y => some (UInt8.ofNat (16 * x + y))
    | _, _ => none

/-- The bytes that pairs of hexadecimal digits write. -/
def readHex? : List Char → Option (List UInt8)
  | [] => some []
  | [_] => none
  | a :: b :: r => match readHexByte? a b, readHex? r with
    | some x, some xs => some (x :: xs)
    | _, _ => none

theorem digitValue?_digitChar {n : Nat} (h : n < 10) : digitValue? (digitChar n) = some n := by
  have : n ∈ List.range 10 := List.mem_range.2 h
  revert n
  decide

end Tsql.Text
