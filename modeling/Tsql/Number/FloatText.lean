import Tsql.Text.Digits
import Tsql.Number.Shortest

/-!
# Texts of floating-point numbers

A `FloatStyle` holds what a text decides beyond its digits: where positional notation ends, whether
a whole number keeps its point, how an exponent is marked, and which of two equally near decimals
is written. `readFloat?` reads a decimal text, an infinity or what is not a number.
-/

namespace Tsql

open Text

/-- The decisions of a float's text. -/
structure FloatStyle where
  /-- The leading exponents that are written positionally. -/
  positional : Int → Bool
  /-- A whole number in positional notation ends in `.0`. -/
  wholePoint : Bool
  /-- What stands before the exponent. -/
  mark : String
  /-- A positive exponent carries a plus sign. -/
  plus : Bool
  /-- Which of two equally near decimals is written. -/
  tie : Tie

namespace FloatStyle

/-- Always positional, a whole number without a point. -/
def plain : FloatStyle := ⟨fun _ => true, false, "e", false, .away⟩

/-- Positional from `10 ^ -4` up to `10 ^ 16`, a whole number with a point. -/
def inspected : FloatStyle := ⟨fun e => decide (-5 < e ∧ e < 16), true, "e", false, .away⟩

/-- Positional from `10 ^ -5` up to `10 ^ 16`, or from `10 ^ -6` up to `10 ^ 13` in thirty-two bits;
a whole number with a point, exponents signed, of two equally near decimals the even one. -/
def json (l : Layout) : FloatStyle :=
  let positional (e : Int) :=
    if l = Layout.single then decide (-7 < e ∧ e < 13) else decide (-6 < e ∧ e < 16)
  ⟨positional, true, "e", true, .even⟩

def exponential : FloatStyle := ⟨fun _ => false, false, "E", false, .away⟩

end FloatStyle

def positionalText (wholePoint : Bool) (x : Scientific) : List Char :=
  let ds := digits x.digits
  if 0 ≤ x.exponent then
    ds ++ List.replicate x.exponent.toNat '0' ++ (if wholePoint then ['.', '0'] else [])
  else
    let places := (-x.exponent).toNat
    if places < ds.length then ds.take (ds.length - places) ++ '.' :: ds.drop (ds.length - places)
    else '0' :: '.' :: List.replicate (places - ds.length) '0' ++ ds

/-- A decimal with one digit before the point and an exponent. -/
def exponentText (style : FloatStyle) (x : Scientific) : List Char :=
  let fraction := match digits x.digits with
    | d :: r => if r.isEmpty then [d] else d :: '.' :: r
    | [] => []
  let sign := if style.plus && 0 ≤ x.leading then ['+'] else []
  fraction ++ style.mark.toList ++ sign ++ (intText x.leading).toList

def Scientific.text (style : FloatStyle) (x : Scientific) : List Char :=
  if style.positional x.leading then positionalText style.wholePoint x else exponentText style x

/-- The text of a floating-point number: its shortest digits in a style. -/
def Floating.text {l : Layout} (style : FloatStyle) (x : Floating l) : String :=
  match x.shape with
  | .notANumber => "NaN"
  | .infinite negative => if negative then "-inf" else "inf"
  | .finite negative m q =>
    String.ofList ((if negative then ['-'] else []) ++ (shortest style.tie l m q).text style)

def splitSign : List Char → Bool × List Char
  | '-' :: r => (true, r)
  | '+' :: r => (false, r)
  | s => (false, s)

/-- An exponent after its mark; nothing but digits after an optional sign. -/
def readExponent? (s : List Char) : Option Int :=
  let (negative, ds) := splitSign s
  (ofDigits? ds).map fun n => if negative then -(n : Int) else n

/-- A decimal numeral without sign: its digits as one number, their count and the exponent of the
last. At least one digit stands beside the point. -/
def readNumeral? (s : List Char) : Option (Nat × Nat × Int) := do
  let whole := s.takeWhile isDigit
  let rest := s.dropWhile isDigit
  let (fraction, rest) := match rest with
    | '.' :: r => (r.takeWhile isDigit, r.dropWhile isDigit)
    | r => ([], r)
  let e ← match rest with
    | [] => some 0
    | 'e' :: r | 'E' :: r => readExponent? r
    | _ => none
  let m ← ofDigits? (whole ++ fraction)
  some (m, digitCount m, e - fraction.length)

/-- A text equals a word written in small letters, whatever its case. -/
def equalsWord (word : String) (s : List Char) : Bool :=
  s.map Char.toLower == word.toList

def readFloat? (l : Layout) (s : List Char) : Option (Floating l) :=
  let (negative, r) := splitSign s
  if equalsWord "inf" r || equalsWord "infinity" r then some (.infinity l negative)
  else if equalsWord "nan" r then some (.nan l)
  else (readNumeral? r).map fun (m, n, e) => .ofDecimal l negative m n e

end Tsql
