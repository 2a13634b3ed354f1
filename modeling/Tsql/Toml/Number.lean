import Tsql.Json.Basic
import Tsql.Number.FloatText
import Tsql.Number.Width
import Tsql.Toml.Text

/-!
# Numbers of TOML

Digits may be separated by single underscores. An integer has to fit sixty-four bits, a
floating-point number must not round to positive infinity; a special number becomes `null`.
-/

namespace Tsql.Toml

open Text

/-- Digits after the first one, an underscore allowed before each. -/
def moreDigits? (isDigit : Char → Bool) : List Char → Option (List Char × List Char)
  | [] => some ([], [])
  | c :: r =>
    if isDigit c then (moreDigits? isDigit r).map fun (ds, r) => (c :: ds, r)
    else if c = '_' then
      match r with
      | d :: r =>
        if isDigit d then (moreDigits? isDigit r).map fun (ds, r) => (d :: ds, r) else none
      | [] => none
    else some ([], c :: r)

def takeDigits? (isDigit : Char → Bool) : List Char → Option (List Char × List Char)
  | c :: r =>
    if isDigit c then (moreDigits? isDigit r).map fun (ds, r) => (c :: ds, r) else none
  | [] => none

/-- The digits before a point; a zero stands alone. -/
def takeWhole? : List Char → Option (List Char × List Char)
  | '0' :: r => some (['0'], r)
  | s => takeDigits? isDigit s

def takeSign : List Char → List Char × List Char
  | '+' :: r => (['+'], r)
  | '-' :: r => (['-'], r)
  | s => ([], s)

def takeExponent? : List Char → Option (List Char × List Char)
  | 'e' :: r | 'E' :: r => do
    let (sign, r) := takeSign r
    let (ds, r) ← takeDigits? isDigit r
    some ('e' :: sign ++ ds, r)
  | s => some ([], s)

def takeFraction? : List Char → Option (List Char × List Char)
  | '.' :: r => (takeDigits? isDigit r).map fun (ds, r) => ('.' :: ds, r)
  | s => some ([], s)

def integerJson? (i : Int) : Option Json :=
  if fitsInt64 i then some (.ofInt i) else none

def floatJson? (s : List Char) : Option Json := do
  let x ← readFloat? Layout.double s
  if x = .infinity _ false then none else some (.ofFloat x)

/-- A number after its sign: an integer, unless a fraction or an exponent follows. -/
def takeDecimal? (sign s : List Char) : Option (Json × List Char) := do
  let (whole, r) ← takeWhole? s
  let (fraction, r) ← takeFraction? r
  let (exponent, r) ← takeExponent? r
  if fraction = [] ∧ exponent = [] then
    some (← integerJson? (← readInt? (sign ++ whole)), r)
  else some (← floatJson? (sign ++ whole ++ fraction ++ exponent), r)

def digitIn? (base : Nat) (c : Char) : Option Nat :=
  (hexValue? c).bind fun d => if d < base then some d else none

def takeBased? (base : Nat) (s : List Char) : Option (Json × List Char) := do
  let (ds, r) ← takeDigits? (fun c => (digitIn? base c).isSome) s
  let n ← ds.foldlM (fun n c => (digitIn? base c).map (base * n + ·)) 0
  some (← integerJson? n, r)

/-- A special number after its sign; it becomes `null`. -/
def takeSpecial? : List Char → Option (Json × List Char)
  | 'i' :: 'n' :: 'f' :: r => some (.null, r)
  | 'n' :: 'a' :: 'n' :: r => some (.null, r)
  | _ => none

def takeNumber? (s : List Char) : Option (Json × List Char) :=
  match s with
  | '0' :: 'x' :: r => takeBased? 16 r
  | '0' :: 'o' :: r => takeBased? 8 r
  | '0' :: 'b' :: r => takeBased? 2 r
  | s =>
    let (sign, r) := takeSign s
    (takeSpecial? r).or (takeDecimal? sign r)

end Tsql.Toml
