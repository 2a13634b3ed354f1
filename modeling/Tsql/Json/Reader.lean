import Tsql.Json.Basic
import Tsql.Text.Digits
import Tsql.Number.FloatText

/-!
# Reading JSON

`Json.read?` reads a whole text and keeps the fields of objects as they stand. Values may be nested
at most 127 deep. A number without point and exponent that fits sixty-four bits is an integer; any
other is the product of its leading digits, as many as fit sixty-four bits, and a power of ten,
both rounded before they are multiplied.
-/

namespace Tsql.Json

open Text

/-- Drops blanks, tabs and line ends. -/
def skipSpace (s : List Char) : List Char :=
  s.dropWhile fun c => c = ' ' || c = '\n' || c = '\t' || c = '\r'

def dropWord? : List Char → List Char → Option (List Char)
  | [], s => some s
  | c :: w, d :: s => if c = d then dropWord? w s else none
  | _ :: _, [] => none

/-- Four hexadecimal digits and the rest. -/
def takeHex? : List Char → Option (Nat × List Char)
  | a :: b :: c :: d :: r => do
    let high := 16 * (← hexValue? a) + (← hexValue? b)
    let low := 16 * (← hexValue? c) + (← hexValue? d)
    some (256 * high + low, r)
  | _ => none

/-- The character of an escape by number, two of which form a character beyond the first 65536. -/
def takeUnit? (s : List Char) : Option (Char × List Char) := do
  let (n, r) ← takeHex? s
  if 0xD800 ≤ n ∧ n < 0xDC00 then
    match r with
    | '\\' :: 'u' :: r => do
      let (m, r) ← takeHex? r
      if 0xDC00 ≤ m ∧ m < 0xE000 then
        some (Char.ofNat (0x10000 + (n - 0xD800) * 1024 + (m - 0xDC00)), r)
      else none
    | _ => none
  else if 0xDC00 ≤ n ∧ n < 0xE000 then none
  else some (Char.ofNat n, r)

/-- The character of an escape, after its backslash. -/
def takeEscape? : List Char → Option (Char × List Char)
  | '"' :: r => some ('"', r)
  | '\\' :: r => some ('\\', r)
  | '/' :: r => some ('/', r)
  | 'b' :: r => some (Char.ofNat 8, r)
  | 'f' :: r => some (Char.ofNat 12, r)
  | 'n' :: r => some ('\n', r)
  | 'r' :: r => some ('\r', r)
  | 't' :: r => some ('\t', r)
  | 'u' :: r => takeUnit? r
  | _ => none

/-- The characters of a string up to its closing quote; `fuel` is at least their number. -/
def takeString? : Nat → List Char → Option (List Char × List Char)
  | 0, _ => none
  | _, [] => none
  | fuel + 1, c :: r =>
    if c = '"' then some ([], r)
    else if c = '\\' then do
      let (d, r) ← takeEscape? r
      let (s, r) ← takeString? fuel r
      some (d :: s, r)
    else if c.toNat < 32 then none
    else do
      let (s, r) ← takeString? fuel r
      some (c :: s, r)

/-- The key of a field, and the rest after its colon. -/
def takeKey? (s : List Char) : Option (String × List Char) := do
  let (key, r) ← match skipSpace s with
    | '"' :: r => takeString? (r.length + 1) r
    | _ => none
  match skipSpace r with
  | ':' :: r => some (String.ofList key, r)
  | _ => none

/-- The greatest natural of sixty-four bits. -/
def maxWord : Nat := 18446744073709551615

/-- Reads digits into a number while it fits sixty-four bits; gives the number, how many digits went
into it, and the digits that did not fit. -/
def takeSignificand (m count : Nat) : List Char → Nat × Nat × List Char
  | [] => (m, count, [])
  | c :: r => match digitValue? c with
    | some d => if maxWord < 10 * m + d then (m, count, c :: r)
      else takeSignificand (10 * m + d) (count + 1) r
    | none => (m, count, c :: r)

/-- The product of two finite non-negative numbers. -/
def times (x y : Binary64) : Binary64 :=
  match x.shape, y.shape with
  | .finite _ m q, .finite _ n p => .ofShape _ (.finite false (m * n) (q + p))
  | _, _ => .infinity _ false

/-- The quotient of a finite non-negative number and a positive one. -/
def dividedBy (x y : Binary64) : Binary64 :=
  match x.shape, y.shape with
  | .finite _ m q, .finite _ n p =>
    .ofRatio _ false (m * twoPow (q - p).toNat) (n * twoPow (p - q).toNat)
  | _, _ => .pack _ false 0

def powerOfTen (e : Nat) : Binary64 := .ofRatio _ false (tenPow e) 1

/-- A number times a power of ten, nothing where the product is too great. Exponents below -308 are
taken in steps; after three of them nothing is left of any number of sixty-four bits. -/
def scaleTen? : Nat → Binary64 → Int → Option Binary64
  | 0, _, _ => some (.pack _ false 0)
  | fuel + 1, x, e =>
    if e.natAbs ≤ 308 then
      if 0 ≤ e then
        let y := times x (powerOfTen e.toNat)
        if y.isFinite then some y else none
      else some (dividedBy x (powerOfTen (-e).toNat))
    else if x = .pack _ false 0 then some x
    else if 0 ≤ e then none
    else scaleTen? fuel (dividedBy x (powerOfTen 308)) (e + 308)

def makeFloat? (negative : Bool) (m : Nat) (e : Int) : Option JsonNumber := do
  let x ← scaleTen? 4 (.ofRatio _ false m 1) e
  some (.float (match x.shape with
    | .finite _ m q => .ofShape _ (.finite negative m q)
    | s => .ofShape _ s))

def takeExponent? (s : List Char) : Option (Int × List Char) := do
  let (negative, r) := splitSign s
  let ds := r.takeWhile isDigit
  let n ← ofDigits? ds
  some (if negative then -(n : Int) else n, r.drop ds.length)

/-- What follows the digits of a number whose value so far is `m · 10 ^ e`: an exponent or nothing.
-/
def finishFloat? (negative : Bool) (m : Nat) (e : Int) (s : List Char) :
    Option (JsonNumber × List Char) :=
  match s with
  | 'e' :: r | 'E' :: r => do
    let (n, r) ← takeExponent? r
    some (← makeFloat? negative m (e + n), r)
  | r => do some (← makeFloat? negative m e, r)

def startsWithDigit (s : List Char) : Bool := (s.head?.map isDigit).getD false

/-- The digits before the point: their value, how many of the last did not fit, and the rest. A zero
stands alone. -/
def takeWhole? (s : List Char) : Option (Nat × Nat × List Char) :=
  match s with
  | '0' :: r => if startsWithDigit r then none else some (0, 0, r)
  | s =>
    if startsWithDigit s then
      let (m, _, r) := takeSignificand 0 0 s
      let more := r.takeWhile isDigit
      some (m, more.length, r.drop more.length)
    else none

def takeNumber? (negative : Bool) (s : List Char) : Option (JsonNumber × List Char) := do
  let (m, e, r) ← takeWhole? s
  match r with
  | '.' :: r =>
    if startsWithDigit r then
      let (m, places, r) := takeSignificand m 0 r
      finishFloat? negative m ((e : Int) - places) (r.dropWhile isDigit)
    else none
  | 'e' :: _ | 'E' :: _ => finishFloat? negative m e r
  | r =>
    if e = 0 ∧ !negative then some (.integer m, r)
    else if e = 0 ∧ negative ∧ 0 < m ∧ 2 * m ≤ maxWord + 1 then some (.integer (-(m : Int)), r)
    else (makeFloat? negative m e).map fun x => (x, r)

mutual

/-- A value, from its first character on. Each call uses up `fuel`; `depth` is how many levels of
nesting are left. -/
def takeValue? : Nat → Nat → List Char → Option (Json × List Char)
  | 0, _, _ => none
  | fuel + 1, depth, s =>
    match skipSpace s with
    | 'n' :: r => (dropWord? "ull".toList r).map fun r => (.null, r)
    | 't' :: r => (dropWord? "rue".toList r).map fun r => (.bool true, r)
    | 'f' :: r => (dropWord? "alse".toList r).map fun r => (.bool false, r)
    | '"' :: r => (takeString? (r.length + 1) r).map fun (s, r) => (.string (String.ofList s), r)
    | '[' :: r =>
      if depth ≤ 1 then none
      else match skipSpace r with
        | ']' :: r => some (.array [], r)
        | r => (takeItems? fuel (depth - 1) r).map fun (items, r) => (.array items, r)
    | '\x7b' :: r =>
      if depth ≤ 1 then none
      else match skipSpace r with
        | '\x7d' :: r => some (.object [], r)
        | r => (takeFields? fuel (depth - 1) r).map fun (fields, r) => (.object fields, r)
    | '-' :: r => (takeNumber? true r).map fun (n, r) => (.number n, r)
    | r => (takeNumber? false r).map fun (n, r) => (.number n, r)

/-- The items of an array, up to its closing bracket. -/
def takeItems? : Nat → Nat → List Char → Option (List Json × List Char)
  | 0, _, _ => none
  | fuel + 1, depth, s => do
    let (j, r) ← takeValue? fuel depth s
    match skipSpace r with
    | ',' :: r => do
      let (items, r) ← takeItems? fuel depth r
      some (j :: items, r)
    | ']' :: r => some ([j], r)
    | _ => none

/-- The fields of an object, up to its closing brace. -/
def takeFields? : Nat → Nat → List Char → Option (List (String × Json) × List Char)
  | 0, _, _ => none
  | fuel + 1, depth, s => do
    let (key, r) ← takeKey? s
    let (j, r) ← takeValue? fuel depth r
    match skipSpace r with
    | ',' :: r => do
      let (fields, r) ← takeFields? fuel depth r
      some ((key, j) :: fields, r)
    | '\x7d' :: r => some ([(key, j)], r)
    | _ => none

end

/-- The number of nested arrays and objects that is one too many. -/
def depthLimit : Nat := 128

/-- The value that a text holds, blanks around it allowed. -/
def read? (s : String) : Option Json :=
  let cs := s.toList
  match takeValue? (2 * cs.length + 2) depthLimit cs with
  | some (j, r) => if skipSpace r = [] then some j else none
  | none => none

end Tsql.Json
