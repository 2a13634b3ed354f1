import Tsql.Json.Reader

/-!
# Reading some fields of an object

`Json.readFields?` reads a text and keeps, of an object, the fields of some keys only. A value that
is not kept has to be well formed, but it is not read: its numbers may be of any size, its strings
may name half a character, and it may be nested as deep as it likes.
-/

namespace Tsql.Json

open Text

/-- Drops the rest of a string after its opening quote. -/
def dropString? : List Char → Option (List Char)
  | [] => none
  | '"' :: r => some r
  | '\\' :: 'u' :: a :: b :: c :: d :: r =>
    if [a, b, c, d].all fun h => (hexValue? h).isSome then dropString? r else none
  | '\\' :: c :: r => if "\"\\/bfnrt".toList.contains c then dropString? r else none
  | c :: r => if c.toNat < 32 then none else dropString? r

def dropDigits? (s : List Char) : Option (List Char) :=
  if startsWithDigit s then some (s.dropWhile isDigit) else none

def dropExponent? : List Char → Option (List Char)
  | 'e' :: r | 'E' :: r => dropDigits? (splitSign r).2
  | r => some r

/-- Drops the digits before the point. A zero stands alone. -/
def dropWhole? : List Char → Option (List Char)
  | '0' :: r => if startsWithDigit r then none else some r
  | r => dropDigits? r

def dropNumber? (s : List Char) : Option (List Char) := do
  match ← dropWhole? s with
  | '.' :: r => dropExponent? (← dropDigits? r)
  | r => dropExponent? r

def dropKey? (s : List Char) : Option (List Char) := do
  let r ← match skipSpace s with
    | '"' :: r => dropString? r
    | _ => none
  match skipSpace r with
  | ':' :: r => some r
  | _ => none

mutual

def dropValue? : Nat → List Char → Option (List Char)
  | 0, _ => none
  | fuel + 1, s =>
    match skipSpace s with
    | 'n' :: r => dropWord? "ull".toList r
    | 't' :: r => dropWord? "rue".toList r
    | 'f' :: r => dropWord? "alse".toList r
    | '"' :: r => dropString? r
    | '[' :: r => match skipSpace r with
      | ']' :: r => some r
      | r => dropItems? fuel r
    | '\x7b' :: r => match skipSpace r with
      | '\x7d' :: r => some r
      | r => dropFields? fuel r
    | '-' :: r => dropNumber? r
    | r => dropNumber? r

/-- Drops the items of an array and its closing bracket. -/
def dropItems? : Nat → List Char → Option (List Char)
  | 0, _ => none
  | fuel + 1, s => do
    match skipSpace (← dropValue? fuel s) with
    | ',' :: r => dropItems? fuel r
    | ']' :: r => some r
    | _ => none

/-- Drops the fields of an object and its closing brace. -/
def dropFields? : Nat → List Char → Option (List Char)
  | 0, _ => none
  | fuel + 1, s => do
    let r ← dropKey? s
    match skipSpace (← dropValue? fuel r) with
    | ',' :: r => dropFields? fuel r
    | '\x7d' :: r => some r
    | _ => none

end

def takeField? (keys : List String) (s : List Char) :
    Option (List (String × Json) × List Char) := do
  let (key, r) ← takeKey? s
  if keys.contains key then
    let (j, r) ← takeValue? (2 * r.length + 2) (depthLimit - 1) r
    some ([(key, j)], r)
  else
    let r ← dropValue? (2 * r.length + 2) r
    some ([], r)

/-- The fields of some keys, up to the closing brace of their object. -/
def takeFieldsOf? (keys : List String) : Nat → List Char →
    Option (List (String × Json) × List Char)
  | 0, _ => none
  | fuel + 1, s => do
    let (here, r) ← takeField? keys s
    match skipSpace r with
    | ',' :: r => do
      let (more, r) ← takeFieldsOf? keys fuel r
      some (here ++ more, r)
    | '\x7d' :: r => some (here, r)
    | _ => none

/-- The value that a text holds; of an object, the fields of some keys. -/
def readFields? (keys : List String) (s : String) : Option Json :=
  match skipSpace s.toList with
  | '\x7b' :: r =>
    match skipSpace r with
    | '\x7d' :: r => if skipSpace r = [] then some (.object []) else none
    | r => match takeFieldsOf? keys (r.length + 1) r with
      | some (fields, r) => if skipSpace r = [] then some (.object fields) else none
      | none => none
  | _ => read? s

end Tsql.Json
