import Tsql.Toml.Number
import Tsql.Toml.Table

/-!
# Reading TOML

`Toml.read?` reads a whole document into a JSON value; dates become texts, numbers that are not
finite become `null`.
-/

namespace Tsql.Toml

/-- A value without parts: a text, a truth value, a moment or a number. -/
def takePlain? (s : List Char) : Option (Node × List Char) :=
  match s with
  | '"' :: _ | '\'' :: _ =>
    (takeString? s).map fun (text, r) => (.scalar (.string (String.ofList text)), r)
  | 't' :: 'r' :: 'u' :: 'e' :: r => some (.scalar (.bool true), r)
  | 'f' :: 'a' :: 'l' :: 's' :: 'e' :: r => some (.scalar (.bool false), r)
  | s =>
    if startsMoment s then
      (takeMoment? s).map fun (text, r) => (.moment (String.ofList text), r)
    else (takeNumber? s).map fun (n, r) => (.scalar n, r)

mutual

/-- A value. Each call uses up `fuel`; `depth` is how many levels of nesting are left. -/
def takeValue? : Nat → Nat → List Char → Option (Node × List Char)
  | 0, _, _ => none
  | fuel + 1, depth, s =>
    match s with
    | '[' :: r =>
      if depth ≤ 1 then none
      else (takeItems? fuel (depth - 1) r).map fun (items, r) => (.array items, r)
    | '\x7b' :: r =>
      if depth ≤ 1 then none
      else
        match skipSpace r with
        | '\x7d' :: r => some (.table .closed [], r)
        | _ => (takePairs? fuel (depth - 1) [] r).map fun (fields, r) =>
          (.table .closed fields, r)
    | s => takePlain? s

/-- The items of an array, up to its closing bracket. A comma may follow the last one. -/
def takeItems? : Nat → Nat → List Char → Option (List Node × List Char)
  | 0, _, _ => none
  | fuel + 1, depth, s => do
    match ← skipLines? false s with
    | ']' :: r => some ([], r)
    | s => do
      let (item, r) ← takeValue? fuel depth s
      match ← skipLines? false r with
      | ',' :: r => do
        let (items, r) ← takeItems? fuel depth r
        some (item :: items, r)
      | ']' :: r => some ([item], r)
      | _ => none

/-- The entries of an inline table, up to its closing brace. -/
def takePairs? : Nat → Nat → Fields → List Char → Option (Fields × List Char)
  | 0, _, _, _ => none
  | fuel + 1, depth, fields, s => do
    let (key, r) ← takeKey? s
    let (value, r) ← takeValue? fuel depth (skipSpace (← takeMark? '=' r))
    let fields ← define? key value fields
    match skipSpace r with
    | ',' :: r => takePairs? fuel depth fields r
    | '\x7d' :: r => some (fields, r)
    | _ => none

end

/-- A document read so far: its tables, and the header that entries now belong to. -/
structure Draft where
  root : Fields := []
  header : List String := []

/-- A header between single brackets, after the first of them. -/
def Draft.takeHeader? (d : Draft) (s : List Char) : Option (Draft × List Char) := do
  let (key, r) ← takeKey? s
  let r ← finishLine? (← takeMark? ']' r)
  some ({ root := ← openTable? key d.root, header := key.1 ++ [key.2] }, r)

/-- A repeated header between double brackets, after the first two. -/
def Draft.takeRepeated? (d : Draft) (s : List Char) : Option (Draft × List Char) := do
  let (key, r) ← takeKey? s
  let r ← finishLine? (← takeMark? ']' (← takeMark? ']' r))
  some ({ root := ← openElement? key d.root, header := key.1 ++ [key.2] }, r)

/-- A key with its value; `fuel` is at least the number of characters. -/
def Draft.takeEntry? (d : Draft) (fuel : Nat) (s : List Char) : Option (Draft × List Char) := do
  let (key, r) ← takeKey? s
  let (value, r) ← takeValue? fuel depthLimit (skipSpace (← takeMark? '=' r))
  let r ← finishLine? r
  some ({ d with root := ← defineUnder? d.header key value d.root }, r)

/-- Reads the lines of a document; each uses up `fuel`. -/
def Draft.read? : Nat → Draft → List Char → Option Draft
  | 0, _, _ => none
  | fuel + 1, d, s =>
    match skipSpace s with
    | [] => some d
    | '\n' :: r => Draft.read? fuel d r
    | '\r' :: r => (takeLineEnd? ('\r' :: r)).bind (Draft.read? fuel d)
    | '#' :: r => (finishLine? ('#' :: r)).bind (Draft.read? fuel d)
    | '[' :: '[' :: r => (d.takeRepeated? r).bind fun (d, r) => Draft.read? fuel d r
    | '[' :: r => (d.takeHeader? r).bind fun (d, r) => Draft.read? fuel d r
    | s => (d.takeEntry? fuel s).bind fun (d, r) => Draft.read? fuel d r

def dropMark : List Char → List Char
  | '\ufeff' :: r => r
  | s => s

def read? (s : String) : Option Json := do
  let cs := dropMark s.toList
  let d ← Draft.read? (cs.length + 1) {} cs
  tableJson? d.root

end Tsql.Toml
