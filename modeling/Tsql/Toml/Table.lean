import Tsql.Json.Basic
import Tsql.Toml.Moment

/-!
# Tables of TOML

A document fills tables through headers and dotted keys, and none may be defined twice. A `Node`
knows how its table came about: a header of its own, a longer header, a dotted key, or braces.
`update?` follows a path from table to table, making those that do not exist yet. `Node.json?` is
the JSON value of a node; a table whose first key is `momentKey` is a moment written as a table.
-/

namespace Tsql.Toml

/-- How a table came about. -/
inductive Origin where
  /-- By a header of its own. -/
  | header
  /-- As a part of a longer header. -/
  | implied
  /-- As a part of a dotted key. -/
  | dotted
  /-- Between braces; nothing more goes into it. -/
  | closed
  deriving DecidableEq, Repr

/-- A value or a table under a key. -/
inductive Node where
  /-- A text, a number or a truth value. -/
  | scalar (value : Json)
  /-- A date or a time. -/
  | moment (text : String)
  | array (items : List Node)
  | table (origin : Origin) (fields : List (String × Node))
  /-- Tables under one repeated header, the latest first. -/
  | tables (elements : List (List (String × Node)))

/-- The entries of a table, in the order of their definition. -/
abbrev Fields := List (String × Node)

def getNode? (key : String) (fields : Fields) : Option Node := fields.lookup key

def putNode (key : String) (node : Node) : Fields → Fields
  | [] => [(key, node)]
  | (k, n) :: r => if k = key then (key, node) :: r else (k, n) :: putNode key node r

def dropNode (key : String) (fields : Fields) : Fields := fields.eraseP fun (k, _) => k == key

/-- Changes the table at the end of a path. A dotted path does not go through tables with a header
of their own; a header goes into the latest of repeated tables. -/
def update? (isDotted : Bool) (change : Origin → Fields → Option Fields) (origin : Origin)
    (fields : Fields) : List String → Option Fields
  | [] => change origin fields
  | key :: path => match getNode? key fields with
    | none => do
      let made := if isDotted then .dotted else .implied
      let inner ← update? isDotted change made [] path
      some (putNode key (.table made inner) fields)
    | some (.scalar _) | some (.moment _) | some (.array _) => none
    | some (.table o inner) =>
      if o == .closed || (isDotted && o == .header) then none
      else do
        let inner ← update? isDotted change o inner path
        some (putNode key (.table o inner) fields)
    | some (.tables []) => none
    | some (.tables (latest :: earlier)) => do
      let inner ← update? isDotted change .header latest path
      some (putNode key (.tables (inner :: earlier)) fields)

def enter? (key : String) (value : Node) (fields : Fields) : Option Fields :=
  match getNode? key fields with
  | none => some (putNode key value fields)
  | some _ => none

/-- Enters a value under a dotted key. The table it goes into has to come from dotted keys, unless
the key has only one part. -/
def define? (key : List String × String) (value : Node) (fields : Fields) : Option Fields :=
  update? true
    (fun origin inner =>
      if (origin == .dotted) == key.1.isEmpty then none else enter? key.2 value inner)
    .header fields key.1

/-- Opens the table of a header. Only a table known from longer headers may be there; its place is
then behind the other entries. -/
def openTable? (key : List String × String) (root : Fields) : Option Fields :=
  update? false
    (fun _ parent => match getNode? key.2 parent with
      | none => some (putNode key.2 (.table .header []) parent)
      | some (.table .implied inner) => 
        some (putNode key.2 (.table .header inner) (dropNode key.2 parent))
      | some _ => none)
    .header root key.1

/-- Opens one more table of a repeated header. -/
def openElement? (key : List String × String) (root : Fields) : Option Fields :=
  update? false
    (fun _ parent => match getNode? key.2 parent with
      | none => some (putNode key.2 (.tables [[]]) parent)
      | some (.tables earlier) => some (putNode key.2 (.tables ([] :: earlier)) parent)
      | some _ => none)
    .header root key.1

/-- Enters a value under a dotted key of the table of a header. -/
def defineUnder? (header : List String) (key : List String × String) (value : Node)
    (root : Fields) : Option Fields :=
  update? false (fun _ fields => define? key value fields) .header root header

def momentKey : String := "$__toml_private_datetime"

def Node.momentText? : Node → Option String
  | .scalar (.string s) => (readMoment? s.toList).map String.ofList
  | _ => none

mutual

/-- A node as a JSON value; nothing if a table inside it should be a moment and is not. -/
def Node.json? : Node → Option Json
  | .scalar j => some j
  | .moment s => some (.string s)
  | .array items => (itemsJson? items).map .array
  | .table _ fields => tableJson? fields
  | .tables elements => (elementsJson? elements).map fun items => .array items.reverse

def itemsJson? : List Node → Option (List Json)
  | [] => some []
  | n :: r => do some ((← n.json?) :: (← itemsJson? r))

/-- A table as an object, or as the moment that it writes; what follows a moment counts for
nothing. -/
def tableJson? : List (String × Node) → Option Json
  | [] => some (.object [])
  | (k, n) :: r =>
    if k = momentKey then n.momentText?.map .string
    else do some (.object ((k, ← n.json?) :: (← fieldsJson? r)))

def fieldsJson? : List (String × Node) → Option (List (String × Json))
  | [] => some []
  | (k, n) :: r => do some ((k, ← n.json?) :: (← fieldsJson? r))

def elementsJson? : List (List (String × Node)) → Option (List Json)
  | [] => some []
  | fields :: r => do some ((← tableJson? fields) :: (← elementsJson? r))

end

end Tsql.Toml
