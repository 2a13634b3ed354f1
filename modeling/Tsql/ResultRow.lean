import Tsql.Codec.Native

/-!
# Result rows

A row that the database answers with: names of columns and their native values. A cell is found by
name or by position and read as one kind of value; reading an optional value accepts `dbNull`.
-/

namespace Tsql

open Text

structure ResultRow where
  columns : List String
  values : List Native
  deriving DecidableEq, Repr

/-- A way to read a native value. -/
inductive Reading where
  | int64 | int32 | float | bool | decimal | string | bytes | date | time | dateTime
  | dateTimeOffset | guid | native
  deriving DecidableEq, Repr

namespace Reading

def all : List Reading :=
  [int64, int32, float, bool, decimal, string, bytes, date, time, dateTime, dateTimeOffset, guid,
    native]

def expected : Reading → String
  | int64 | int32 => "integer"
  | float => "float"
  | bool => "Bool"
  | decimal => "Decimal"
  | string => "String"
  | bytes => "Bytes"
  | date => "Date"
  | time => "Time"
  | dateTime => "DateTime"
  | dateTimeOffset => "DateTimeOffset"
  | guid => "Guid"
  | native => "value"

def mismatch (r : Reading) (n : Native) : Error :=
  .database s!"Expected {r.expected}, got {n.inspect}"

/-- A native integer of thirty-two bits. -/
def narrow (i : Int) : Result Native :=
  if fitsInt32 i then .ok (.i32 (Int32.ofInt i))
  else
    let side := if i < 0 then "small" else "large"
    .error (.database s!"Integer value out of i32 range: number too {side} to fit in target type")

def readInt (r : Reading) (n : Native) : Result Int :=
  match n.asInt? with
  | some i => .ok i
  | none => .error (r.mismatch n)

/-- Reads a native value; integers and floating-point numbers may be of another width. -/
def read (r : Reading) (n : Native) : Result Native :=
  match r, n with
  | native, n => .ok n
  | int64, n => do .ok (.i64 (Int64.ofInt (← r.readInt n)))
  | int32, n => do narrow (← r.readInt n)
  | float, .f64 x => .ok (.f64 x)
  | float, .f32 x => .ok (.f64 (x.convert _))
  | bool, .bool b => .ok (.bool b)
  | decimal, .decimal d => .ok (.decimal d)
  | string, .string s => .ok (.string s)
  | bytes, .bytes b => .ok (.bytes b)
  | date, .date d => .ok (.date d)
  | time, .time t => .ok (.time t)
  | dateTime, .dateTime d => .ok (.dateTime d)
  | dateTimeOffset, .dateTimeOffset d => .ok (.dateTimeOffset d)
  | guid, .guid g => .ok (.guid g)
  | r, n => .error (r.mismatch n)

def readOptional (r : Reading) (n : Native) : Result (Option Native) :=
  match n with
  | .dbNull => .ok none
  | n => (r.read n).map some

end Reading

namespace ResultRow

def make? (columns : List String) (values : List Native) : Option ResultRow :=
  if columns.length = values.length then some ⟨columns, values⟩ else none

def size (r : ResultRow) : Nat := r.columns.length

def position? (r : ResultRow) (column : String) : Option Nat := r.columns.findIdx? (· == column)

def named (r : ResultRow) (column : String) : Result Native :=
  match r.position? column with
  | some i => match r.values[i]? with
    | some n => .ok n
    | none => .error (missing column)
  | none => .error (missing column)
where
  /-- There is no such column. -/
  missing (column : String) : Error := .database s!"Column '{column}' not found in row"

def valueAt (r : ResultRow) (i : Nat) : Result Native :=
  match r.values[i]? with
  | some n => .ok n
  | none => .error (.database (s!"Column index {natText i} out of bounds"
      ++ s!" (row has {natText r.values.length} columns)"))

/-- Reads the value at a position as a logical type. -/
def decodeAt (r : ResultRow) (i : Nat) (t : ValueType) : Result Value :=
  match r.values[i]? with
  | some n => decode t n
  | none => .error (.database s!"Column index {natText i} out of bounds")

/-- Reads the first column of a name as a logical type. -/
def decodeNamed (r : ResultRow) (column : String) (t : ValueType) : Result Value := do
  decode t (← r.named column)

end ResultRow

end Tsql
