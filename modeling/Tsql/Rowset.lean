import Tsql.Codec.Native
import Tsql.DataSet
import Tsql.Json.Printer
import Tsql.Model.Bindings
import Tsql.Text.Base64

/-!
# JSON rowsets

The rows of a data set can be sent as one text parameter: a JSON array with an object for each row,
keyed by column names and `sys_row_id` for the row's position. `Native.json` is the form of a value
that the database reads back: dates with a `T` and the column's number of fractional digits,
decimals as texts, bytes in base 64.
-/

namespace Tsql

open Text

/-- A floating-point number in JSON; only finite numbers have a form. -/
def floatJson (x : Binary64) : Result Json :=
  if x.isFinite then .ok (.number (.float x))
  else .error (.argumentOutOfRange s!"floating point value {x.text .plain} has no JSON form")

def charsJson (s : List Char) : Json := .string (String.ofList s)

/-- A native value in JSON, fractions of a second cut to a number of digits. -/
def Native.json (digitCount : Nat) : Native → Result Json
  | dbNull => .ok .null
  | bool b => .ok (.bool b)
  | u8 n => .ok (.ofInt n.toNat)
  | i16 n => .ok (.ofInt n.toInt)
  | i32 n => .ok (.ofInt n.toInt)
  | i64 n => .ok (.ofInt n.toInt)
  | f32 x => floatJson (x.convert _)
  | f64 x => floatJson x
  | decimal d => .ok (.string d.text)
  | string s => .ok (.string s)
  | bytes b => .ok (.string (base64Text b))
  | date d => .ok (.string d.text)
  | time t => .ok (charsJson (t.cutChars digitCount))
  | dateTime d => .ok (charsJson (d.date.chars ++ 'T' :: d.time.cutChars digitCount))
  | dateTimeOffset d => .ok (charsJson
      (d.clock.date.chars ++ 'T' :: d.clock.time.cutChars digitCount ++ offsetMinutes d.offset))
  | guid g => .ok (.string g.text)

def jsonValue (t : SqlType) (v : Value) : Result Json := do
  (← toNative t v).json t.fractionalDigits

def rowIdName : String := "sys_row_id"

/-- A column that is sent: its position, name and type. -/
structure ShippedColumn where
  ordinal : Nat
  name : String
  type : SqlType
  deriving DecidableEq, Repr

def DataSet.shipped (d : DataSet) (types : TypeMap) (f : Field) : Result ShippedColumn := do
  .ok { ordinal := ← d.ordinal f, name := f.name, type := ← types.resolve f }

def aboutCell (position : Nat) (column : String) : Error → Error
  | .notSupported s | .argumentOutOfRange s =>
    .serialization s!"row {natText position}, column '{column}': {s}"
  | e => e

def DataRow.field (r : DataRow) (position : Nat) (c : ShippedColumn) : Result (String × Json) :=
  match jsonValue c.type (r.values[c.ordinal]?.getD .null) with
  | .ok j => .ok (c.name, j)
  | .error e => .error (aboutCell position c.name e)

def DataRow.json (columns : List ShippedColumn) (r : DataRow) (position : Nat) : Result Json := do
  let fields ← columns.mapM (r.field position)
  .ok (.object (Json.orderFields ((rowIdName, .ofInt position) :: fields)))

/-- Some columns of all rows as an array of objects. -/
def DataSet.json (d : DataSet) (types : TypeMap) (columns : List Field) : Result Json := do
  let layout ← columns.mapM (d.shipped types)
  let rows ← d.rows.zipIdx.mapM fun (r, position) => r.json layout position
  .ok (.array rows)

def DataSet.jsonText (d : DataSet) (types : TypeMap) (columns : List Field) : Result String :=
  (d.json types columns).map Json.text

/-- A data set as a row source. -/
structure Rowset where
  /-- The row positions, then the columns that were sent. -/
  model : Model
  rowId : Column
  param : Param
  /-- The value that the parameter is bound to. -/
  text : String

/-- Sends some columns of a data set. The model shares the columns, and with them their types. -/
def Rowset.build (supply : Supply) (d : DataSet) (types : TypeMap) (columns : List Column) :
    Result (Rowset × Supply) := do
  let text ← d.jsonText types (columns.map Column.toField)
  let (modelId, supply) := supply.takeModel
  let (columnId, supply) := supply.takeColumn
  let (paramId, supply) := supply.takeParam
  let param : Param := ⟨paramId, .string⟩
  let rowId : Column := { id := columnId, name := rowIdName, type := .int32 }
  let model := { Model.empty modelId d.model.aliasStem (.jsonRowset param) with
    columns := rowId :: columns }
  .ok ({ model, rowId, param, text }, supply)

end Tsql
