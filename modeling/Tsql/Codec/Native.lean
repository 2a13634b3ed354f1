import Tsql.Error
import Tsql.SqlType.Mapping
import Tsql.Text.Escaped
import Tsql.Value.Basic

/-!
# Native values

A native value is what the database driver takes and gives. `toNative` is the native form of a
value for a SQL type, `decode` reads a native value as a logical type. An integral SQL type fixes
the width of the native integer, whatever the width of the value.
-/

namespace Tsql

open Text

/-- A value as the driver knows it. -/
inductive Native where
  | dbNull
  | bool (b : Bool)
  | u8 (n : UInt8)
  | i16 (n : Int16)
  | i32 (n : Int32)
  | i64 (n : Int64)
  | f32 (x : Binary32)
  | f64 (x : Binary64)
  | decimal (d : Decimal)
  | string (s : String)
  | bytes (b : List UInt8)
  | date (d : Date)
  | time (t : Time)
  | dateTime (d : DateTime)
  | dateTimeOffset (d : OffsetDateTime)
  | guid (g : Guid)
  deriving DecidableEq, Repr

namespace Native

def asInt? : Native → Option Int
  | u8 n => some n.toNat
  | i16 n => some n.toInt
  | i32 n => some n.toInt
  | i64 n => some n.toInt
  | _ => none

/-- Numbers separated by a comma and a blank. -/
def byteList (b : List UInt8) : String :=
  String.intercalate ", " (b.map fun n => natText n.toNat)

def kind : Native → String
  | dbNull => "DbNull"
  | bool _ => "Bool"
  | u8 _ => "U8"
  | i16 _ => "I16"
  | i32 _ => "I32"
  | i64 _ => "I64"
  | f32 _ => "F32"
  | f64 _ => "F64"
  | decimal _ => "Decimal"
  | string _ => "String"
  | bytes _ => "Bytes"
  | date _ => "Date"
  | time _ => "Time"
  | dateTime _ => "DateTime"
  | dateTimeOffset _ => "DateTimeOffset"
  | guid _ => "Guid"

/-- What a native value holds, as messages show it; `dbNull` holds nothing. -/
def inspectContent? : Native → Option String
  | dbNull => none
  | bool b => some (if b then "true" else "false")
  | u8 n => some (natText n.toNat)
  | i16 n => some (intText n.toInt)
  | i32 n => some (intText n.toInt)
  | i64 n => some (intText n.toInt)
  | f32 x => some (x.text .inspected)
  | f64 x => some (x.text .inspected)
  | decimal d => some d.text
  | string s => some (Text.inspect s)
  | bytes b => some ("[" ++ byteList b ++ "]")
  | date d => some d.text
  | time t => some t.text
  | dateTime d => some d.isoText
  | dateTimeOffset d => some d.inspect
  | guid g => some g.text

/-- A native value with the name of its kind, as messages show it. -/
def inspect (n : Native) : String :=
  match n.inspectContent? with
  | some content => n.kind ++ "(" ++ content ++ ")"
  | none => n.kind

end Native

/-- A value can be stored in a SQL type: its own type is accepted, or both are integral, or a text
goes into an XML type, or the SQL type is user-defined. `null` can be stored everywhere. -/
def storable (t : SqlType) (v : Value) : Bool :=
  match v.type? with
  | none => true
  | some vt =>
    accepts vt t.dbType || (vt.isIntegral && t.dbType.isIntegral) ||
      (vt == .string && t.dbType == .xml) || t.dbType == .udt

/-- Fails unless a value can be stored in a SQL type. -/
def ensureStorable (t : SqlType) (v : Value) : Result Unit :=
  match v.type? with
  | none => .ok ()
  | some vt =>
    if storable t v then .ok ()
    else .error (.notSupported s!"{vt.name} value for SQL type {t.sql}")

def Native.integral (t : DbType) (i : Int) : Result Native :=
  let ofValue (v : Option Value) (f : Value → Option Native) : Result Native :=
    match v.bind f with
    | some n => .ok n
    | none => .error (.argumentOutOfRange s!"value {intText i} does not fit SQL type {t.keyword}")
  match t with
  | .tinyInt => ofValue (Value.integral? .byte i) fun | .byte n => some (.u8 n) | _ => none
  | .smallInt => ofValue (Value.integral? .int16 i) fun | .int16 n => some (.i16 n) | _ => none
  | .int => ofValue (Value.integral? .int32 i) fun | .int32 n => some (.i32 n) | _ => none
  | _ => .ok (.i64 (Int64.ofInt i))

def Value.native : Value → Native
  | .null => .dbNull
  | .bool b => .bool b
  | .byte n => .u8 n
  | .int16 n => .i16 n
  | .int32 n => .i32 n
  | .int64 n => .i64 n
  | .single x => .f32 x
  | .double x => .f64 x
  | .decimal d => .decimal d
  | .char c => .string (String.ofList [c])
  | .string s => .string s
  | .bytes b => .bytes b
  | .date d => .date d
  | .time t => .time t
  | .dateTime d => .dateTime d
  | .dateTimeOffset d => .dateTimeOffset d
  | .guid g => .guid g

def Native.value : Native → Value
  | dbNull => .null
  | bool b => .bool b
  | u8 n => .byte n
  | i16 n => .int16 n
  | i32 n => .int32 n
  | i64 n => .int64 n
  | f32 x => .single x
  | f64 x => .double x
  | decimal d => .decimal d
  | string s => .string s
  | bytes b => .bytes b
  | date d => .date d
  | time t => .time t
  | dateTime d => .dateTime d
  | dateTimeOffset d => .dateTimeOffset d
  | guid g => .guid g

def toNative (t : SqlType) (v : Value) : Result Native := do
  ensureStorable t v
  match v.asInt?, t.dbType.isIntegral with
  | some i, true => Native.integral t.dbType i
  | _, _ => .ok v.native

def singleChar? (s : String) : Option Char :=
  match s.toList with
  | [c] => some c
  | _ => none

/-- The value of a logical type that a native value holds, apart from `dbNull`. -/
def decode? (t : ValueType) (n : Native) : Option Value :=
  match t, n with
  | .boolean, .bool b => some (.bool b)
  | .byte, n | .int16, n | .int32, n | .int64, n => n.asInt?.bind (Value.integral? t)
  | .single, .f32 x => some (.single x)
  | .double, .f64 x => some (.double x)
  | .double, .f32 x => some (.double (x.convert _))
  | .decimal, .decimal d => some (.decimal d)
  | .char, .string s | .enum _ .char, .string s => (singleChar? s).map .char
  | .string, .string s | .xml, .string s => some (.string s)
  | .binary, .bytes b => some (.bytes b)
  | .date, .date d => some (.date d)
  | .time, .time x => some (.time x)
  | .dateTime, .dateTime d => some (.dateTime d)
  | .dateTimeOffset, .dateTimeOffset d => some (.dateTimeOffset d)
  | .guid, .guid g => some (.guid g)
  | .enum _ storage, n => n.asInt?.bind (Value.integral? storage.valueType)
  | _, _ => none

/-- Reads a native value as a logical type; `dbNull` is `null` of every type. -/
def decode (t : ValueType) (n : Native) : Result Value :=
  match n with
  | .dbNull => .ok .null
  | n => match decode? t n with
    | some v => .ok v
    | none => .error (.serialization s!"cannot decode {n.inspect} as {t.name}")

end Tsql
