import Tsql.Value.Basic
import Tsql.Calendar.Reader
import Tsql.Json.Fields
import Tsql.Json.Printer

/-!
# Tagged JSON form of a value

A value is stored as an object with its kind under `type` and its content under `value`; `null` has
no content. Reading takes the two entries in either order among others, or as an array of two.
-/

namespace Tsql

inductive ValueKind where
  | null | bool | byte | int16 | int32 | int64 | single | double | decimal | char | string | bytes
  | date | time | dateTime | dateTimeOffset | guid
  deriving DecidableEq, Repr

namespace ValueKind

def name : ValueKind → String
  | null => "Null"
  | bool => "Bool"
  | byte => "Byte"
  | int16 => "Int16"
  | int32 => "Int32"
  | int64 => "Int64"
  | single => "Single"
  | double => "Double"
  | decimal => "Decimal"
  | char => "Char"
  | string => "String"
  | bytes => "Bytes"
  | date => "Date"
  | time => "Time"
  | dateTime => "DateTime"
  | dateTimeOffset => "DateTimeOffset"
  | guid => "Guid"

def all : List ValueKind :=
  [null, bool, byte, int16, int32, int64, single, double, decimal, char, string, bytes, date, time,
    dateTime, dateTimeOffset, guid]

def ofName? (s : String) : Option ValueKind := all.find? fun k => k.name == s

end ValueKind

namespace Value

def kind : Value → ValueKind
  | null => .null
  | bool _ => .bool
  | byte _ => .byte
  | int16 _ => .int16
  | int32 _ => .int32
  | int64 _ => .int64
  | single _ => .single
  | double _ => .double
  | decimal _ => .decimal
  | char _ => .char
  | string _ => .string
  | bytes _ => .bytes
  | date _ => .date
  | time _ => .time
  | dateTime _ => .dateTime
  | dateTimeOffset _ => .dateTimeOffset
  | guid _ => .guid

def contentText? : Value → Option String
  | null => none
  | bool b => some (Json.text (.bool b))
  | byte n => some (Text.natText n.toNat)
  | int16 n => some (Text.intText n.toInt)
  | int32 n => some (Text.intText n.toInt)
  | int64 n => some (Text.intText n.toInt)
  | single x => some (Json.floatText x)
  | double x => some (Json.floatText x)
  | decimal d => some (Json.stringText d.text)
  | char c => some (Json.stringText (String.ofList [c]))
  | string s => some (Json.stringText s)
  | bytes b => some (Json.text (.array (b.map fun n => Json.ofInt n.toNat)))
  | date d => some (Json.stringText d.text)
  | time t => some (Json.stringText t.text)
  | dateTime d => some (Json.stringText d.isoText)
  | dateTimeOffset d => some (Json.stringText d.isoText)
  | guid g => some (Json.stringText g.text)

def taggedText (v : Value) : String :=
  let head := "\x7b\"type\":" ++ Json.stringText v.kind.name
  match v.contentText? with
  | some content => head ++ ",\"value\":" ++ content ++ "\x7d"
  | none => head ++ "\x7d"

def floatOfJson? (l : Layout) : Json → Option (Floating l)
  | .number (.integer i) => some (.ofInt l i)
  | .number (.float x) => some (x.convert l)
  | _ => none

def decimalOfJson? : Json → Option Decimal
  | .string s => Decimal.read? s.toList
  | .number (.integer i) => Decimal.ofInt? i
  | .number (.float x) => Decimal.read? (x.text .plain).toList
  | _ => none

def byteOfJson? : Json → Option UInt8
  | .number (.integer i) => if fitsByte i then some (UInt8.ofNat i.toNat) else none
  | _ => none

def ofContent? (kind : ValueKind) (content : Json) : Option Value :=
  match kind, content with
  | .null, .null => some .null
  | .bool, .bool b => some (.bool b)
  | .byte, .number (.integer i) => integral? .byte i
  | .int16, .number (.integer i) => integral? .int16 i
  | .int32, .number (.integer i) => integral? .int32 i
  | .int64, .number (.integer i) => integral? .int64 i
  | .single, j => (floatOfJson? _ j).map .single
  | .double, j => (floatOfJson? _ j).map .double
  | .decimal, j => (decimalOfJson? j).map .decimal
  | .char, .string s => match s.toList with
    | [c] => some (.char c)
    | _ => none
  | .string, .string s => some (.string s)
  | .bytes, .array items => (items.mapM byteOfJson?).map .bytes
  | .date, .string s => (readLooseDate? s.toList).map .date
  | .time, .string s => (readLooseTime? s.toList).map .time
  | .dateTime, .string s => (readLooseDateTime? s.toList).map .dateTime
  | .dateTimeOffset, .string s => (readLooseOffsetDateTime? s.toList).map .dateTimeOffset
  | .guid, .string s => (Guid.read? s.toList).map .guid
  | _, _ => none

/-- The kind that a tag names: a text, or an object whose only entry is that name without content.
-/
def kindOfTag? : Json → Option ValueKind
  | .string s => ValueKind.ofName? s
  | .object [(s, .null)] => ValueKind.ofName? s
  | _ => none

def tagKeys : List String := ["type", "value"]

/-- The value of a tagged form. A tag and a content may each occur once. -/
def ofTagged? : Json → Option Value
  | .array [.string tag, content] => do ofContent? (← ValueKind.ofName? tag) content
  | .object [("type", tag)] => match kindOfTag? tag with
    | some .null => some .null
    | _ => none
  | .object [("type", tag), ("value", content)] => do ofContent? (← kindOfTag? tag) content
  | .object [("value", content), ("type", tag)] => do ofContent? (← kindOfTag? tag) content
  | _ => none

/-- The value whose tagged form a text holds. Fields of other keys count for nothing. -/
def read? (s : String) : Option Value := (Json.readFields? tagKeys s).bind ofTagged?

end Value

end Tsql
