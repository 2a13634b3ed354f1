import Tsql.Value.Type
import Tsql.Number.Decimal
import Tsql.Number.FloatText
import Tsql.Number.Width
import Tsql.Calendar.Printer
import Tsql.Guid

/-!
# Values

A `Value` is what a constant, a parameter or a cell of a data set holds. Every value but `null` has
exactly one natural type, `Value.type?`. `Value.integral?` makes the value of an integral type from
an integer, and `Value.asInt?` reads it back.
-/

namespace Tsql

inductive Value where
  | null
  | bool (b : Bool)
  | byte (n : UInt8)
  | int16 (n : Int16)
  | int32 (n : Int32)
  | int64 (n : Int64)
  | single (x : Binary32)
  | double (x : Binary64)
  | decimal (d : Decimal)
  | char (c : Char)
  | string (s : String)
  | bytes (b : List UInt8)
  | date (d : Date)
  | time (t : Time)
  | dateTime (d : DateTime)
  | dateTimeOffset (d : OffsetDateTime)
  | guid (g : Guid)
  deriving DecidableEq, Repr

namespace Value

def isNull : Value → Bool
  | null => true
  | _ => false

def asInt? : Value → Option Int
  | byte n => some n.toNat
  | int16 n => some n.toInt
  | int32 n => some n.toInt
  | int64 n => some n.toInt
  | _ => none

def type? : Value → Option ValueType
  | null => none
  | bool _ => some .boolean
  | byte _ => some .byte
  | int16 _ => some .int16
  | int32 _ => some .int32
  | int64 _ => some .int64
  | single _ => some .single
  | double _ => some .double
  | decimal _ => some .decimal
  | char _ => some .char
  | string _ => some .string
  | bytes _ => some .binary
  | date _ => some .date
  | time _ => some .time
  | dateTime _ => some .dateTime
  | dateTimeOffset _ => some .dateTimeOffset
  | guid _ => some .guid

/-- The value of an integral type that holds an integer, if the type is integral and it fits. -/
def integral? (t : ValueType) (i : Int) : Option Value :=
  match t with
  | .byte => if fitsByte i then some (byte (UInt8.ofNat i.toNat)) else none
  | .int16 => if fitsInt16 i then some (int16 (Int16.ofInt i)) else none
  | .int32 => if fitsInt32 i then some (int32 (Int32.ofInt i)) else none
  | .int64 => if fitsInt64 i then some (int64 (Int64.ofInt i)) else none
  | _ => none

def text : Value → String
  | null => "NULL"
  | bool b => if b then "true" else "false"
  | byte n => Text.natText n.toNat
  | int16 n => Text.intText n.toInt
  | int32 n => Text.intText n.toInt
  | int64 n => Text.intText n.toInt
  | single x => x.text .plain
  | double x => x.text .plain
  | decimal d => d.text
  | char c => String.ofList [c]
  | string s => s
  | bytes b => "<" ++ Text.natText b.length ++ " bytes>"
  | date d => d.text
  | time t => t.text
  | dateTime d => d.text
  | dateTimeOffset d => d.text
  | guid g => g.text

end Value

end Tsql
