/-!
# Logical types

The type of a column or of an expression, independent of how a database stores it. An enumeration is
known by its name and by how its members are stored; a custom type by its name alone.
-/

namespace Tsql

/-- How the members of an enumeration are stored. -/
inductive EnumStorage where
  | char | byte | int16 | int32 | int64
  deriving DecidableEq, Repr

inductive ValueType where
  | boolean | byte | int16 | int32 | int64 | single | double | decimal | char | string | binary
  | date | time | dateTime | dateTimeOffset | guid | xml
  | enum (name : String) (storage : EnumStorage)
  | custom (name : String)
  deriving DecidableEq, Repr

def EnumStorage.all : List EnumStorage := [.char, .byte, .int16, .int32, .int64]

namespace ValueType

def basic : List ValueType :=
  [boolean, byte, int16, int32, int64, single, double, decimal, char, string, binary, date, time,
    dateTime, dateTimeOffset, guid, xml]

def isIntegral : ValueType → Bool
  | byte | int16 | int32 | int64 => true
  | _ => false

def name : ValueType → String
  | boolean => "Boolean"
  | byte => "Byte"
  | int16 => "Int16"
  | int32 => "Int32"
  | int64 => "Int64"
  | single => "Single"
  | double => "Double"
  | decimal => "Decimal"
  | char => "Char"
  | string => "String"
  | binary => "Binary"
  | date => "Date"
  | time => "Time"
  | dateTime => "DateTime"
  | dateTimeOffset => "DateTimeOffset"
  | guid => "Guid"
  | xml => "Xml"
  | enum n _ => n
  | custom n => n

end ValueType

/-- The logical type of an enumeration's stored members. -/
def EnumStorage.valueType : EnumStorage → ValueType
  | char => .char
  | byte => .byte
  | int16 => .int16
  | int32 => .int32
  | int64 => .int64

end Tsql
