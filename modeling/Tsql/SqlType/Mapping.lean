import Tsql.Model.Field
import Tsql.SqlType.Basic

/-!
# From logical types to SQL types

`accepts` says which SQL types can store a logical type. `defaultType` is the SQL type that a
logical type has unless its column is configured otherwise; a `TypeMap` holds such configurations.
A `TypeMapper` also remembers the types of enumerations it has looked up, which changes no answer.
-/

namespace Tsql

def accepts (v : ValueType) (t : DbType) : Bool :=
  match v with
  | .boolean => t == .bit
  | .byte => t == .tinyInt
  | .int16 => t == .smallInt
  | .int32 => t == .int
  | .int64 => t == .bigInt
  | .single => t == .real
  | .double => t == .float
  | .decimal => t == .decimal || t == .money || t == .smallMoney
  | .char | .string => t.isCharacter
  | .binary => t == .binary || t == .varBinary
  | .date => t == .date
  | .time => t == .time
  | .dateTime => t == .smallDateTime || t == .dateTime || t == .dateTime2
  | .dateTimeOffset => t == .dateTimeOffset
  | .guid => t == .uniqueIdentifier
  | .xml => t == .xml
  | .enum _ .char => t.isCharacter
  | .enum _ _ => t.isIntegral
  | .custom _ => true

/-- The SQL type of an enumeration's stored members. -/
def EnumStorage.sqlType : EnumStorage → SqlType
  | char => .char 1
  | byte => .tinyInt
  | int16 => .smallInt
  | int32 => .int
  | int64 => .bigInt

/-- The SQL type of a logical type; a custom type has none. -/
def defaultType : ValueType → Result SqlType
  | .boolean => .ok .bit
  | .byte => .ok .tinyInt
  | .int16 => .ok .smallInt
  | .int32 => .ok .int
  | .int64 => .ok .bigInt
  | .single => .ok .real
  | .double => .ok .float
  | .decimal => .ok (.decimal 18 2)
  | .char => .ok (.nChar 1)
  | .string => .ok (.nVarChar .max)
  | .binary => .ok (.varBinary .max)
  | .date => .ok .date
  | .time => .ok (.time 7)
  | .dateTime => .ok (.dateTime2 7)
  | .dateTimeOffset => .ok (.dateTimeOffset 7)
  | .guid => .ok .uniqueIdentifier
  | .xml => .ok .xml
  | .enum _ storage => .ok storage.sqlType
  | .custom name => .error (.notSupported s!"no SQL type registered for logical type '{name}'")

/-- The SQL types configured for columns, the latest first. -/
structure TypeMap where
  overrides : List (ColumnId × SqlType) := []
  deriving DecidableEq, Repr

namespace TypeMap

def override? (m : TypeMap) (id : ColumnId) : Option SqlType := m.overrides.lookup id

/-- Configures the SQL type of a column, which must be able to store it. -/
def configure (m : TypeMap) (f : Field) (t : SqlType) : Result TypeMap :=
  if accepts f.type t.dbType then .ok { m with overrides := (f.id, t) :: m.overrides }
  else .error (.notSupported
    s!"SQL type {t.sql} for column '{f.name}' of logical type {f.type.name}")

def aboutColumn (name : String) : Error → Error
  | .notSupported d => .notSupported s!"{d} (column '{name}')"
  | e => e

def resolve (m : TypeMap) (f : Field) : Result SqlType :=
  match m.override? f.id with
  | some t => .ok t
  | none => (defaultType f.type).mapError (aboutColumn f.name)

end TypeMap

/-- A type map that remembers the enumerations it was asked for. -/
structure TypeMapper where
  types : TypeMap := {}
  enums : List ((String × EnumStorage) × SqlType) := []

namespace TypeMapper

/-- The SQL type of a logical type; an enumeration is looked up, and entered if it is new. -/
def defaultFor (m : TypeMapper) (v : ValueType) : Result SqlType × TypeMapper :=
  match v with
  | .enum name storage =>
    match m.enums.lookup (name, storage) with
    | some t => (.ok t, m)
    | none =>
      (.ok storage.sqlType, { m with enums := ((name, storage), storage.sqlType) :: m.enums })
  | v => (defaultType v, m)

def configure (m : TypeMapper) (f : Field) (t : SqlType) : Result Unit × TypeMapper :=
  match m.types.configure f t with
  | .ok types => (.ok (), { m with types })
  | .error e => (.error e, m)

def resolve (m : TypeMapper) (f : Field) : Result SqlType × TypeMapper :=
  match m.types.override? f.id with
  | some t => (.ok t, m)
  | none =>
    let (r, m) := m.defaultFor f.type
    (r.mapError (TypeMap.aboutColumn f.name), m)

def rememberedEnums (m : TypeMapper) : Nat := m.enums.length

end TypeMapper

end Tsql
