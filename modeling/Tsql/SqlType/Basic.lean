import Tsql.Error
import Tsql.Text.Blank
import Tsql.Text.Digits

/-!
# SQL types

A `SqlType` is a type as it stands in a table definition, with its facets: a size, a precision, a
scale. `SqlType.WellFormed` states the bounds of the facets; the functions ending in `?` make a type
from facets that may be out of bounds, and succeed exactly within them. A `DbType` is a type without
its facets.
-/

namespace Tsql

open Text

/-- A SQL type without its facets. -/
inductive DbType where
  | bit | tinyInt | smallInt | int | bigInt | real | float | decimal | money | smallMoney
  | char | varChar | nChar | nVarChar | binary | varBinary
  | date | time | smallDateTime | dateTime | dateTime2 | dateTimeOffset
  | uniqueIdentifier | xml | udt
  deriving DecidableEq, Repr

namespace DbType

def all : List DbType :=
  [bit, tinyInt, smallInt, int, bigInt, real, float, decimal, money, smallMoney, char, varChar,
    nChar, nVarChar, binary, varBinary, date, time, smallDateTime, dateTime, dateTime2,
    dateTimeOffset, uniqueIdentifier, xml, udt]

def name : DbType → String
  | bit => "Bit"
  | tinyInt => "TinyInt"
  | smallInt => "SmallInt"
  | int => "Int"
  | bigInt => "BigInt"
  | real => "Real"
  | float => "Float"
  | decimal => "Decimal"
  | money => "Money"
  | smallMoney => "SmallMoney"
  | char => "Char"
  | varChar => "VarChar"
  | nChar => "NChar"
  | nVarChar => "NVarChar"
  | binary => "Binary"
  | varBinary => "VarBinary"
  | date => "Date"
  | time => "Time"
  | smallDateTime => "SmallDateTime"
  | dateTime => "DateTime"
  | dateTime2 => "DateTime2"
  | dateTimeOffset => "DateTimeOffset"
  | uniqueIdentifier => "UniqueIdentifier"
  | xml => "Xml"
  | udt => "Udt"

def keyword : DbType → String
  | bit => "BIT"
  | tinyInt => "TINYINT"
  | smallInt => "SMALLINT"
  | int => "INT"
  | bigInt => "BIGINT"
  | real => "REAL"
  | float => "FLOAT"
  | decimal => "DECIMAL"
  | money => "MONEY"
  | smallMoney => "SMALLMONEY"
  | char => "CHAR"
  | varChar => "VARCHAR"
  | nChar => "NCHAR"
  | nVarChar => "NVARCHAR"
  | binary => "BINARY"
  | varBinary => "VARBINARY"
  | date => "DATE"
  | time => "TIME"
  | smallDateTime => "SMALLDATETIME"
  | dateTime => "DATETIME"
  | dateTime2 => "DATETIME2"
  | dateTimeOffset => "DATETIMEOFFSET"
  | uniqueIdentifier => "UNIQUEIDENTIFIER"
  | xml => "XML"
  | udt => "UDT"

def ofName? (s : String) : Option DbType := all.find? fun t => t.name == s

def isUnicode : DbType → Bool
  | nChar | nVarChar | xml => true
  | _ => false

def isCharacter : DbType → Bool
  | char | varChar | nChar | nVarChar => true
  | _ => false

def isIntegral : DbType → Bool
  | tinyInt | smallInt | int | bigInt => true
  | _ => false

end DbType

/-- The size of a type of varying length. -/
inductive Size where
  | fixed (n : Nat)
  | max
  deriving DecidableEq, Repr

/-- The number that stands for the greatest size. -/
def maxSize : Int := -1

def Size.toInt : Size → Int
  | fixed n => n
  | max => maxSize

inductive SqlType where
  | bit | tinyInt | smallInt | int | bigInt | real | float | money | smallMoney
  | date | smallDateTime | dateTime | uniqueIdentifier | xml
  | decimal (precision scale : Nat)
  | char (size : Nat)
  | nChar (size : Nat)
  | binary (size : Nat)
  | varChar (size : Size)
  | nVarChar (size : Size)
  | varBinary (size : Size)
  | time (digits : Nat)
  | dateTime2 (digits : Nat)
  | dateTimeOffset (digits : Nat)
  | udt (name : String)
  deriving DecidableEq, Repr

namespace SqlType

def dbType : SqlType → DbType
  | bit => .bit
  | tinyInt => .tinyInt
  | smallInt => .smallInt
  | int => .int
  | bigInt => .bigInt
  | real => .real
  | float => .float
  | money => .money
  | smallMoney => .smallMoney
  | date => .date
  | smallDateTime => .smallDateTime
  | dateTime => .dateTime
  | uniqueIdentifier => .uniqueIdentifier
  | xml => .xml
  | decimal .. => .decimal
  | char _ => .char
  | nChar _ => .nChar
  | binary _ => .binary
  | varChar _ => .varChar
  | nVarChar _ => .nVarChar
  | varBinary _ => .varBinary
  | time _ => .time
  | dateTime2 _ => .dateTime2
  | dateTimeOffset _ => .dateTimeOffset
  | udt _ => .udt

def size? : SqlType → Option Size
  | char n | nChar n | binary n => some (.fixed n)
  | varChar s | nVarChar s | varBinary s => some s
  | _ => none

def precision? : SqlType → Option Nat
  | decimal p _ => some p
  | time p | dateTime2 p | dateTimeOffset p => some p
  | _ => none

def scale? : SqlType → Option Nat
  | decimal _ s => some s
  | _ => none

def udtName? : SqlType → Option String
  | udt n => some n
  | _ => none

/-- Types that store national characters. -/
def isUnicode (t : SqlType) : Bool := t.dbType.isUnicode

/-- The number of digits that a fraction of a second is stored with. -/
def fractionalDigits : SqlType → Nat
  | dateTime => 3
  | time p | dateTime2 p | dateTimeOffset p => p
  | _ => 0

def sizeText : Size → String
  | .max => "MAX"
  | .fixed n => natText n

def sql : SqlType → String
  | udt n => n
  | decimal p s => "DECIMAL(" ++ natText p ++ ", " ++ natText s ++ ")"
  | t => match t.size?, t.precision? with
    | some s, _ => t.dbType.keyword ++ "(" ++ sizeText s ++ ")"
    | none, some p => t.dbType.keyword ++ "(" ++ natText p ++ ")"
    | none, none => t.dbType.keyword

def maxBytes : Nat := 8000

def maxNationals : Nat := 4000

def maxPrecision : Nat := 38

/-- The greatest number of fractional digits of a second. -/
def maxFraction : Nat := 7

def SizeWithin (bound : Nat) : Size → Prop
  | .max => True
  | .fixed n => 1 ≤ n ∧ n ≤ bound

def WellFormed : SqlType → Prop
  | decimal p s => 1 ≤ p ∧ p ≤ maxPrecision ∧ s ≤ p
  | char n | binary n => 1 ≤ n ∧ n ≤ maxBytes
  | nChar n => 1 ≤ n ∧ n ≤ maxNationals
  | varChar s | varBinary s => SizeWithin maxBytes s
  | nVarChar s => SizeWithin maxNationals s
  | time p | dateTime2 p | dateTimeOffset p => 1 ≤ p ∧ p ≤ maxFraction
  | udt n => trim n.toList ≠ []
  | _ => True

def fixedSize? (t : DbType) (size : Int) (bound : Nat) (hint : String) : Result Nat :=
  if 1 ≤ size ∧ size ≤ bound then .ok size.toNat
  else .error (.argumentOutOfRange
    s!"size {intText size} for {t.keyword} (expected 1..={natText bound}{hint})")

def lengthFacet? (t : DbType) (size : Int) (bound : Nat) : Result Nat :=
  if size = maxSize then
    .error (.argumentOutOfRange s!"size MAX is not allowed for fixed-length {t.keyword}")
  else fixedSize? t size bound ""

def sizeFacet? (t : DbType) (size : Int) (bound : Nat) : Result Size :=
  if size = maxSize then .ok .max
  else (fixedSize? t size bound " or -1 for MAX").map .fixed

def fractionFacet? (t : DbType) (digits : Nat) : Result Nat :=
  if 1 ≤ digits ∧ digits ≤ maxFraction then .ok digits
  else .error (.argumentOutOfRange
    s!"precision {natText digits} for {t.keyword} (expected 1..=7)")

def char? (size : Int) : Result SqlType := (lengthFacet? .char size maxBytes).map char

def nChar? (size : Int) : Result SqlType := (lengthFacet? .nChar size maxNationals).map nChar

def binary? (size : Int) : Result SqlType := (lengthFacet? .binary size maxBytes).map binary

def varChar? (size : Int) : Result SqlType := (sizeFacet? .varChar size maxBytes).map varChar

/-- A national character type of varying length. -/
def nVarChar? (size : Int) : Result SqlType :=
  (sizeFacet? .nVarChar size maxNationals).map nVarChar

def varBinary? (size : Int) : Result SqlType :=
  (sizeFacet? .varBinary size maxBytes).map varBinary

def decimal? (precision scale : Nat) : Result SqlType :=
  if ¬ (1 ≤ precision ∧ precision ≤ maxPrecision) then
    .error (.argumentOutOfRange
      s!"precision {natText precision} for DECIMAL (expected 1..=38)")
  else if precision < scale then
    .error (.argumentOutOfRange
      s!"scale {natText scale} for DECIMAL({natText precision}) (expected 0..={natText precision})")
  else .ok (decimal precision scale)

def time? (digits : Nat) : Result SqlType := (fractionFacet? .time digits).map time

def dateTime2? (digits : Nat) : Result SqlType := (fractionFacet? .dateTime2 digits).map dateTime2

def dateTimeOffset? (digits : Nat) : Result SqlType :=
  (fractionFacet? .dateTimeOffset digits).map dateTimeOffset

def udt? (name : String) : Result SqlType :=
  if trim name.toList = [] then
    .error (.argumentOutOfRange "UDT type name must not be empty")
  else .ok (udt name)

/-- The facets that a definition gives. A type looks only at its own. -/
structure Facets where
  size : Int := maxSize
  precision : Nat := maxFraction
  scale : Nat := 0
  udtName : String := ""
  deriving DecidableEq, Repr

def make? (t : DbType) (f : Facets) : Result SqlType :=
  match t with
  | .bit => .ok bit
  | .tinyInt => .ok tinyInt
  | .smallInt => .ok smallInt
  | .int => .ok int
  | .bigInt => .ok bigInt
  | .real => .ok real
  | .float => .ok float
  | .decimal => decimal? f.precision f.scale
  | .money => .ok money
  | .smallMoney => .ok smallMoney
  | .char => char? f.size
  | .varChar => varChar? f.size
  | .nChar => nChar? f.size
  | .nVarChar => nVarChar? f.size
  | .binary => binary? f.size
  | .varBinary => varBinary? f.size
  | .date => .ok date
  | .time => time? f.precision
  | .smallDateTime => .ok smallDateTime
  | .dateTime => .ok dateTime
  | .dateTime2 => dateTime2? f.precision
  | .dateTimeOffset => dateTimeOffset? f.precision
  | .uniqueIdentifier => .ok uniqueIdentifier
  | .xml => .ok xml
  | .udt => udt? f.udtName

end SqlType

end Tsql
