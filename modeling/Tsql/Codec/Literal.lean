import Tsql.Codec.Native
import Tsql.Text.Quoted
import Tsql.Calendar.Reader

/-!
# Literals

`literal` is the SQL literal of a value for a SQL type: a word or a quoted string. `readLiteral`
reads the text of a literal as a logical type.
-/

namespace Tsql

open Text

inductive Literal where
  /-- A number, a keyword or a binary literal. -/
  | word (text : String)
  /-- A quoted string, national or not. -/
  | string (unicode : Bool) (text : String)
  deriving DecidableEq, Repr

def Literal.sql : Literal → String
  | word s => s
  | string u s => quoteString s u

/-- The literal of a floating-point number; only finite numbers have one. -/
def floatLiteral {l : Layout} (x : Floating l) : Result Literal :=
  if x.isFinite then .ok (.word (x.text .exponential))
  else .error (.argumentOutOfRange s!"floating point value {x.text .plain} has no SQL literal")

/-- A day and a time with a blank between them, the fraction cut to a number of digits. -/
def DateTime.cutChars (d : DateTime) (digitCount : Nat) : List Char :=
  d.date.chars ++ ' ' :: d.time.cutChars digitCount

def storedLiteral (t : SqlType) : Value → Result Literal
  | .null => .ok (.word "NULL")
  | .bool b => .ok (.word (if b then "1" else "0"))
  | .byte n => .ok (.word (natText n.toNat))
  | .int16 n => .ok (.word (intText n.toInt))
  | .int32 n => .ok (.word (intText n.toInt))
  | .int64 n => .ok (.word (intText n.toInt))
  | .single x => floatLiteral x
  | .double x => floatLiteral x
  | .decimal d => .ok (.word d.text)
  | .char c => .ok (.string t.isUnicode (String.ofList [c]))
  | .string s => .ok (.string t.isUnicode s)
  | .bytes b => .ok (.word ("0x" ++ upperHexText b))
  | .date d => .ok (.string false d.text)
  | .time x => .ok (.string false (String.ofList (x.cutChars t.fractionalDigits)))
  | .dateTime d => .ok (.string false (String.ofList (d.cutChars t.fractionalDigits)))
  | .dateTimeOffset d => .ok (.string false
      (String.ofList (d.clock.cutChars t.fractionalDigits ++ ' ' :: offsetMinutes d.offset)))
  | .guid g => .ok (.string false g.text)

def literal (t : SqlType) (v : Value) : Result Literal := do
  ensureStorable t v
  storedLiteral t v

def literalSql (t : SqlType) (v : Value) : Result String := (literal t v).map Literal.sql

/-- The body of a quoted literal: at most one mark of a national string before the opening quote,
and a closing quote at the end. -/
def unquote? (s : List Char) : Option (List Char) :=
  let s := match s with
    | 'N' :: r => r
    | s => s
  match s with
  | '\'' :: r => if r.getLast? = some '\'' then some (undoubled '\'' r.dropLast) else none
  | _ => none

def readQuoted? (t : ValueType) (body : List Char) : Option Value :=
  match t with
  | .string | .xml => some (.string (String.ofList body))
  | .char | .enum _ .char => (singleChar? (String.ofList body)).map .char
  | .date => (readDate? body).map .date
  | .time => (readTime? body).map .time
  | .dateTime => (readDateTime? body).map .dateTime
  | .dateTimeOffset => (readOffsetDateTime? body).map .dateTimeOffset
  | .guid => (Guid.read? body).map .guid
  | _ => none

def readWord? (t : ValueType) (s : List Char) : Option Value :=
  match t with
  | .boolean =>
    if s = ['1'] then some (.bool true) else if s = ['0'] then some (.bool false) else none
  | .byte | .int16 | .int32 | .int64 => (readInt? s).bind (Value.integral? t)
  | .enum _ storage => (readInt? s).bind (Value.integral? storage.valueType)
  | .single => (readFloat? _ s).map .single
  | .double => (readFloat? _ s).map .double
  | .decimal => (Decimal.read? s).map .decimal
  | _ => none

/-- The value of a literal without blanks around it. -/
def readTrimmed? (t : ValueType) (s : List Char) : Option Value :=
  if equalsWord "null" s then some .null
  else match unquote? s with
    | some body => readQuoted? t body
    | none => match s with
      | '0' :: 'x' :: r | '0' :: 'X' :: r =>
        if t = .binary then (readHex? r).map .bytes else none
      | s => readWord? t s

def readLiteral (t : SqlType) (vt : ValueType) (text : String) : Result Value :=
  if accepts vt t.dbType || (vt == .string && t.dbType == .xml) then
    let s := trim text.toList
    match readTrimmed? vt s with
    | some v => .ok v
    | none => .error (.serialization
        s!"cannot parse literal {String.ofList s} as {vt.name}")
  else .error (.notSupported s!"{vt.name} literal for SQL type {t.sql}")

end Tsql
