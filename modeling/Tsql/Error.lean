/-!
# Errors

Every operation of the library that can fail does so with an `Error`: one of nine kinds, each but
cancellation with a text that names the offending key, type, column or parameter. `Error.message`
is the only place that words a kind.
-/

namespace Tsql

/-- Why an operation failed. -/
inductive Error where
  /-- A facet of a type, a row index or a number lies outside its declared bounds. -/
  | argumentOutOfRange (detail : String)
  /-- A settings value is missing or invalid. -/
  | configuration (detail : String)
  /-- A function, a type or a dialect version has no counterpart. -/
  | notSupported (detail : String)
  /-- A statement tree or a data set is put together wrongly. -/
  | invalidStatement (detail : String)
  /-- A transaction handle is used out of order or after it was resolved. -/
  | transaction (detail : String)
  /-- The database reported an error. -/
  | database (detail : String)
  /-- A cancellation request was observed. -/
  | cancelled
  /-- A value could not be written or read. -/
  | serialization (detail : String)
  /-- Reading or writing a file failed. -/
  | inputOutput (detail : String)
  deriving DecidableEq, Repr

namespace Error

def message : Error → String
  | argumentOutOfRange d => "Argument out of range: " ++ d
  | configuration d => "Configuration error: " ++ d
  | notSupported d => "Not supported: " ++ d
  | invalidStatement d => "Invalid statement: " ++ d
  | transaction d => "Transaction error: " ++ d
  | database d => "Database error: " ++ d
  | cancelled => "Operation cancelled"
  | serialization d => "Serialization error: " ++ d
  | inputOutput d => "IO error: " ++ d

/-- Errors in how the library is used, which no retry can mend. -/
def isProgramming : Error → Bool
  | argumentOutOfRange _ | notSupported _ | invalidStatement _ => true
  | _ => false

end Error

/-- The result of an operation that can fail. -/
abbrev Result (α : Type) := Except Error α

end Tsql
