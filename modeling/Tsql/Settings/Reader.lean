import Tsql.Json.Printer
import Tsql.Json.Reader
import Tsql.Settings.Basic
import Tsql.Text.Escaped
import Tsql.Toml.Reader

/-!
# Reading settings

A document lays its entries over the defaults, objects key by key; unknown keys are ignored. The
merged value is then read into `Settings`: an object by the names of its fields, an array by their
positions. The first entry of the wrong type is an error, in the order of keys.
-/

namespace Tsql

open Text

inductive Format where
  | json | toml
  deriving DecidableEq, Repr

def Format.name : Format → String
  | json => "JSON"
  | toml => "TOML"

def shownJson : Json → String
  | .null => "null"
  | .bool b => if b then "boolean `true`" else "boolean `false`"
  | .number (.integer i) => "integer `" ++ intText i ++ "`"
  | .number (.float x) => "floating point `" ++ Json.floatText x ++ "`"
  | .string s => "string " ++ inspect s
  | .array _ => "sequence"
  | .object _ => "map"

def wrongType {α : Type} (j : Json) (expected : String) : Except String α :=
  .error s!"invalid type: {shownJson j}, expected {expected}"

def readBool : Json → Except String Bool
  | .bool b => .ok b
  | j => wrongType j "a boolean"

def readText : Json → Except String String
  | .string s => .ok s
  | j => wrongType j "a string"

def readNatural : Json → Except String Nat
  | .number (.integer i) =>
    if 0 ≤ i then .ok i.toNat
    else .error s!"invalid value: integer `{intText i}`, expected u64"
  | j => wrongType j "u64"

def optionalField {α : Type} (fields : List (String × Json)) (key : String)
    (read : Json → Except String α) : Except String (Option α) :=
  match Json.getField? key fields with
  | some j => (read j).map some
  | none => .ok none

def requiredField {α : Type} (key : String) : Option α → Except String α
  | some a => .ok a
  | none => .error s!"missing field `{key}`"

def element {α : Type} (items : List Json) (i : Nat) (expected : String)
    (read : Json → Except String α) : Except String α :=
  match items[i]? with
  | some j => read j
  | none => .error s!"invalid length {natText i}, expected {expected}"

/-- Fails if an array has more items than fields. -/
def ensureNoMore (items : List Json) (count : Nat) : Except String Unit :=
  if items.length ≤ count then .ok ()
  else .error s!"invalid length {natText items.length}, expected fewer elements in array"

namespace DatabaseSettings

def ofFields (fields : List (String × Json)) : Except String DatabaseSettings := do
  let timeout ← optionalField fields "command_timeout_secs" readNatural
  let connection ← optionalField fields "connection_string" readText
  let trace ← optionalField fields "trace_sql" readBool
  let version ← optionalField fields "version" readText
  let connectionString ← requiredField "connection_string" connection
  let version ← requiredField "version" version
  let commandTimeoutSecs ← requiredField "command_timeout_secs" timeout
  let traceSql ← requiredField "trace_sql" trace
  .ok { connectionString, version, commandTimeoutSecs, traceSql }

def ofItems (items : List Json) : Except String DatabaseSettings := do
  let expected := "struct DatabaseSettings with 4 elements"
  let connectionString ← element items 0 expected readText
  let version ← element items 1 expected readText
  let commandTimeoutSecs ← element items 2 expected readNatural
  let traceSql ← element items 3 expected readBool
  ensureNoMore items 4
  .ok { connectionString, version, commandTimeoutSecs, traceSql }

def ofJson : Json → Except String DatabaseSettings
  | .object fields => ofFields fields
  | .array items => ofItems items
  | j => wrongType j "struct DatabaseSettings"

end DatabaseSettings

namespace Settings

def ofFields (fields : List (String × Json)) : Except String Settings := do
  let database ← optionalField fields "database" DatabaseSettings.ofJson
  let debug ← optionalField fields "debug" readBool
  let logLevel ← optionalField fields "log_level" readText
  let debug ← requiredField "debug" debug
  let logLevel ← requiredField "log_level" logLevel
  let database ← requiredField "database" database
  .ok { debug, logLevel, database }

def ofItems (items : List Json) : Except String Settings := do
  let expected := "struct Settings with 3 elements"
  let debug ← element items 0 expected readBool
  let logLevel ← element items 1 expected readText
  let database ← element items 2 expected DatabaseSettings.ofJson
  ensureNoMore items 3
  .ok { debug, logLevel, database }

def ofJson : Json → Except String Settings
  | .object fields => ofFields fields
  | .array items => ofItems items
  | j => wrongType j "struct Settings"

/-- The settings that a document's value gives, laid over the defaults. -/
def ofDocument (format : Format) (document : Json) : Result Settings :=
  match ofJson (Json.merge ({} : Settings).json document.normalize) with
  | .ok s => .ok s
  | .error e => .error (.configuration
      s!"Failed to deserialize settings from {format.name}: {e}")

def readDocument? (format : Format) (text : String) : Option Json :=
  match format with
  | .json => Json.read? text
  | .toml => Toml.read? text

def read (format : Format) (text : String) : Result Settings :=
  match readDocument? format text with
  | some document => ofDocument format document
  | none => .error (.configuration s!"Failed to parse {format.name}")

def missingFile (format : Format) (path : String) : Error :=
  .configuration (s!"Failed to read {format.name} file '{path}':"
    ++ " No such file or directory (os error 2)")

end Settings

end Tsql
