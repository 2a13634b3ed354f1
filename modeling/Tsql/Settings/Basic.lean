import Tsql.Error
import Tsql.Json.Basic
import Tsql.Text.Blank
import Tsql.Text.Digits
import Tsql.Text.Lowercase

/-!
# Settings

`Settings` with their defaults, and the environment variables that override them.
-/

namespace Tsql

open Text

/-- How to reach the database, and for which version of the dialect. -/
structure DatabaseSettings where
  connectionString : String := ""
  version : String := "Sql13"
  /-- Zero stands for no limit. -/
  commandTimeoutSecs : Nat := 30
  traceSql : Bool := false
  deriving DecidableEq, Repr

structure Settings where
  debug : Bool := true
  logLevel : String := "info"
  database : DatabaseSettings := {}
  deriving DecidableEq, Repr

/-- The JSON form of database settings, in the order of keys. -/
def DatabaseSettings.json (d : DatabaseSettings) : Json :=
  .object [("command_timeout_secs", .ofInt d.commandTimeoutSecs),
    ("connection_string", .string d.connectionString), ("trace_sql", .bool d.traceSql),
    ("version", .string d.version)]

/-- The JSON form of settings, in the order of keys. -/
def Settings.json (s : Settings) : Json :=
  .object [("database", s.database.json), ("debug", .bool s.debug),
    ("log_level", .string s.logLevel)]

/-- The settings that a variable may override. -/
inductive Variable where
  | debug | logLevel | connectionString | version | commandTimeout | traceSql
  deriving DecidableEq, Repr

namespace Variable

def name : Variable → String
  | debug => "DATA_RS_DEBUG"
  | logLevel => "DATA_RS_LOG_LEVEL"
  | connectionString => "DATA_RS_CONNECTION_STRING"
  | version => "DATA_RS_SQL_VERSION"
  | commandTimeout => "DATA_RS_COMMAND_TIMEOUT"
  | traceSql => "DATA_RS_TRACE_SQL"

def all : List Variable := [debug, logLevel, connectionString, version, commandTimeout, traceSql]

end Variable

/-- The names of the environment with their values. -/
abbrev Environment := List (String × String)

/-- Reads a flag: three words in any case mean yes, everything else no. -/
def readFlag (s : String) : Bool := ["true", "1", "yes"].contains (lowercase s)

/-- Reads a number of sixty-four bits without sign; blanks around it and a plus sign are allowed. -/
def readSeconds? (s : String) : Option Nat := do
  let ds := match trim s.toList with
    | '+' :: r => r
    | cs => cs
  let n ← ofDigits? ds
  if n < UInt64.size then some n else none

/-- Overrides one setting. A time limit that is no number changes nothing. -/
def Settings.set (s : Settings) (v : Variable) (value : String) : Settings :=
  match v with
  | .debug => { s with debug := readFlag value }
  | .logLevel => { s with logLevel := value }
  | .connectionString => { s with database.connectionString := value }
  | .version => { s with database.version := value }
  | .commandTimeout => match readSeconds? value with
    | some n => { s with database.commandTimeoutSecs := n }
    | none => s
  | .traceSql => { s with database.traceSql := readFlag value }

def Settings.overriddenBy (s : Settings) (env : Environment) : Settings :=
  Variable.all.foldl (fun s v => match env.lookup v.name with
    | some value => s.set v value
    | none => s) s

end Tsql
