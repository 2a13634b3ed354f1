import Tsql.Error
import Tsql.Text.Blank
import Tsql.Text.Digits

/-!
# Dialect versions

Statements are rendered for one of two versions of the dialect. The later one has `TRIM` and
`STRING_AGG`.
-/

namespace Tsql

open Text

inductive Version where
  | sql13 | sql14
  deriving DecidableEq, Repr

namespace Version

def level : Version → Nat
  | sql13 => 130
  | sql14 => 140

def name : Version → String
  | sql13 => "Sql13"
  | sql14 => "Sql14"

def has2017Functions : Version → Bool
  | sql13 => false
  | sql14 => true

def ofLevel (n : Nat) : Result Version :=
  if n = 130 then .ok sql13
  else if n = 140 then .ok sql14
  else .error (.notSupported s!"SQL Server version {natText n} (supported: 130, 140)")

/-- Reads a version: its name, with either case of the first letter, or its level. -/
def read (s : String) : Result Version :=
  let t := String.ofList (trim s.toList)
  if t = "Sql13" ∨ t = "sql13" ∨ t = "130" then .ok sql13
  else if t = "Sql14" ∨ t = "sql14" ∨ t = "140" then .ok sql14
  else .error (.notSupported s!"SQL Server version '{t}' (supported: Sql13, Sql14)")

end Version

end Tsql
