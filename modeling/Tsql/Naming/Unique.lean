import Tsql.Text.Digits
import Tsql.Text.Lowercase

/-!
# Unique names

`UniqueNames` hands out names that differ from each other even when case is ignored. The first
request for a base gives the base itself, later ones the base with a number behind it. A base that
ends in a digit is separated from its number, so that `name1` with number 1 is not `name` with
number 11.
-/

namespace Tsql

open Text

/-- The names handed out so far. -/
structure UniqueNames where
  /-- The names in lower case, the latest first. -/
  used : List String := []
  /-- The number last given to each base, the base in lower case. -/
  counters : List (String × Nat) := []
  deriving Repr

namespace UniqueNames

/-- The name was handed out, in whatever case. -/
def isUsed (names : UniqueNames) (name : String) : Bool := names.used.contains (lowercase name)

def separator (base : String) : String :=
  match base.toList.getLast? with
  | some c => if isDigit c then "_" else ""
  | none => ""

def numbered (base : String) (n : Nat) : String := base ++ separator base ++ natText n

/-- The first number from `n` on that gives a name not yet used. Among `used.length + 1` numbers
there is one. -/
def freeNumber (names : UniqueNames) (base : String) : Nat → Nat → Nat
  | 0, n => n
  | fuel + 1, n => if names.isUsed (numbered base n) then freeNumber names base fuel (n + 1) else n

/-- A name not handed out before, made from a base. -/
def next (names : UniqueNames) (base : String) : String × UniqueNames :=
  let key := lowercase base
  if names.isUsed base then
    let last := (names.counters.lookup key).getD 0
    let n := freeNumber names base (names.used.length + 1) (last + 1)
    let name := numbered base n
    (name, { used := lowercase name :: names.used, counters := (key, n) :: names.counters })
  else (base, { names with used := key :: names.used })

end UniqueNames

end Tsql
