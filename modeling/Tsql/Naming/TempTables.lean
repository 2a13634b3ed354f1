import Tsql.Error
import Tsql.Model.Basic
import Tsql.Naming.Unique

/-!
# Names of temporary tables

A temporary table gets its name when it is realized. The name stays until the table is forgotten
and is never given to another.
-/

namespace Tsql

/-- Inserts a member into a sorted list, before the first one whose number is not less. -/
def insertByNumber {α : Type} (number : α → Nat) (a : α) : List α → List α
  | [] => [a]
  | b :: rest =>
    if number a ≤ number b then a :: b :: rest else b :: insertByNumber number a rest

def sortByNumber {α : Type} (number : α → Nat) : List α → List α
  | [] => []
  | a :: rest => insertByNumber number a (sortByNumber number rest)

/-- The temporary tables of a session by model. -/
structure TempTables where
  names : List (ModelId × String) := []
  supply : UniqueNames := {}
  deriving Repr

namespace TempTables

def get? (t : TempTables) (id : ModelId) : Option String := t.names.lookup id

/-- The name of a model, which is given one if it has none. -/
def realize (t : TempTables) (m : Model) : String × TempTables :=
  match t.get? m.id with
  | some name => (name, t)
  | none =>
    let (stem, supply) := t.supply.next m.name
    let name := "#" ++ stem
    (name, { names := (m.id, name) :: t.names, supply })

def require (t : TempTables) (m : Model) : Result String :=
  match t.get? m.id with
  | some name => .ok name
  | none => .error (.invalidStatement
      s!"temp table for model '{m.name}' has not been created")

def forget (t : TempTables) (id : ModelId) : TempTables :=
  { t with names := t.names.filter fun (i, _) => i ≠ id }

def byModel (t : TempTables) : List (ModelId × String) :=
  sortByNumber (fun (i, _) => i.number) t.names

end TempTables

end Tsql
