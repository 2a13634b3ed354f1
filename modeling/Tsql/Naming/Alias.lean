import Tsql.Naming.TempTables
import Tsql.Statement.Basic

/-!
# Aliases

Every row source of a statement has an alias: a table is called after itself, the output of a query
after its model's stem, a JSON rowset after its stem with an `@`. `Statement.sources` lists the
models that need an alias; the outermost query and the operands of a union need none, since nothing
refers to them. `TempTables.aliases` gives each of them a unique name.
-/

namespace Tsql

open Text

/-- The aliases of one statement, the latest first. -/
structure AliasMap where
  entries : List (ModelId × String) := []
  deriving Repr

namespace AliasMap

def get? (a : AliasMap) (id : ModelId) : Option String := a.entries.lookup id

def require (a : AliasMap) (m : Model) : Result String :=
  match a.get? m.id with
  | some name => .ok name
  | none => .error (.invalidStatement
      s!"model '{m.name}' (id {natText m.id.number}) has no alias in this statement")

def requireId (a : AliasMap) (id : ModelId) : Result String :=
  match a.get? id with
  | some name => .ok name
  | none => .error (.invalidStatement
      s!"model id {natText id.number} has no alias in this statement")

def size (a : AliasMap) : Nat := a.entries.length

end AliasMap

/-- The models of a statement that need an alias, in the order of its text. A query needs one for
its own output only as a source. -/
def Statement.sources (asSource : Bool) : Statement → List Model
  | .table m => [m]
  | .select body none => if asSource then [body.output] else []
  | .select body (some source) =>
    (if asSource then [body.output] else []) ++ source.sources true
  | .union output left right _ =>
    (if asSource then [output] else []) ++ left.sources false ++ right.sources false
  | .join left right _ _ => left.sources true ++ right.sources true

def TempTables.aliasBase (t : TempTables) (m : Model) : Result String :=
  match m.source with
  | .table => .ok m.name
  | .tempTable => (t.require m).map fun name => String.ofList (name.toList.dropWhile (· = '#'))
  | .jsonRowset _ => .ok ("@" ++ m.aliasStem)
  | .derived => .ok m.aliasStem

/-- Gives a model an alias; a model may occur only once. -/
def TempTables.addAlias (t : TempTables) (acc : AliasMap × UniqueNames) (m : Model) :
    Result (AliasMap × UniqueNames) :=
  let (map, names) := acc
  match map.get? m.id with
  | some _ => .error (.invalidStatement (s!"model '{m.name}' appears more than once in the"
      ++ " statement; use Model::clone_as for self joins"))
  | none => do
    let base ← t.aliasBase m
    let (name, names) := names.next base
    .ok ({ entries := (m.id, name) :: map.entries }, names)

def TempTables.aliases (t : TempTables) (models : List Model) : Result AliasMap :=
  (models.foldlM t.addAlias ({}, {})).map Prod.fst

def TempTables.queryAliases (t : TempTables) (s : Statement) : Result AliasMap :=
  t.aliases (s.sources false)

def TempTables.sourceAliases (t : TempTables) (s : Statement) : Result AliasMap :=
  t.aliases (s.sources true)

end Tsql
