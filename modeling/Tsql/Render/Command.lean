import Tsql.Render.Query

/-!
# Rendering commands

`Target.command` renders a command with the semicolons that end its statements, `Target.generate`
gives its text and parameters.
-/

namespace Tsql

open Text Emission

/-- The text of a command and its parameters, by first occurrence. -/
structure SqlText where
  sql : String
  params : List Param
  deriving DecidableEq, Repr

/-- The text and the parameters of a rendering, unless there was an error. -/
def Emission.sqlText (x : Emission) : Result SqlText :=
  let w := x.written []
  match w.failure with
  | some e => .error e
  | none => .ok ⟨w.text, w.params⟩

/-- Where the rows of an insert come from. -/
inductive InsertBody where
  /-- Expressions over the source. -/
  | mapped
  /-- The source, which is a query. -/
  | query
  /-- Some columns of the source, which is a table. -/
  | table (source : Model) (columns : List Field)

def Insert.sourceColumn (i : Insert) (source : Model) (c : Column) : Result Field :=
  match source.column? c.name with
  | some f => .ok f.toField
  | none => .error (.invalidStatement (s!"source '{source.name}' has no column '{c.name}'"
      ++ s!" for insert into '{i.target.name}'"))

/-- The column of the target that a query's output goes into. -/
def Insert.targetColumn (i : Insert) (p : Projection) : Result String :=
  match i.target.column? p.target.name with
  | some _ => .ok p.target.name
  | none => .error (.invalidStatement s!"'{i.target.name}' has no column '{p.target.name}'")

/-- The columns that an insert fills and where their values come from. -/
def Insert.shape (i : Insert) : Result (List String × InsertBody) :=
  if !i.columns.isEmpty then .ok (i.columns.map fun p => p.target.name, .mapped)
  else match i.source with
    | .table source => do
      let columns ← i.target.insertableColumns.mapM (i.sourceColumn source)
      .ok (i.target.insertableColumns.map fun c => c.name, .table source columns)
    | .select body _ =>
      if body.columns.isEmpty then .error (unmapped i)
      else (body.columns.mapM i.targetColumn).map fun names => (names, .query)
    | .union .. | .join .. => .error (unmapped i)
where
  /-- The source does not say which columns it fills. -/
  unmapped (i : Insert) : Error := .invalidStatement
    s!"insert into '{i.target.name}' needs explicit column mappings for this source"

/-- The clause that sends the new identities to a table. -/
def Target.identityOutput (t : Target) (i : Insert) : Emission :=
  match i.identityOutput with
  | none => nothing
  | some mapping => match i.target.identityColumn? with
    | none => fail (.invalidStatement (s!"identity output requested but '{i.target.name}'"
        ++ " has no identity column"))
    | some c => clause "OUTPUT INSERTED." (name c.name) ++ word " INTO " ++ t.tableName mapping
        ++ word " (" ++ name "NewValue" ++ word ")"

def Target.insertBody (t : Target) (i : Insert) : InsertBody → Emission
  | .mapped => after (t.temps.sourceAliases i.source) fun aliases =>
    word "SELECT " ++ listed (i.columns.map fun p => p.source.value (t.scope aliases))
      ++ clause "FROM " (t.source aliases i.source)
  | .query => after (t.temps.queryAliases i.source) fun aliases =>
    t.query aliases true i.source
  | .table source columns => after (t.temps.queryAliases i.source) fun aliases =>
    t.tableSelect aliases source columns

def Target.insert (t : Target) (i : Insert) : Emission :=
  word "INSERT INTO " ++ t.tableName i.target ++ after i.shape fun (columns, body) =>
    word " (" ++ names columns ++ word ")" ++ t.identityOutput i ++ line ++ t.insertBody i body

def Scope.rowValues (scope : Scope) (values : List Projection) : Emission :=
  if values.isEmpty then word " DEFAULT VALUES"
  else word " (" ++ names (values.map fun p => p.target.name) ++ word ")"
    ++ clause "VALUES (" (listed (values.map fun p => p.source.value scope)) ++ word ")"

def Target.insertRow (t : Target) (i : InsertRow) : Emission :=
  word "INSERT INTO " ++ t.tableName i.target
    ++ { version := t.version : Scope }.rowValues i.values ++ word ";"
    ++ (if i.outputIdentity then clause "SELECT CAST(SCOPE_IDENTITY() AS BIGINT);" nothing
      else nothing)

def Scope.assignment (scope : Scope) (p : Projection) : Emission :=
  name p.target.name ++ word " = " ++ p.source.value scope

def Target.update (t : Target) (u : Update) : Emission :=
  if u.assignments.isEmpty then
    fail (.invalidStatement s!"update of '{u.target.name}' has no assignments")
  else
    let source := u.source.getD (.table u.target)
    after (t.temps.sourceAliases source) fun aliases =>
      after (aliases.require u.target) fun targetName =>
        let scope := t.scope aliases
        word "UPDATE " ++ name targetName
          ++ clause "SET " (listed (u.assignments.map scope.assignment))
          ++ clause "FROM " (t.source aliases source) ++ scope.condition "WHERE " u.filter

def Target.delete (t : Target) (d : Delete) : Emission :=
  let source := d.source.getD (.table d.target)
  after (t.temps.sourceAliases source) fun aliases =>
    after (aliases.require d.target) fun targetName =>
      word "DELETE " ++ name targetName ++ clause "FROM " (t.source aliases source)
        ++ (t.scope aliases).condition "WHERE " d.filter

def Target.outermost (t : Target) (s : Statement) : Emission :=
  after (t.temps.queryAliases s) fun aliases => t.query aliases true s

def Target.command (t : Target) : Command → Emission
  | .query s => t.outermost s ++ word ";"
  | .insert i => t.insert i ++ word ";"
  | .insertRow i => t.insertRow i
  | .update u => t.update u ++ word ";"
  | .delete d => t.delete d ++ word ";"

def Target.generate (t : Target) (c : Command) : Result SqlText := (t.command c).sqlText

end Tsql
