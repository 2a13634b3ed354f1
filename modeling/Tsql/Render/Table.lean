import Tsql.Render.Command

/-!
# Table definitions

`Target.createTable` renders the definition of a table: its columns, then its key, constraints and
indexes. Parameters inside expressions become literals. A permanent table is followed by a call for
each of its descriptions. A temporary table has no named constraints, no foreign keys, no computed
columns and no descriptions.
-/

namespace Tsql

open Text Emission

def defaultSchema : String := "dbo"

/-- The scope of expressions inside a definition. -/
def Target.inlineScope (t : Target) (b : Bindings) : Scope :=
  { version := t.version, inlined := some b }

def Target.definedName (t : Target) (m : Model) (isTemp : Bool) : Emission :=
  if isTemp then after (t.temps.require m) name else qualified m.schema m.name

def constraintHead (constraintName : Option String) (isTemp : Bool) : Emission :=
  match constraintName with
  | some s => if isTemp || s == "" then nothing else word "CONSTRAINT " ++ name s ++ word " "
  | none => nothing

def clustering (clustered : Bool) : Emission :=
  word (if clustered then "CLUSTERED" else "NONCLUSTERED")

def keyList (columns : KeyColumns) : Emission :=
  word " (" ++ listed (columns.map fun (f, direction) => name f.name ++ direction.text) ++ word ")"

def defaultClause (scope : Scope) : Option Expr → Emission
  | some x => word " DEFAULT(" ++ x.value scope ++ word ")"
  | none => nothing

def identityClause : Option IdentitySpec → Emission
  | some spec =>
    word (" IDENTITY(" ++ intText spec.seed ++ ", " ++ intText spec.increment ++ ")")
  | none => nothing

def Target.storedColumn (t : Target) (scope : Scope) (c : Column) : Emission :=
  after (t.types.resolve c.toField) fun type =>
    name c.name ++ word " " ++ word type.sql ++ word (if c.nullable then " NULL" else " NOT NULL")
      ++ defaultClause scope c.default ++ identityClause c.identity

def Target.columnDefinition (t : Target) (scope : Scope) (isTemp : Bool) (c : Column) : Emission :=
  match c.computation, isTemp with
  | some x, false => name c.name ++ word " AS (" ++ x.value scope ++ word ")"
  | _, _ => t.storedColumn scope c

def primaryKeyDefinition (isTemp : Bool) (key : PrimaryKey) : Emission :=
  constraintHead (some key.name) isTemp ++ word "PRIMARY KEY " ++ clustering key.clustered
    ++ keyList key.columns

def foreignKeyDefinition (key : ForeignKey) : Emission :=
  word "FOREIGN KEY (" ++ names (key.columns.map Field.name) ++ word ") REFERENCES "
    ++ qualified key.parentSchema key.parentTable ++ word " (" ++ names key.parentColumns
    ++ word ") ON DELETE " ++ word key.onDelete.sql ++ word " ON UPDATE " ++ word key.onUpdate.sql

def constraintDefinition? (scope : Scope) (isTemp : Bool) (c : Constraint) : Option Emission :=
  let head := constraintHead c.name? isTemp
  match c.body, isTemp with
  | .unique columns clustered, _ =>
    some (head ++ word "UNIQUE " ++ clustering clustered ++ keyList columns)
  | .check x, _ => some (head ++ word "CHECK " ++ x.predicate scope)
  | .foreignKey key, false => some (head ++ foreignKeyDefinition key)
  | .foreignKey _, true => none

def indexDefinition (i : Index) : Emission :=
  word "INDEX " ++ name i.name ++ word " " ++ (if i.unique then word "UNIQUE " else nothing)
    ++ clustering i.clustered ++ keyList i.columns

def Target.tableParts (t : Target) (b : Bindings) (m : Model) (isTemp : Bool) : List Emission :=
  let scope := t.inlineScope b
  m.columns.map (t.columnDefinition scope isTemp)
    ++ (m.primaryKey.map (primaryKeyDefinition isTemp)).toList
    ++ m.constraints.filterMap (constraintDefinition? scope isTemp)
    ++ m.indexes.map indexDefinition

/-- A part of a table that has a description. -/
inductive DescribedKind where
  | column | constraint | index
  deriving DecidableEq, Repr

def DescribedKind.name : DescribedKind → String
  | column => "COLUMN"
  | constraint => "CONSTRAINT"
  | index => "INDEX"

/-- A description, of the table itself or of a part of it. -/
structure Description where
  text : String
  part : Option (DescribedKind × String)
  deriving DecidableEq, Repr

def describePart (kind : DescribedKind) (partName : String) (text : Option String) :
    Option Description :=
  text.map fun s => ⟨s, some (kind, partName)⟩

/-- The descriptions of a table and its parts; a part without a name has none. -/
def Model.descriptions (m : Model) : List Description :=
  (m.description.map fun s => ⟨s, none⟩).toList
    ++ m.columns.filterMap (fun c => describePart .column c.name c.description)
    ++ (m.primaryKey.bind fun key => describePart .constraint key.name key.description).toList
    ++ m.constraints.filterMap
      (fun c => c.name?.bind fun s => describePart .constraint s c.description)
    ++ m.indexes.filterMap (fun i => describePart .index i.name i.description)

def describedPart : Option (DescribedKind × String) → Emission
  | some (kind, s) =>
    word ", @level2type=" ++ national kind.name ++ word ", @level2name=" ++ national s
  | none => nothing

def Model.describe (m : Model) (d : Description) : Emission :=
  word "EXEC sp_addextendedproperty @name=" ++ national "MS_Description" ++ word ", @value="
    ++ national d.text ++ word ", @level0type=" ++ national "Schema" ++ word ", @level0name="
    ++ national (m.schema.getD defaultSchema) ++ word ", @level1type=" ++ national "Table"
    ++ word ", @level1name=" ++ national m.name ++ describedPart d.part ++ word ";"

/-- The calls that store all descriptions, each on a line of its own. -/
def Model.describeAll (m : Model) : Emission :=
  m.descriptions.foldl (fun acc d => acc ++ word "\n" ++ m.describe d) nothing

def Target.createTable (t : Target) (b : Bindings) (m : Model) (isTemp : Bool) : Emission :=
  word "CREATE TABLE " ++ t.definedName m isTemp
    ++ (if m.columns.isEmpty then
        fail (.invalidStatement s!"table '{m.name}' has no columns")
      else nothing)
    ++ word " (\n    " ++ separated ",\n    " (t.tableParts b m isTemp) ++ word "\n);"
    ++ (if isTemp then nothing else m.describeAll)

def Target.dropTable (t : Target) (m : Model) (isTemp : Bool) : Emission :=
  word "DROP TABLE " ++ t.definedName m isTemp ++ word ";"

def Target.createTableSql (t : Target) (b : Bindings) (m : Model) (isTemp : Bool) :
    Result String :=
  (t.createTable b m isTemp).sqlText.map SqlText.sql

def Target.dropTableSql (t : Target) (m : Model) (isTemp : Bool) : Result String :=
  (t.dropTable m isTemp).sqlText.map SqlText.sql

end Tsql
