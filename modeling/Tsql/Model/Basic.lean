import Tsql.Expr.Basic

/-!
# Models

A `Model` is an ordered list of columns together with where its rows come from, its keys,
constraints and indexes. Columns are told apart by identity: two models may share a column.
-/

namespace Tsql

/-- The numbering of an identity column. -/
structure IdentitySpec where
  seed : Int
  increment : Int
  deriving DecidableEq, Repr

structure Column extends Field where
  nullable : Bool := false
  identity : Option IdentitySpec := none
  default : Option Expr := none
  /-- The database computes the column. -/
  computation : Option Expr := none
  description : Option String := none

/-- A column that an insert may give a value: neither identity nor computed. -/
def Column.isInsertable (c : Column) : Bool := c.identity.isNone && c.computation.isNone

/-- The direction of a key column or of an order. -/
inductive SortDirection where
  | unspecified | ascending | descending
  deriving DecidableEq, Repr

abbrev KeyColumns := List (Field × SortDirection)

structure PrimaryKey where
  name : String
  columns : KeyColumns
  clustered : Bool := true
  description : Option String := none

/-- What happens to the rows of a foreign key when the row they refer to goes or changes. -/
inductive ForeignKeyRule where
  | noAction | cascade | setNull | setDefault
  deriving DecidableEq, Repr

def ForeignKeyRule.sql : ForeignKeyRule → String
  | noAction => "NO ACTION"
  | cascade => "CASCADE"
  | setNull => "SET NULL"
  | setDefault => "SET DEFAULT"

/-- A foreign key: columns of its model, and the model, table and columns they refer to. -/
structure ForeignKey where
  columns : List Field
  parent : ModelId
  parentTable : String
  parentSchema : Option String
  parentColumns : List String
  onDelete : ForeignKeyRule := .noAction
  onUpdate : ForeignKeyRule := .noAction

inductive ConstraintBody where
  | unique (columns : KeyColumns) (clustered : Bool)
  | check (condition : Expr)
  | foreignKey (key : ForeignKey)

def ConstraintBody.kind : ConstraintBody → String
  | unique .. => "Unique"
  | check _ => "Check"
  | foreignKey _ => "ForeignKey"

/-- A constraint other than the primary key. -/
structure Constraint where
  /-- The name; an empty one counts as none. -/
  label : String
  body : ConstraintBody
  description : Option String := none

def Constraint.name? (c : Constraint) : Option String := if c.label = "" then none else some c.label

structure Index where
  name : String
  columns : KeyColumns
  unique : Bool := false
  clustered : Bool := false
  description : Option String := none

/-- Where the rows of a model come from. -/
inductive RowSource where
  /-- A permanent table named after the model. -/
  | table
  /-- A temporary table of the session, which names it. -/
  | tempTable
  /-- A JSON array in a text parameter. -/
  | jsonRowset (param : Param)
  /-- The output of a query. -/
  | derived
  deriving DecidableEq, Repr

def RowSource.kind : RowSource → String
  | table => "Table"
  | tempTable => "TempTable"
  | jsonRowset _ => "JsonRowset"
  | derived => "Derived"

structure Model where
  id : ModelId
  name : String
  schema : Option String := none
  /-- The stem of aliases where the model is no table. -/
  aliasStem : String
  source : RowSource := .table
  columns : List Column := []
  primaryKey : Option PrimaryKey := none
  constraints : List Constraint := []
  indexes : List Index := []
  description : Option String := none

namespace Model

def empty (id : ModelId) (name : String) (source : RowSource) : Model :=
  { id, name, aliasStem := name, source }

def column? (m : Model) (name : String) : Option Column := m.columns.find? fun c => c.name == name

def ordinal? (m : Model) (id : ColumnId) : Option Nat := m.columns.findIdx? fun c => c.id == id

def ref (m : Model) (f : Field) : Expr := .column ⟨m.id, f⟩

def identityColumn? (m : Model) : Option Column := m.columns.find? fun c => c.identity.isSome

/-- The columns that an insert writes unless told otherwise. -/
def insertableColumns (m : Model) : List Column := m.columns.filter Column.isInsertable

def isKeyColumn (m : Model) (id : ColumnId) : Bool :=
  match m.primaryKey with
  | some key => key.columns.any fun (f, _) => f.id == id
  | none => false

def foreignKeysTo (m : Model) (parent : ModelId) (column : String) :
    List (Constraint × ForeignKey) :=
  m.constraints.filterMap fun c => match c.body with
    | .foreignKey key =>
      if key.parent = parent ∧ key.parentColumns = [column] then some (c, key) else none
    | _ => none

/-- The columns with a foreign key of their own that refers to one column of a parent. -/
def childColumns (m : Model) (parent : ModelId) (column : String) : List Field :=
  (m.foreignKeysTo parent column).filterMap fun (_, key) => match key.columns with
    | [f] => some f
    | _ => none

/-- The same model under another identity and alias stem, for joining it with itself. -/
def cloneAs (m : Model) (id : ModelId) (aliasStem : String) : Model := { m with id, aliasStem }

end Model

def ForeignKey.to (columns : List Field) (parent : Model) (parentColumns : List String)
    (onDelete onUpdate : ForeignKeyRule) : ForeignKey :=
  { columns, parent := parent.id, parentTable := parent.name, parentSchema := parent.schema
    parentColumns, onDelete, onUpdate }

end Tsql
