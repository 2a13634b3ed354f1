import Tsql.Model.Basic

/-!
# Statements and commands

A `Statement` produces rows: a table, a select, a union of two queries, or a join. A `Command` is
what is executed: a query, an insert from a row source or of one row, an update, or a delete. A
`CommandTree` is a command with an identity of its own.
-/

namespace Tsql

/-- An output column: an expression and the column it is assigned to. -/
structure Projection where
  source : Expr
  target : Field

structure OrderTerm where
  expr : Expr
  direction : SortDirection

structure Select where
  /-- The shape of the output; its identity is that of the select as a source. -/
  output : Model
  columns : List Projection := []
  filter : Option Expr := none
  groupBy : List Expr := []
  having : Option Expr := none
  orderBy : List OrderTerm := []
  offset : Option Nat := none
  fetch : Option Nat := none
  distinct : Bool := false

def Select.isLimited (s : Select) : Bool := s.offset.isSome || s.fetch.isSome

/-- Set operations. -/
inductive UnionKind where
  | union | unionAll
  deriving DecidableEq, Repr

def UnionKind.sql : UnionKind → String
  | union => "UNION"
  | unionAll => "UNION ALL"

inductive JoinKind where
  | inner | left | right | cross
  deriving DecidableEq, Repr

def JoinKind.sql : JoinKind → String
  | inner => "INNER JOIN"
  | left => "LEFT JOIN"
  | right => "RIGHT JOIN"
  | cross => "CROSS JOIN"

/-- The condition of a join: pairs of equal columns, and a further condition. -/
structure JoinCondition where
  pairs : List (ColumnRef × ColumnRef) := []
  extra : Option Expr := none

def JoinCondition.isSome (c : JoinCondition) : Bool := !c.pairs.isEmpty || c.extra.isSome

/-- A node that produces rows. -/
inductive Statement where
  | table (model : Model)
  | select (body : Select) (source : Option Statement)
  | union (output : Model) (left right : Statement) (kind : UnionKind)
  | join (left right : Statement) (kind : JoinKind) (condition : JoinCondition)

namespace Statement

def model? : Statement → Option Model
  | table m => some m
  | select s _ => some s.output
  | union m _ _ _ => some m
  | join .. => none

def isQuery : Statement → Bool
  | select .. | union .. => true
  | _ => false

def isJoin : Statement → Bool
  | join .. => true
  | _ => false

end Statement

/-- An insert from a row source. -/
structure Insert where
  target : Model
  /-- The columns with their expressions; empty for the target's insertable columns by name. -/
  columns : List Projection := []
  source : Statement
  /-- The table that receives the new identities. -/
  identityOutput : Option Model := none

structure InsertRow where
  target : Model
  values : List Projection
  /-- The new identity is selected afterwards. -/
  outputIdentity : Bool := false

/-- An update; without a source the target itself is the source. -/
structure Update where
  target : Model
  assignments : List Projection
  source : Option Statement := none
  filter : Option Expr := none

/-- A delete; without a source the target itself is the source. -/
structure Delete where
  target : Model
  source : Option Statement := none
  filter : Option Expr := none

inductive Command where
  | query (statement : Statement)
  | insert (i : Insert)
  | insertRow (i : InsertRow)
  | update (u : Update)
  | delete (d : Delete)

def Command.kind : Command → String
  | query _ => "select"
  | insert _ => "insert"
  | insertRow _ => "insert_scalar"
  | update _ => "update"
  | delete _ => "delete"

/-- The identity of a command tree. -/
structure StatementId where
  number : Nat
  deriving DecidableEq, Repr

/-- A command that is rendered once and executed many times. -/
structure CommandTree where
  id : StatementId
  command : Command

end Tsql
