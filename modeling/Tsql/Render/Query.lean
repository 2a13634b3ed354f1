import Tsql.Render.Expr

/-!
# Rendering queries

`Target.query` renders a select, a union or a table as a query, `Target.source` renders a statement
as a row source with its alias. A nested query stands in parentheses one level deeper. The order of
a nested select counts only where it limits the rows, so elsewhere it is left out.
-/

namespace Tsql

open Text Emission

/-- What statements are rendered for: a version, the types of columns, the names of temporary
tables. -/
structure Target where
  version : Version
  types : TypeMap := {}
  temps : TempTables := {}

def Target.scope (t : Target) (aliases : AliasMap) : Scope :=
  { version := t.version, aliases := some aliases }

def qualified (schema : Option String) (table : String) : Emission :=
  match schema with
  | some s => name s ++ word "." ++ name table
  | none => name table

def Target.tableName (t : Target) (m : Model) : Emission :=
  match m.source with
  | .table => qualified m.schema m.name
  | .tempTable => after (t.temps.require m) name
  | .jsonRowset _ | .derived =>
    fail (.invalidStatement s!"model '{m.name}' is not backed by a table")

def Target.rowsetColumns (t : Target) (columns : List Column) : Emission :=
  listed (columns.map fun c => after (t.types.resolve c.toField) fun type =>
    name c.name ++ word " " ++ word type.sql)

def Target.tableSource (t : Target) (aliases : AliasMap) (m : Model) : Emission :=
  after (aliases.require m) fun sourceName => match m.source with
    | .table | .tempTable => t.tableName m ++ word " " ++ name sourceName
    | .jsonRowset p => word "OPENJSON(" ++ piece (.placeholder p) ++ word ") WITH ("
      ++ t.rowsetColumns m.columns ++ word ") " ++ name sourceName
    | .derived =>
      fail (.invalidStatement s!"derived model '{m.name}' has no physical source")

/-- Some columns of a table under its alias; all of them if none is named. -/
def columnsUnder (sourceName : String) (columns : List Field) : Emission :=
  if columns.isEmpty then name sourceName ++ word ".*"
  else listed (columns.map fun f => name sourceName ++ word "." ++ name f.name)

def Target.tableSelect (t : Target) (aliases : AliasMap) (m : Model) (columns : List Field) :
    Emission :=
  after (aliases.require m) fun sourceName =>
    word "SELECT " ++ columnsUnder sourceName columns
      ++ line ++ word "FROM " ++ t.tableSource aliases m

def isColumnNamed (target : String) : Expr → Bool
  | .column c => c.field.name == target
  | _ => false

/-- An output column, with its name unless that is the name of its column. -/
def Scope.projection (scope : Scope) (p : Projection) : Emission :=
  p.source.value scope ++
    (if isColumnNamed p.target.name p.source then nothing
      else word " AS " ++ name p.target.name)

/-- The word behind a column of a key or of an order. -/
def SortDirection.text : SortDirection → Emission
  | .ascending => word " ASC"
  | .descending => word " DESC"
  | .unspecified => nothing

def Scope.orderTerm (scope : Scope) (o : OrderTerm) : Emission :=
  o.expr.value scope ++ o.direction.text

def clause (keyword : String) (body : Emission) : Emission := line ++ word keyword ++ body

def Scope.condition (scope : Scope) (keyword : String) : Option Expr → Emission
  | some x => clause keyword (x.predicate scope)
  | none => nothing

/-- The limit clause; without an order of its own it needs an arbitrary one. -/
def limitClause (s : Select) : Emission :=
  if s.isLimited then
    clause "OFFSET " (word (natText (s.offset.getD 0)) ++ word " ROWS") ++
      (match s.fetch with
      | some n => word " FETCH NEXT " ++ word (natText n) ++ word " ROWS ONLY"
      | none => nothing)
  else nothing

def Scope.orderAndLimit (scope : Scope) (s : Select) : Emission :=
  (if s.orderBy.isEmpty then
    if s.isLimited then clause "ORDER BY (SELECT NULL)" nothing else nothing
  else clause "ORDER BY " (listed (s.orderBy.map scope.orderTerm))) ++ limitClause s

def Scope.projections (scope : Scope) (columns : List Projection) : Emission :=
  if columns.isEmpty then word "*" else listed (columns.map scope.projection)

def Scope.grouping (scope : Scope) (groupBy : List Expr) : Emission :=
  if groupBy.isEmpty then nothing
  else clause "GROUP BY " (listed (groupBy.map fun x => x.value scope))

def sourceClause : Option Emission → Emission
  | some source => clause "FROM " source
  | none => nothing

def Scope.select (scope : Scope) (outermost : Bool) (s : Select) (source : Option Emission) :
    Emission :=
  word "SELECT " ++ (if s.distinct then word "DISTINCT " else nothing)
    ++ scope.projections s.columns ++ sourceClause source
    ++ scope.condition "WHERE " s.filter ++ scope.grouping s.groupBy
    ++ scope.condition "HAVING " s.having
    ++ (if outermost || s.isLimited then scope.orderAndLimit s else nothing)

def nested (query : Emission) : Emission :=
  word "(" ++ piece .indent ++ line ++ query ++ piece .outdent ++ line ++ word ")"

def unionOf (kind : UnionKind) (left right : Emission) : Emission :=
  nested left ++ line ++ word kind.sql ++ line ++ nested right

def aliased (aliases : AliasMap) (output : Model) (query : Emission) : Emission :=
  after (aliases.require output) fun sourceName => nested query ++ word " " ++ name sourceName

def JoinKind.conditionError? (kind : JoinKind) (c : JoinCondition) : Option Error :=
  match kind, c.isSome with
  | .cross, true => some (.invalidStatement "CROSS JOIN cannot carry a join condition")
  | .cross, false => none
  | _, true => none
  | kind, false => some (.invalidStatement s!"{kind.sql} requires a join condition")

def Scope.equality (scope : Scope) (pair : ColumnRef × ColumnRef) : Emission :=
  scope.column pair.1 ++ word " = " ++ scope.column pair.2

def Scope.joinParts (scope : Scope) (c : JoinCondition) : List Emission :=
  c.pairs.map scope.equality ++ (c.extra.map fun x => x.predicate scope).toList

def Scope.joinClause (scope : Scope) (c : JoinCondition) : Emission :=
  if c.isSome then word " ON " ++ separated " AND " (scope.joinParts c) else nothing

/-- A join of two sources; a join on the right stands in parentheses. -/
def Scope.join (scope : Scope) (kind : JoinKind) (c : JoinCondition) (left right : Emission)
    (rightIsJoin : Bool) : Emission :=
  match kind.conditionError? c with
  | some e => fail e
  | none =>
    left ++ line ++ word kind.sql ++ word " "
      ++ (if rightIsJoin then word "(" ++ right ++ word ")" else right) ++ scope.joinClause c

mutual

def Target.query (t : Target) (aliases : AliasMap) (outermost : Bool) : Statement → Emission
  | .table m => t.tableSelect aliases m (m.columns.map Column.toField)
  | .select body none => (t.scope aliases).select outermost body none
  | .select body (some source) =>
    (t.scope aliases).select outermost body (some (t.source aliases source))
  | .union _ left right kind =>
    unionOf kind (t.query aliases false left) (t.query aliases false right)
  | .join .. => fail (.invalidStatement
      "a join cannot be queried directly; wrap it in a SELECT")

def Target.source (t : Target) (aliases : AliasMap) : Statement → Emission
  | .table m => t.tableSource aliases m
  | .select body none => aliased aliases body.output ((t.scope aliases).select false body none)
  | .select body (some source) =>
    aliased aliases body.output
      ((t.scope aliases).select false body (some (t.source aliases source)))
  | .union output left right kind =>
    aliased aliases output
      (unionOf kind (t.query aliases false left) (t.query aliases false right))
  | .join left right kind c =>
    (t.scope aliases).join kind c (t.source aliases left) (t.source aliases right) right.isJoin

end

end Tsql
