import Tsql.Proofs.Render.ExprSpelling
import Tsql.Render.Query

/-!
# What queries spell

The walk of a statement follows its text: output columns, sources, conditions, groups, and the order
where it counts. Names of types stand outside of tokens, so a statement spells what its walk finds as
long as no rowset has a column of a user-defined type.
-/

namespace Tsql

open Emission

/-! ### The walk -/

def qualifiedTrace (schema : Option String) (table : String) : Trace :=
  Trace.join (schema.toList.map .name) ++ .name table

def Target.tableTrace (t : Target) (m : Model) : Trace :=
  match m.source with
  | .table => qualifiedTrace m.schema m.name
  | .tempTable => Trace.after (t.temps.require m) .name
  | _ => {}

def Target.tableSourceTrace (t : Target) (aliases : AliasMap) (m : Model) : Trace :=
  Trace.after (aliases.require m) fun sourceName => match m.source with
    | .jsonRowset _ => Trace.join (m.columns.map fun c => .name c.name) ++ .name sourceName
    | _ => t.tableTrace m ++ .name sourceName

def columnsUnderTrace (sourceName : String) (columns : List Field) : Trace :=
  if columns.isEmpty then .name sourceName
  else Trace.join (columns.map fun f => .name sourceName ++ .name f.name)

def Target.tableSelectTrace (t : Target) (aliases : AliasMap) (m : Model) (columns : List Field) :
    Trace :=
  Trace.after (aliases.require m) fun sourceName =>
    columnsUnderTrace sourceName columns ++ t.tableSourceTrace aliases m

namespace Scope

def projectionTrace (scope : Scope) (p : Projection) : Trace :=
  p.source.trace scope ++
    (if isColumnNamed p.target.name p.source then {} else .name p.target.name)

def optionalTrace (scope : Scope) : Option Expr → Trace
  | some x => x.trace scope
  | none => {}

def traces (scope : Scope) (xs : List Expr) : Trace := Trace.join (xs.map (Expr.trace scope))

/-- A select whose source is walked already. An order counts in the outermost query and where it limits
the rows. -/
def selectTrace (scope : Scope) (outermost : Bool) (s : Select) (source : Trace) : Trace :=
  Trace.join (s.columns.map scope.projectionTrace) ++ source ++ scope.optionalTrace s.filter
    ++ scope.traces s.groupBy ++ scope.optionalTrace s.having
    ++ (if outermost || s.isLimited then scope.traces (s.orderBy.map OrderTerm.expr) else {})

def joinTrace (scope : Scope) (c : JoinCondition) : Trace :=
  Trace.join (c.pairs.map (fun pair => scope.columnTrace pair.1 ++ scope.columnTrace pair.2)
    ++ (c.extra.map (Expr.trace scope)).toList)

end Scope

def aliasedTrace (aliases : AliasMap) (output : Model) (query : Trace) : Trace :=
  Trace.after (aliases.require output) fun sourceName => query ++ .name sourceName

mutual

def Target.queryTrace (t : Target) (aliases : AliasMap) (outermost : Bool) : Statement → Trace
  | .table m => t.tableSelectTrace aliases m (m.columns.map Column.toField)
  | .select body none => (t.scope aliases).selectTrace outermost body {}
  | .select body (some source) =>
    (t.scope aliases).selectTrace outermost body (t.sourceTrace aliases source)
  | .union _ left right _ => t.queryTrace aliases false left ++ t.queryTrace aliases false right
  | .join .. => {}

def Target.sourceTrace (t : Target) (aliases : AliasMap) : Statement → Trace
  | .table m => t.tableSourceTrace aliases m
  | .select body none => aliasedTrace aliases body.output ((t.scope aliases).selectTrace false body {})
  | .select body (some source) =>
    aliasedTrace aliases body.output
      ((t.scope aliases).selectTrace false body (t.sourceTrace aliases source))
  | .union output left right _ =>
    aliasedTrace aliases output (t.queryTrace aliases false left ++ t.queryTrace aliases false right)
  | .join left right _ c =>
    t.sourceTrace aliases left ++ t.sourceTrace aliases right ++ (t.scope aliases).joinTrace c

end

/-! ### Types -/

def Statement.tables : Statement → List Model
  | .table m => [m]
  | .select _ none => []
  | .select _ (some source) => source.tables
  | .union _ left right _ => left.tables ++ right.tables
  | .join left right _ _ => left.tables ++ right.tables

/-- The columns have types that are not user-defined. -/
def Target.HasPlainTypes (t : Target) (columns : List Column) : Prop :=
  ∀ c ∈ columns, ∀ n, t.types.resolve c.toField ≠ .ok (.udt n)

/-- The rowsets among some tables have no column of a user-defined type. -/
def Target.HasPlainRowsets (t : Target) (tables : List Model) : Prop :=
  ∀ m ∈ tables, ∀ p, m.source = .jsonRowset p → t.HasPlainTypes m.columns

theorem Target.HasPlainRowsets.of_append {t : Target} {tables tables' : List Model}
    (h : t.HasPlainRowsets (tables ++ tables')) :
    t.HasPlainRowsets tables ∧ t.HasPlainRowsets tables' :=
  ⟨fun m hm => h m (List.mem_append_left _ hm), fun m hm => h m (List.mem_append_right _ hm)⟩

/-! ### Parts of queries -/

namespace Emission.Spells

variable {x y : Emission} {a b : Trace}

theorem qualified (schema : Option String) (table : String) :
    (Tsql.qualified schema table).Spells .anywhere (some .tight) (qualifiedTrace schema table) := by
  cases schema with
  | none => exact name table
  | some s => exact (((name s).word ".").clause (name table)).at_edge (by decide)

theorem tableName (t : Target) (m : Model) :
    (t.tableName m).Spells .anywhere (some .tight) (t.tableTrace m) := by
  unfold Target.tableName Target.tableTrace
  cases m.source with
  | table => exact qualified _ _
  | tempTable => exact resolved fun s _ => name s
  | jsonRowset p => exact fail _
  | derived => exact fail _

theorem rowsetColumns {t : Target} {columns : List Column} (h : t.HasPlainTypes columns) :
    (t.rowsetColumns columns).Spells .harmless (some .loose)
      (Trace.join (columns.map fun c => .name c.name)) := by
  refine listed fun c hc => after fun type htype => ?_
  have hplain : ∀ n, type ≠ .udt n := fun n hn => h c hc n (hn ▸ htype)
  exact (((name c.name).word " ").silent (sqlType hplain)).closed (by decide) |>.harmless

theorem tableSource {t : Target} (aliases : AliasMap) {m : Model}
    (h : ∀ p, m.source = .jsonRowset p → t.HasPlainTypes m.columns) :
    (t.tableSource aliases m).Spells .anywhere (some .loose) (t.tableSourceTrace aliases m) := by
  refine resolved fun sourceName _ => ?_
  cases hs : m.source with
  | table =>
    exact (((tableName t m).word " ").clause (name sourceName)).closed (by decide)
  | tempTable =>
    exact (((tableName t m).word " ").clause (name sourceName)).closed (by decide)
  | jsonRowset p =>
    exact ((((((ofWord "OPENJSON(").silent (placeholder p)).word ") WITH (").value
      (rowsetColumns (h p hs))).word ") ").clause (name sourceName)).closed (by decide)
  | derived => exact fail _

theorem columnsUnder (sourceName : String) (columns : List Field) :
    (Tsql.columnsUnder sourceName columns).Spells .harmless (some .loose)
      (columnsUnderTrace sourceName columns) := by
  unfold Tsql.columnsUnder columnsUnderTrace
  split
  · exact (((name sourceName).word ".*").closed (by decide)).harmless
  · refine listed fun f _ => ?_
    exact ((((name sourceName).word ".").clause (name f.name)).closed (by decide)).harmless

theorem tableSelect {t : Target} (aliases : AliasMap) {m : Model}
    (h : ∀ p, m.source = .jsonRowset p → t.HasPlainTypes m.columns) (columns : List Field) :
    (t.tableSelect aliases m columns).Spells .anywhere (some .loose)
      (t.tableSelectTrace aliases m columns) := by
  refine resolved fun sourceName _ => ?_
  exact (((((ofWord "SELECT ").value (columnsUnder sourceName columns)).silent line).word
    "FROM ").clause (tableSource aliases h)).closed (by decide)

theorem projection (scope : Scope) (p : Projection) :
    (scope.projection p).Spells .harmless (some .loose) (scope.projectionTrace p) := by
  have hx := (p.source.value_spells scope).harmless
  unfold Scope.projection Scope.projectionTrace
  split
  · rw [Trace.append_empty]
    exact hx.alone
  · exact (hx.clause (((ofWord " AS ").clause (name _)).closed (by decide))).closed
      (by decide)

theorem direction (d : SortDirection) : d.text.Spells .anywhere (some .loose) {} := by
  cases d with
  | unspecified => exact nothing
  | ascending => exact (ofWord " ASC").closed (by decide)
  | descending => exact (ofWord " DESC").closed (by decide)

theorem orderTerm (scope : Scope) (o : OrderTerm) :
    (scope.orderTerm o).Spells .harmless (some .loose) (o.expr.trace scope) :=
  ((o.expr.value_spells scope).harmless.silent (direction o.direction)).closed (by decide)

/-- A clause whose keyword ends in something harmless. -/
theorem clauseOf {keyword : String} (hk : Edge.tight.word keyword = some .tight) {start : Start}
    (hx : x.Spells start (some .loose) a) :
    (Tsql.clause keyword x).Spells .anywhere (some .loose) a := by
  refine ((line.word keyword).value hx).closed ?_
  rw [Option.bind_some, hk]
  rfl

theorem condition (scope : Scope) {keyword : String} (hk : Edge.tight.word keyword = some .tight)
    (x : Option Expr) :
    (scope.condition keyword x).Spells .anywhere (some .loose) (scope.optionalTrace x) := by
  cases x with
  | none => exact nothing
  | some x => exact clauseOf hk (x.predicate_spells scope)

theorem limitClause (s : Select) : (Tsql.limitClause s).Spells .anywhere (some .loose) {} := by
  unfold Tsql.limitClause
  split
  · have hoffset : (Tsql.clause "OFFSET " (Emission.word (Text.natText (s.offset.getD 0)) ++
        Emission.word " ROWS")).Spells .anywhere (some .loose) {} :=
      clauseOf (by decide) (((natText _).word " ROWS").closed (by decide))
    cases s.fetch with
    | none => exact hoffset.alone
    | some n =>
      refine (hoffset.silent (?_ : Emission.Spells _ _ (some .loose) _)).closed (by decide)
      exact (((ofWord " FETCH NEXT ").silent (natText n)).word " ROWS ONLY").closed
        (by decide)
  · exact nothing

theorem orderAndLimit (scope : Scope) (s : Select) :
    (scope.orderAndLimit s).Spells .anywhere (some .loose)
      (scope.traces (s.orderBy.map OrderTerm.expr)) := by
  have horder : (if s.orderBy.isEmpty then
        if s.isLimited then Tsql.clause "ORDER BY (SELECT NULL)" .nothing else .nothing
      else Tsql.clause "ORDER BY " (Emission.listed (s.orderBy.map scope.orderTerm))).Spells
      .anywhere (some .loose) (scope.traces (s.orderBy.map OrderTerm.expr)) := by
    rw [Scope.traces, List.map_map]
    split
    · next hnil =>
      rw [List.isEmpty_iff.1 hnil]
      split
      · exact clauseOf (by decide) nothing
      · exact nothing
    · exact clauseOf (by decide) (listed fun o _ => orderTerm scope o)
  exact (horder.silent (limitClause s)).closed (by decide)

theorem projections (scope : Scope) (columns : List Projection) :
    (scope.projections columns).Spells .harmless (some .loose)
      (Trace.join (columns.map scope.projectionTrace)) := by
  unfold Scope.projections
  split
  · next hnil =>
    rw [List.isEmpty_iff.1 hnil]
    exact (ofWordBehind "*").closed (by decide)
  · exact listed fun p _ => projection scope p

theorem values (scope : Scope) (xs : List Expr) :
    (Emission.listed (xs.map (Expr.value scope))).Spells .harmless (some .loose)
      (scope.traces xs) :=
  listed fun x _ => (x.value_spells scope).harmless

theorem grouping (scope : Scope) (groupBy : List Expr) :
    (scope.grouping groupBy).Spells .anywhere (some .loose) (scope.traces groupBy) := by
  unfold Scope.grouping
  split
  · next hnil =>
    rw [List.isEmpty_iff.1 hnil]
    exact nothing
  · exact clauseOf (by decide) (values scope groupBy)

theorem select (scope : Scope) (outermost : Bool) (s : Select) {source : Option Emission}
    (h : (sourceClause source).Spells .anywhere (some .loose) a) :
    (scope.select outermost s source).Spells .anywhere (some .loose)
      (scope.selectTrace outermost s a) := by
  have hhead : (Emission.word "SELECT " ++
      (if s.distinct then Emission.word "DISTINCT " else .nothing)).Spells .anywhere
        (some .tight) {} := by
    split
    · exact ((ofWord "SELECT ").word "DISTINCT ").at_edge (by decide)
    · exact ((ofWord "SELECT ").at_edge (by decide)).alone
  have horder : (if outermost || s.isLimited then scope.orderAndLimit s else .nothing).Spells
      .anywhere (some .loose)
      (if outermost || s.isLimited then scope.traces (s.orderBy.map OrderTerm.expr) else {}) := by
    split
    · exact orderAndLimit scope s
    · exact nothing
  exact ((((((hhead.value (projections scope s.columns)).clause h).clause
    (condition scope (by decide) s.filter)).clause (grouping scope s.groupBy)).clause
    (condition scope (by decide) s.having)).clause horder).closed (by decide)

theorem nested (hx : x.Spells .anywhere (some .loose) a) :
    (Tsql.nested x).Spells .anywhere (some .tight) a :=
  ((((((ofWord "(").silent indent).silent line).clause hx).silent outdent).silent line).word ")"
    |>.at_edge (by decide)

theorem unionOf (kind : UnionKind) (hx : x.Spells .anywhere (some .loose) a)
    (hy : y.Spells .anywhere (some .loose) b) :
    (Tsql.unionOf kind x y).Spells .anywhere (some .loose) (a ++ b) :=
  (((((nested hx).silent line).word kind.sql).silent line).clause (nested hy)).closed
    (by cases kind <;> decide)

theorem aliased (aliases : AliasMap) (output : Model) (hx : x.Spells .anywhere (some .loose) a) :
    (Tsql.aliased aliases output x).Spells .anywhere (some .loose)
      (aliasedTrace aliases output a) :=
  resolved fun s _ => (((nested hx).word " ").clause (name s)).closed (by decide)

theorem equality (scope : Scope) (pair : ColumnRef × ColumnRef) :
    (scope.equality pair).Spells .harmless (some .loose)
      (scope.columnTrace pair.1 ++ scope.columnTrace pair.2) :=
  (((column scope pair.1).word " = ").clause (column scope pair.2)).closed (by decide)
    |>.harmless

theorem joinParts (scope : Scope) (c : JoinCondition) :
    Each (scope.joinParts c)
      (c.pairs.map (fun pair => scope.columnTrace pair.1 ++ scope.columnTrace pair.2)
        ++ (c.extra.map (Expr.trace scope)).toList) := by
  refine List.rel_append (each fun pair _ => equality scope pair) ?_
  cases c.extra with
  | none => exact .nil
  | some x => exact .cons (x.predicate_spells scope) .nil

theorem joinClause (scope : Scope) (c : JoinCondition) :
    (scope.joinClause c).Spells .anywhere (some .loose) (scope.joinTrace c) := by
  unfold Scope.joinClause
  split
  · exact ((ofWord " ON ").value (separated (by decide) (joinParts scope c))).closed
      (by decide)
  · next hnone =>
    simp only [JoinCondition.isSome, Bool.or_eq_true, Bool.not_eq_true', not_or,
      Bool.not_eq_false, List.isEmpty_iff, Option.not_isSome_iff_eq_none] at hnone
    rw [Scope.joinTrace, hnone.1, hnone.2]
    exact nothing

theorem join (scope : Scope) (kind : JoinKind) (c : JoinCondition) (rightIsJoin : Bool)
    (hx : x.Spells .anywhere (some .loose) a) (hy : y.Spells .anywhere (some .loose) b) :
    (scope.join kind c x y rightIsJoin).Spells .anywhere (some .loose)
      (a ++ b ++ scope.joinTrace c) := by
  have hright : (if rightIsJoin then Emission.word "(" ++ y ++ Emission.word ")" else y).Spells
      .anywhere (some .loose) b := by
    split
    · exact (((ofWord "(").clause hy).word ")").closed (by decide)
    · exact hy
  unfold Scope.join
  split
  · exact fail _
  · exact (((((hx.silent line).word kind.sql).word " ").clause hright).clause
      (joinClause scope c)).closed (by cases kind <;> decide)

end Emission.Spells

/-! ### Statements -/

mutual

theorem Target.query_spells {t : Target} (aliases : AliasMap) (outermost : Bool) {s : Statement}
    (h : t.HasPlainRowsets s.tables) :
    (t.query aliases outermost s).Spells .anywhere (some .loose)
      (t.queryTrace aliases outermost s) := by
  match s with
  | .table m =>
    rw [query, queryTrace]
    exact Spells.tableSelect aliases (h m (List.mem_singleton.2 rfl)) _
  | .select body none =>
    rw [query, queryTrace]
    exact Spells.select _ outermost body Spells.nothing
  | .select body (some source) =>
    rw [query, queryTrace]
    exact Spells.select _ outermost body
      (Spells.clauseOf (by decide) (source_spells aliases h))
  | .union output left right kind =>
    obtain ⟨hl, hr⟩ := HasPlainRowsets.of_append h
    rw [query, queryTrace]
    exact Spells.unionOf kind (query_spells aliases false hl) (query_spells aliases false hr)
  | .join .. =>
    rw [query]
    exact Spells.fail _

theorem Target.source_spells {t : Target} (aliases : AliasMap) {s : Statement}
    (h : t.HasPlainRowsets s.tables) :
    (t.source aliases s).Spells .anywhere (some .loose) (t.sourceTrace aliases s) := by
  match s with
  | .table m =>
    rw [source, sourceTrace]
    exact Spells.tableSource aliases (h m (List.mem_singleton.2 rfl))
  | .select body none =>
    rw [source, sourceTrace]
    exact Spells.aliased aliases _ (Spells.select _ false body Spells.nothing)
  | .select body (some source) =>
    rw [Target.source, sourceTrace]
    exact Spells.aliased aliases _ (Spells.select _ false body
      (Spells.clauseOf (by decide) (source_spells aliases h)))
  | .union output left right kind =>
    obtain ⟨hl, hr⟩ := HasPlainRowsets.of_append h
    rw [source, sourceTrace]
    exact Spells.aliased aliases output
      (Spells.unionOf kind (query_spells aliases false hl) (query_spells aliases false hr))
  | .join left right kind c =>
    obtain ⟨hl, hr⟩ := HasPlainRowsets.of_append h
    rw [source, sourceTrace]
    exact Spells.join _ kind c _ (source_spells aliases hl) (source_spells aliases hr)

end

end Tsql
