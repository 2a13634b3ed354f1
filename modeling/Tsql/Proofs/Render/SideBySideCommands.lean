import Tsql.Proofs.Render.CommandOutline
import Tsql.Proofs.Render.SideBySide

/-!
# Commands side by side

What holds of expressions by `SideBySide.node` holds of queries and commands: where the two scopes of a
command are side by side, two renderings of it are related. The second is for a target with the renamed
types and temporary tables of the first, `Target.Alike`. `Command.exprs` are the expressions of a command in
the order of its text, `Target.commandScope` is the scope that they are rendered in.
-/

namespace Tsql

open Text Emission

/-! ### The walk -/

/-- The expressions of a select, given those of its source. An order counts in the outermost query and
where it limits the rows. -/
def Select.exprs (outermost : Bool) (s : Select) (source : List Expr) : List Expr :=
  s.columns.map Projection.source ++ source ++ s.filter.toList ++ s.groupBy ++ s.having.toList
    ++ (if outermost || s.isLimited then s.orderBy.map OrderTerm.expr else [])

/-- The expressions of a statement, in the order of its text. -/
def Statement.exprs (outermost : Bool) : Statement → List Expr
  | table _ => []
  | select body none => body.exprs outermost []
  | select body (some source) => body.exprs outermost (source.exprs false)
  | union _ left right _ => left.exprs false ++ right.exprs false
  | join left right _ c => left.exprs false ++ right.exprs false ++ c.extra.toList

/-- The expressions of a command, in the order of its text. -/
def Command.exprs : Command → List Expr
  | query s => s.exprs true
  | insert i =>
    if i.columns.isEmpty then i.source.exprs true
    else i.columns.map Projection.source ++ i.source.exprs false
  | insertRow i => i.values.map Projection.source
  | update u => u.assignments.map Projection.source
    ++ (u.source.getD (.table u.target)).exprs false ++ u.filter.toList
  | delete d => (d.source.getD (.table d.target)).exprs false ++ d.filter.toList

def trimsOf (xs : List Expr) : List Expr := xs.flatMap Expr.trims

theorem trimsOf_append (xs ys : List Expr) : trimsOf (xs ++ ys) = trimsOf xs ++ trimsOf ys :=
  List.flatMap_append

/-- The operands of `Trim` in a command, in the order of its text. -/
def Command.trims (c : Command) : List Expr := trimsOf c.exprs

def Target.commandScope (t : Target) (c : Command) : Scope where
  version := t.version
  aliases := c.aliasRoot?.bind fun (asSource, s) => (t.temps.aliases (s.sources asSource)).toOption

/-! ### Names -/

section

variable (σ : Renaming)

theorem AliasMap.require_agrees (a : AliasMap) (m : Model) :
    Result.Agrees id (a.require m) ((a.rename σ).require (m.rename σ)) := by
  unfold AliasMap.require
  rw [show (m.rename σ).id = σ.model m.id from rfl, a.get?_rename]
  cases a.get? m.id with
  | none => exact .error rfl
  | some name => exact .ok name

theorem TempTables.require_rename (t : TempTables) (m : Model) :
    (t.rename σ).require (m.rename σ) = t.require m := by
  unfold TempTables.require
  rw [show (m.rename σ).id = σ.model m.id from rfl, t.get?_rename]
  rfl

theorem TempTables.aliasBase_rename (t : TempTables) (m : Model) :
    (t.rename σ).aliasBase (m.rename σ) = t.aliasBase m := by
  unfold TempTables.aliasBase
  rw [t.require_rename, show (m.rename σ).source = m.source.rename σ from rfl]
  cases m.source <;> rfl

theorem TempTables.addAlias_rename (t : TempTables) (acc : AliasMap × UniqueNames) (m : Model) :
    (t.rename σ).addAlias (Prod.map (AliasMap.rename σ) id acc) (m.rename σ) =
      (t.addAlias acc m).map (Prod.map (AliasMap.rename σ) id) := by
  obtain ⟨map, names⟩ := acc
  unfold TempTables.addAlias
  rw [t.aliasBase_rename]
  dsimp only [Prod.map]
  rw [show (m.rename σ).id = σ.model m.id from rfl, map.get?_rename]
  cases map.get? m.id with
  | some name => rfl
  | none => cases t.aliasBase m <;> rfl

theorem TempTables.aliases_rename (t : TempTables) (models : List Model) :
    (t.rename σ).aliases (models.map (Model.rename σ)) =
      (t.aliases models).map (AliasMap.rename σ) := by
  have hfold := Result.foldlM_map (t.addAlias_rename σ) models ({}, {})
  unfold TempTables.aliases
  refine (congrArg (Except.map Prod.fst) hfold).trans ?_
  cases models.foldlM t.addAlias ({}, {}) <;> rfl

theorem JoinCondition.isSome_rename (c : JoinCondition) : (c.rename σ).isSome = c.isSome := by
  simp [JoinCondition.isSome, JoinCondition.rename]

theorem JoinKind.conditionError?_rename (kind : JoinKind) (c : JoinCondition) :
    kind.conditionError? (c.rename σ) = kind.conditionError? c := by
  unfold JoinKind.conditionError?
  rw [c.isSome_rename]

theorem Update.source_rename (u : Update) :
    (u.rename σ).source.getD (.table (u.rename σ).target) =
      (u.source.getD (.table u.target)).rename σ := by
  obtain ⟨target, assignments, source, filter⟩ := u
  cases source <;> rfl

theorem Delete.source_rename (d : Delete) :
    (d.rename σ).source.getD (.table (d.rename σ).target) =
      (d.source.getD (.table d.target)).rename σ := by
  obtain ⟨target, source, filter⟩ := d
  cases source <;> rfl

theorem Command.aliasRoot?_rename (c : Command) :
    (c.rename σ).aliasRoot? = c.aliasRoot?.map (Prod.map id (Statement.rename σ)) := by
  cases c with
  | query s => rfl
  | insert i => simp [Command.rename, Insert.rename, aliasRoot?]
  | insertRow i => rfl
  | update u => simp [Command.rename, aliasRoot?, u.source_rename]
  | delete d => simp [Command.rename, aliasRoot?, d.source_rename]

end

/-- The second target has the types and temporary tables of the first, under other identities. -/
structure Target.Alike (σ : Renaming) (t t' : Target) : Prop where
  types_eq : t'.types = t.types.rename σ
  temps_eq : t'.temps = t.temps.rename σ

variable {σ : Renaming} {R : List Expr → Emission → Emission → Prop} {as bs : List Expr}
  {x x' y y' : Emission} {t t' : Target} {aliases : AliasMap}

/-- A command's aliases are given to the same models. -/
theorem Target.aliases_commandScope (ht : t.Alike σ t') (c : Command) :
    (t'.commandScope (c.rename σ)).aliases = (t.commandScope c).aliases.map (AliasMap.rename σ) := by
  unfold Target.commandScope
  rw [c.aliasRoot?_rename]
  cases c.aliasRoot? with
  | none => rfl
  | some root =>
    dsimp only [Option.map_some, Option.bind_some, Prod.map, id]
    rw [ht.temps_eq, root.2.sources_rename, t.temps.aliases_rename]
    cases t.temps.aliases (root.2.sources root.1) <;> rfl

/-! ### Tables -/

namespace Emission.Lockstep

variable (h : Lockstep σ R)

include h

theorem qualified (schema : Option String) (table : String) :
    R [] (qualified schema table) (qualified schema table) := by
  cases schema with
  | none => exact h.name table
  | some s => exact h.follow (h.follow (h.name s) (h.word ".")) (h.name table)

theorem tableName (ht : t.Alike σ t') (m : Model) :
    R [] (t.tableName m) (t'.tableName (m.rename σ)) := by
  unfold Target.tableName
  rw [ht.temps_eq, t.temps.require_rename, show (m.rename σ).source = m.source.rename σ from rfl]
  cases m.source with
  | table => exact h.qualified _ _
  | tempTable => exact h.afterSame _ fun name => h.name name
  | jsonRowset p => exact h.fail _ rfl
  | derived => exact h.fail _ rfl

theorem rowsetColumns (ht : t.Alike σ t') (columns : List Column) :
    R [] (t.rowsetColumns columns) (t'.rowsetColumns (columns.map (Column.rename σ))) := by
  unfold Target.rowsetColumns
  rw [List.map_map, ht.types_eq]
  refine h.listed (.map_nil fun c _ => ?_)
  rw [Function.comp_apply, show (c.rename σ).toField = c.toField.rename σ from rfl,
    t.types.resolve_rename]
  exact h.afterSame _ fun type => h.follow (h.follow (h.name c.name) (h.word " ")) (h.word type.sql)

theorem tableSource (ht : t.Alike σ t') (m : Model) :
    R [] (t.tableSource aliases m) (t'.tableSource (aliases.rename σ) (m.rename σ)) := by
  refine h.after (aliases.require_agrees σ m) fun sourceName _ => ?_
  have htable := h.follow (h.follow (h.tableName ht m) (h.word " ")) (h.name sourceName)
  rw [show (m.rename σ).source = m.source.rename σ from rfl]
  cases m.source with
  | table => exact htable
  | tempTable => exact htable
  | jsonRowset p =>
    have hopen := h.enclosed "OPENJSON(" ") WITH (" (h.piece (.placeholder p))
    exact h.follow (h.follow (h.follow hopen (h.rowsetColumns ht m.columns)) (h.word ") "))
      (h.name sourceName)
  | derived => exact h.fail _ rfl

theorem columnsUnder (sourceName : String) (columns : List Field) :
    R [] (columnsUnder sourceName columns) (columnsUnder sourceName (columns.map (Field.rename σ))) := by
  unfold Tsql.columnsUnder
  rw [List.isEmpty_map, List.map_map]
  split
  · exact h.follow (h.name sourceName) (h.word ".*")
  · exact h.listed (.map_nil fun f _ => h.follow (h.follow (h.name sourceName) (h.word ".")) (h.name f.name))

theorem tableSelect (ht : t.Alike σ t') (m : Model) (columns : List Field) :
    R [] (t.tableSelect aliases m columns)
      (t'.tableSelect (aliases.rename σ) (m.rename σ) (columns.map (Field.rename σ))) := by
  refine h.after (aliases.require_agrees σ m) fun sourceName _ => ?_
  exact h.follow (h.follow (h.follow (h.follow (h.word "SELECT ") (h.columnsUnder sourceName columns))
    h.line) (h.word "FROM ")) (h.tableSource ht m)

/-! ### Parts of queries -/

theorem direction (d : SortDirection) : R [] d.text d.text := by
  cases d with
  | ascending => exact h.word _
  | descending => exact h.word _
  | unspecified => exact h.nothing

theorem limitClause (s : Select) : R [] (limitClause s) (limitClause (s.rename σ)) := by
  unfold Tsql.limitClause
  rw [show (s.rename σ).isLimited = s.isLimited from rfl]
  split
  · refine h.append (h.clause _ (h.append (h.word _) (h.word _))) ?_
    rw [show (s.rename σ).fetch = s.fetch from rfl]
    cases s.fetch with
    | none => exact h.nothing
    | some n => exact h.enclosed _ _ (h.word _)
  · exact h.nothing

theorem sourceClause {x x' : Emission} (hx : R as x x') :
    R as (sourceClause (some x)) (sourceClause (some x')) := h.clause "FROM " hx

theorem nested (hx : R as x x') : R as (nested x) (nested x') :=
  h.follow (h.follow (h.follow (h.append (h.append (h.append (h.word "(") (h.piece .indent)) h.line) hx)
    (h.piece .outdent)) h.line) (h.word ")")

theorem unionOf (kind : UnionKind) (hx : R as x x') (hy : R bs y y') :
    R (as ++ bs) (unionOf kind x y) (unionOf kind x' y') :=
  h.append (h.follow (h.follow (h.follow (h.nested hx) h.line) (h.word kind.sql)) h.line) (h.nested hy)

theorem aliased (output : Model) (hx : R as x x') :
    R as (aliased aliases output x) (aliased (aliases.rename σ) (output.rename σ) x') := by
  refine h.after (aliases.require_agrees σ output) fun sourceName _ => ?_
  exact h.follow (h.follow (h.nested hx) (h.word " ")) (h.name sourceName)

end Emission.Lockstep

namespace SideBySide

section Scope

variable {s s' : Scope} (h : SideBySide σ s s' R)

include h

theorem condition (keyword : String) (x : Option Expr) :
    R (trimsOf x.toList) (s.condition keyword x) (s'.condition keyword (x.map (Expr.rename σ))) := by
  cases x with
  | none => exact h.nothing
  | some x =>
    rw [trimsOf, Option.toList_some, List.flatMap_singleton]
    exact h.clause _ (h.predicate x)

theorem projection (p : Projection) :
    R p.source.trims (s.projection p) (s'.projection (p.rename σ)) := by
  refine h.follow (h.value p.source) ?_
  rw [show (p.rename σ).source = p.source.rename σ from rfl,
    show (p.rename σ).target.name = p.target.name from rfl, isColumnNamed_rename]
  split
  · exact h.nothing
  · exact h.follow (h.word " AS ") (h.name _)

theorem projections (columns : List Projection) :
    R (trimsOf (columns.map Projection.source)) (s.projections columns)
      (s'.projections (columns.map (Projection.rename σ))) := by
  unfold Scope.projections
  rw [List.isEmpty_map, List.map_map, trimsOf, List.flatMap_map]
  split
  · next he =>
    rw [List.isEmpty_iff.1 he]
    exact h.word "*"
  · exact h.listed (.map fun p _ => h.projection p)

theorem grouping (groupBy : List Expr) :
    R (trimsOf groupBy) (s.grouping groupBy) (s'.grouping (groupBy.map (Expr.rename σ))) := by
  unfold Scope.grouping
  rw [List.isEmpty_map, List.map_map]
  split
  · next he =>
    rw [List.isEmpty_iff.1 he]
    exact h.nothing
  · exact h.clause _ (h.listed (.map fun x _ => h.value x))

theorem orderAndLimit (body : Select) :
    R (trimsOf (body.orderBy.map OrderTerm.expr)) (s.orderAndLimit body)
      (s'.orderAndLimit (body.rename σ)) := by
  refine h.follow ?_ (h.limitClause body)
  rw [show (body.rename σ).orderBy = body.orderBy.map (OrderTerm.rename σ) from rfl, List.isEmpty_map,
    List.map_map, show (body.rename σ).isLimited = body.isLimited from rfl, trimsOf, List.flatMap_map]
  split
  · next he =>
    rw [List.isEmpty_iff.1 he]
    split
    · exact h.clause _ h.nothing
    · exact h.nothing
  · exact h.clause _ (h.listed (.map fun o _ => h.follow (h.value o.expr) (h.direction o.direction)))

theorem select (outermost : Bool) (body : Select) {source : List Expr} {x x' : Option Emission}
    (hx : R (trimsOf source) (sourceClause x) (sourceClause x')) :
    R (trimsOf (body.exprs outermost source)) (s.select outermost body x)
      (s'.select outermost (body.rename σ) x') := by
  unfold Scope.select Select.exprs
  simp only [trimsOf_append]
  rw [show (body.rename σ).distinct = body.distinct from rfl,
    show (body.rename σ).isLimited = body.isLimited from rfl]
  have hdistinct : R [] (if body.distinct then word "DISTINCT " else nothing)
      (if body.distinct then word "DISTINCT " else nothing) := by
    split
    · exact h.word _
    · exact h.nothing
  have hhead := h.append (h.append (h.append (h.append (h.append (h.append (h.word "SELECT ") hdistinct)
    (h.projections body.columns)) hx) (h.condition "WHERE " body.filter)) (h.grouping body.groupBy))
    (h.condition "HAVING " body.having)
  refine h.append hhead ?_
  split
  · exact h.orderAndLimit body
  · exact h.nothing

theorem equality (pair : ColumnRef × ColumnRef) :
    R [] (s.equality pair) (s'.equality (pair.1.rename σ, pair.2.rename σ)) :=
  h.follow (h.follow (h.column pair.1) (h.word " = ")) (h.column pair.2)

theorem joinClause (c : JoinCondition) :
    R (trimsOf c.extra.toList) (s.joinClause c) (s'.joinClause (c.rename σ)) := by
  have hextra : Each R (trimsOf c.extra.toList) (c.extra.map fun x => x.predicate s).toList
      ((c.rename σ).extra.map fun x => x.predicate s').toList := by
    rw [show (c.rename σ).extra = c.extra.map (Expr.rename σ) from rfl]
    cases c.extra with
    | none => exact .nil
    | some x => exact .cons (h.predicate x) .nil
  have hpairs : Each R [] (c.pairs.map s.equality) ((c.rename σ).pairs.map s'.equality) := by
    rw [show (c.rename σ).pairs = c.pairs.map fun pair => (pair.1.rename σ, pair.2.rename σ) from rfl,
      List.map_map]
    exact .map_nil fun pair _ => h.equality pair
  unfold Scope.joinClause
  rw [c.isSome_rename]
  split
  · exact h.append (h.word " ON ") (h.separated _ (hpairs.append hextra))
  · next hnone =>
    have hextra : c.extra = none := by
      simp [JoinCondition.isSome] at hnone
      exact hnone.2
    rw [hextra]
    exact h.nothing

theorem join (kind : JoinKind) (c : JoinCondition) (rightIsJoin : Bool) (hx : R as x x')
    (hy : R bs y y') :
    R (as ++ bs ++ trimsOf c.extra.toList) (s.join kind c x y rightIsJoin)
      (s'.join kind (c.rename σ) x' y' rightIsJoin) := by
  unfold Scope.join
  rw [kind.conditionError?_rename]
  split
  · exact h.fail _ rfl
  refine h.append (h.append (h.follow (h.follow (h.follow hx h.line) (h.word _)) (h.word " ")) ?_)
    (h.joinClause c)
  split
  · exact h.enclosed _ _ hy
  · exact hy

theorem assignment (p : Projection) :
    R p.source.trims (s.assignment p) (s'.assignment (p.rename σ)) :=
  h.append (h.follow (h.name _) (h.word " = ")) (h.value p.source)

theorem rowValues (values : List Projection) :
    R (trimsOf (values.map Projection.source)) (s.rowValues values)
      (s'.rowValues (values.map (Projection.rename σ))) := by
  unfold Scope.rowValues
  rw [List.isEmpty_map, List.map_map, List.map_map, trimsOf, List.flatMap_map]
  split
  · next he =>
    rw [List.isEmpty_iff.1 he]
    exact h.word _
  · refine h.follow (h.append (h.enclosed _ _ (h.names _)) (h.clause _ (h.listed (.map fun p _ => ?_))))
      (h.word ")")
    exact h.value p.source

end Scope

/-! ### Statements -/

section Statements

variable (ht : t.Alike σ t') (h : SideBySide σ (t.scope aliases) (t'.scope (aliases.rename σ)) R)

include ht h

mutual

theorem query (outermost : Bool) (s : Statement) :
    R (trimsOf (s.exprs outermost)) (t.query aliases outermost s)
      (t'.query (aliases.rename σ) outermost (s.rename σ)) := by
  match s with
  | .table m =>
    rw [Statement.rename, Target.query, Target.query, m.fields_rename]
    exact h.tableSelect ht m _
  | .select body none =>
    rw [Statement.rename, Target.query, Target.query]
    exact h.select outermost body h.nothing
  | .select body (some source) =>
    rw [Statement.rename, Target.query, Target.query]
    exact h.select outermost body (h.sourceClause (source_related source))
  | .union _ left right kind =>
    rw [Statement.rename, Target.query, Target.query, Statement.exprs, trimsOf_append]
    exact h.unionOf kind (query false left) (query false right)
  | .join .. =>
    rw [Statement.rename, Target.query, Target.query]
    exact h.fail _ rfl

theorem source_related (s : Statement) :
    R (trimsOf (s.exprs false)) (t.source aliases s)
      (t'.source (aliases.rename σ) (s.rename σ)) := by
  match s with
  | .table m =>
    rw [Statement.rename, Target.source, Target.source]
    exact h.tableSource ht m
  | .select body none =>
    rw [Statement.rename, Target.source, Target.source]
    exact h.aliased _ (h.select false body h.nothing)
  | .select body (some source) =>
    rw [Statement.rename, Target.source, Target.source]
    exact h.aliased _ (h.select false body (h.sourceClause (source_related source)))
  | .union output left right kind =>
    rw [Statement.rename, Target.source, Target.source, Statement.exprs, trimsOf_append]
    exact h.aliased output (h.unionOf kind (query false left) (query false right))
  | .join left right kind c =>
    rw [Statement.rename, Target.source, Target.source, right.isJoin_rename, Statement.exprs,
      trimsOf_append, trimsOf_append]
    exact h.join kind c _ (source_related left) (source_related right)

end

end Statements

end SideBySide

/-! ### Inserts -/

def InsertBody.rename (σ : Renaming) : InsertBody → InsertBody
  | .mapped => .mapped
  | .query => .query
  | .table source columns => .table (source.rename σ) (columns.map (Field.rename σ))

namespace Insert

theorem sourceColumn_rename (i : Insert) (source : Model) (c : Column) :
    (i.rename σ).sourceColumn (source.rename σ) (c.rename σ) =
      (i.sourceColumn source c).map (Field.rename σ) := by
  unfold sourceColumn
  rw [source.column?_rename, show (c.rename σ).name = c.name from rfl]
  cases source.column? c.name <;> rfl

theorem targetColumn_rename (i : Insert) (p : Projection) :
    (i.rename σ).targetColumn (p.rename σ) = i.targetColumn p := by
  unfold targetColumn
  rw [show (i.rename σ).target = i.target.rename σ from rfl, i.target.column?_rename,
    show (p.rename σ).target.name = p.target.name from rfl]
  cases i.target.column? p.target.name <;> rfl

/-- An insert fills the same columns from the same kind of rows. -/
theorem shape_rename (i : Insert) :
    (i.rename σ).shape = i.shape.map (Prod.map id (InsertBody.rename σ)) := by
  have hcolumns (source : Model) : (i.target.insertableColumns.map (Column.rename σ)).mapM
      ((i.rename σ).sourceColumn (source.rename σ)) =
      (i.target.insertableColumns.mapM (i.sourceColumn source)).map (List.map (Field.rename σ)) :=
    Result.mapM_map (i.sourceColumn_rename source) _
  have hnames (columns : List Projection) : (columns.map (Projection.rename σ)).mapM
      (i.rename σ).targetColumn = columns.mapM i.targetColumn := by
    rw [List.mapM_map]
    exact congrArg (columns.mapM ·) (funext i.targetColumn_rename)
  unfold shape
  rw [show (i.rename σ).columns = i.columns.map (Projection.rename σ) from rfl, List.isEmpty_map,
    show (i.rename σ).source = i.source.rename σ from rfl,
    show (i.rename σ).target.insertableColumns = i.target.insertableColumns.map (Column.rename σ) from
      i.target.insertableColumns_rename σ]
  split
  · simp [Except.map, Projection.rename, Field.rename, InsertBody.rename]
  have hquery (body : Select) : (if (body.rename σ).columns.isEmpty then .error (shape.unmapped i)
      else ((body.rename σ).columns.mapM (i.rename σ).targetColumn).map fun names =>
        (names, InsertBody.query) : Result (List String × InsertBody)) =
      (if body.columns.isEmpty then .error (shape.unmapped i)
      else (body.columns.mapM i.targetColumn).map fun names => (names, InsertBody.query)).map
        (Prod.map id (InsertBody.rename σ)) := by
    rw [show (body.rename σ).columns = body.columns.map (Projection.rename σ) from rfl, List.isEmpty_map,
      hnames]
    split
    · rfl
    · cases body.columns.mapM i.targetColumn <;> rfl
  match i.source with
  | .table source =>
    dsimp only [Statement.rename]
    rw [hcolumns source]
    cases i.target.insertableColumns.mapM (i.sourceColumn source) with
    | error e => rfl
    | ok columns =>
      simp [Except.map, bind, Except.bind, InsertBody.rename, Column.rename, Field.rename]
  | .select body none => exact hquery body
  | .select body (some source) => exact hquery body
  | .union .. => rfl
  | .join .. => rfl

end Insert

theorem Emission.Lockstep.identityOutput (h : Lockstep σ R) (ht : t.Alike σ t') (i : Insert) :
    R [] (t.identityOutput i) (t'.identityOutput (i.rename σ)) := by
  unfold Target.identityOutput
  rw [show (i.rename σ).identityOutput = i.identityOutput.map (Model.rename σ) from rfl,
    show (i.rename σ).target.identityColumn? = i.target.identityColumn?.map (Column.rename σ) from
      i.target.identityColumn?_rename σ]
  cases i.identityOutput with
  | none => exact h.nothing
  | some mapping =>
    cases i.target.identityColumn? with
    | none => exact h.fail _ rfl
    | some c =>
      have hclause := h.clause "OUTPUT INSERTED." (h.name c.name)
      have htable := h.follow (h.follow hclause (h.word " INTO ")) (h.tableName ht mapping)
      exact h.follow (h.follow (h.follow htable (h.word " (")) (h.name "NewValue")) (h.word ")")

/-! ### Commands -/

theorem Target.commandScope_of_aliases {c : Command} {asSource : Bool} {s : Statement}
    (hroot : c.aliasRoot? = some (asSource, s))
    (ha : t.temps.aliases (s.sources asSource) = .ok aliases) : t.commandScope c = t.scope aliases := by
  rw [commandScope, hroot]
  dsimp only [Option.bind_some]
  rw [ha]
  rfl

namespace SideBySide

section

variable {c : Command} (ht : t.Alike σ t')
  (h : SideBySide σ (t.commandScope c) (t'.commandScope (c.rename σ)) R)

include ht h

/-- What a command renders with its aliases is related where it is for aliases side by side. -/
theorem withAliases {asSource : Bool} {s : Statement} (hroot : c.aliasRoot? = some (asSource, s))
    {f f' : AliasMap → Emission}
    (hf : ∀ aliases, SideBySide σ (t.scope aliases) (t'.scope (aliases.rename σ)) R →
      R as (f aliases) (f' (aliases.rename σ))) :
    R as (after (t.temps.aliases (s.sources asSource)) f)
      (after (t'.temps.aliases ((s.rename σ).sources asSource)) f') := by
  have hroot' : (c.rename σ).aliasRoot? = some (asSource, s.rename σ) := by
    rw [c.aliasRoot?_rename, hroot]
    rfl
  have haliases : t'.temps.aliases ((s.rename σ).sources asSource) =
      (t.temps.aliases (s.sources asSource)).map (AliasMap.rename σ) := by
    rw [ht.temps_eq, s.sources_rename, t.temps.aliases_rename]
  refine h.after (.of_eq_map haliases) fun aliases ha => hf aliases ?_
  rw [ha] at haliases
  rw [← Target.commandScope_of_aliases hroot ha, ← Target.commandScope_of_aliases hroot' haliases]
  exact h

end

variable (ht : t.Alike σ t')

include ht

theorem outermost {s : Statement}
    (h : SideBySide σ (t.commandScope (.query s)) (t'.commandScope (.query (s.rename σ))) R) :
    R (trimsOf (s.exprs true)) (t.outermost s) (t'.outermost (s.rename σ)) :=
  withAliases (c := .query s) ht h rfl fun _ ha => ha.query ht true s

theorem insertBody {i : Insert} {columns : List String} {body : InsertBody}
    (h : SideBySide σ (t.commandScope (.insert i)) (t'.commandScope (.insert (i.rename σ))) R)
    (hshape : i.shape = .ok (columns, body)) :
    R (Command.insert i).trims (t.insertBody i body)
      (t'.insertBody (i.rename σ) (body.rename σ)) := by
  rw [Command.trims, Command.exprs]
  rcases Insert.body_of_shape hshape with ⟨hcolumns, rfl⟩ | ⟨hcolumns, rfl | ⟨m, fields, rfl⟩⟩
  · rw [hcolumns, if_neg Bool.false_ne_true, trimsOf_append]
    refine withAliases (c := .insert i) ht h (by rw [Command.aliasRoot?, hcolumns]; rfl)
      fun aliases ha => ?_
    rw [show (i.rename σ).columns = i.columns.map (Projection.rename σ) from rfl, List.map_map, trimsOf,
      List.flatMap_map]
    exact ha.append (ha.append (ha.word "SELECT ") (ha.listed (.map fun p _ => ha.value p.source)))
      (ha.clause "FROM " (ha.source_related ht i.source))
  · rw [hcolumns, if_pos rfl]
    exact withAliases (c := .insert i) ht h (by rw [Command.aliasRoot?, hcolumns]; rfl)
      fun aliases ha => ha.query ht true i.source
  · rw [hcolumns, if_pos rfl, Insert.source_of_shape hshape]
    exact withAliases (c := .insert i) ht h (by rw [Command.aliasRoot?, hcolumns]; rfl)
      fun aliases ha => ha.tableSelect ht m fields

theorem insert {i : Insert}
    (h : SideBySide σ (t.commandScope (.insert i)) (t'.commandScope (.insert (i.rename σ))) R) :
    R (Command.insert i).trims (t.insert i) (t'.insert (i.rename σ)) := by
  refine h.append (h.append (h.word "INSERT INTO ") (h.tableName ht i.target)) ?_
  refine h.after (.of_eq_map i.shape_rename) fun (columns, body) hshape => ?_
  exact h.append (h.append (h.append (h.enclosed " (" ")" (h.names columns)) (h.identityOutput ht i))
    h.line) (insertBody ht h hshape)

theorem insertRow {i : InsertRow}
    (h : SideBySide σ (t.commandScope (.insertRow i)) (t'.commandScope (.insertRow (i.rename σ))) R) :
    R (Command.insertRow i).trims (t.insertRow i) (t'.insertRow (i.rename σ)) := by
  have hscope : SideBySide σ { version := t.version } { version := t'.version } R := h
  have hvalues := hscope.rowValues i.values
  refine h.follow (h.follow (h.append (h.append (h.word "INSERT INTO ") (h.tableName ht i.target))
    hvalues) (h.word ";")) ?_
  rw [show (i.rename σ).outputIdentity = i.outputIdentity from rfl]
  split
  · exact h.clause _ h.nothing
  · exact h.nothing

theorem update {u : Update}
    (h : SideBySide σ (t.commandScope (.update u)) (t'.commandScope (.update (u.rename σ))) R) :
    R (Command.update u).trims (t.update u) (t'.update (u.rename σ)) := by
  unfold Target.update
  rw [show (u.rename σ).assignments = u.assignments.map (Projection.rename σ) from rfl, List.isEmpty_map]
  split
  · exact h.fail _ rfl
  rw [u.source_rename, Command.trims, Command.exprs, trimsOf_append, trimsOf_append]
  refine withAliases (c := .update u) ht h rfl fun aliases ha => ?_
  refine ha.after (aliases.require_agrees σ u.target) fun targetName _ => ?_
  have hset : R (trimsOf (u.assignments.map Projection.source))
      (listed (u.assignments.map (t.scope aliases).assignment))
      (listed ((u.assignments.map (Projection.rename σ)).map (t'.scope (aliases.rename σ)).assignment)) := by
    rw [List.map_map, trimsOf, List.flatMap_map]
    exact ha.listed (.map fun p _ => ha.assignment p)
  have hhead := ha.append (ha.append (ha.word "UPDATE ") (ha.name targetName)) (ha.clause "SET " hset)
  exact ha.append (ha.append hhead (ha.clause "FROM " (ha.source_related ht _)))
    (ha.condition "WHERE " u.filter)

theorem delete {d : Delete}
    (h : SideBySide σ (t.commandScope (.delete d)) (t'.commandScope (.delete (d.rename σ))) R) :
    R (Command.delete d).trims (t.delete d) (t'.delete (d.rename σ)) := by
  unfold Target.delete
  rw [d.source_rename, Command.trims, Command.exprs, trimsOf_append]
  refine withAliases (c := .delete d) ht h rfl fun aliases ha => ?_
  refine ha.after (aliases.require_agrees σ d.target) fun targetName _ => ?_
  have hhead := ha.append (ha.word "DELETE ") (ha.name targetName)
  exact ha.append (ha.append hhead (ha.clause "FROM " (ha.source_related ht _)))
    (ha.condition "WHERE " d.filter)

/-- Two renderings of a command are related where its scopes are side by side. -/
theorem command (c : Command)
    (h : SideBySide σ (t.commandScope c) (t'.commandScope (c.rename σ)) R) :
    R c.trims (t.command c) (t'.command (c.rename σ)) := by
  cases c with
  | query s => exact h.follow (outermost ht h) (h.word ";")
  | insert i => exact h.follow (insert ht h) (h.word ";")
  | insertRow i => exact insertRow ht h
  | update u => exact h.follow (update ht h) (h.word ";")
  | delete d => exact h.follow (delete ht h) (h.word ";")

end SideBySide

end Tsql
