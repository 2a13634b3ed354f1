import Mathlib.Logic.Function.Basic
import Tsql.Render.Table

/-!
# Renamed identities

A `Renaming` gives models, columns and parameters other identities, no two of a kind the same one. It goes
through a command, a model and all that they are rendered for: aliases, configured types, the names of
temporary tables and the values of parameters. What is looked up under a renamed identity is what was there
before, renamed: `lookup_renameKeys` says so of all these tables.
-/

namespace Tsql

/-- Other identities for models, columns and parameters. -/
structure Renaming where
  model : ModelId → ModelId
  column : ColumnId → ColumnId
  param : ParamId → ParamId
  model_injective : model.Injective
  column_injective : column.Injective
  param_injective : param.Injective

protected def Renaming.id : Renaming where
  model i := i
  column i := i
  param i := i
  model_injective _ _ h := h
  column_injective _ _ h := h
  param_injective _ _ h := h

/-! ### Tables of identities -/

def renameKeys {κ α : Type} (f : κ → κ) (entries : List (κ × α)) : List (κ × α) :=
  entries.map fun (k, a) => (f k, a)

theorem lookup_renameKeys {κ α : Type} [DecidableEq κ] {f : κ → κ} (hf : f.Injective)
    (entries : List (κ × α)) (k : κ) : (renameKeys f entries).lookup (f k) = entries.lookup k := by
  induction entries with
  | nil => rfl
  | cons entry rest ih =>
    obtain ⟨i, a⟩ := entry
    by_cases h : k = i
    · subst h
      simp [renameKeys]
    · have hne : f k ≠ f i := fun he => h (hf he)
      have ih' : (rest.map fun (k, a) => (f k, a)).lookup (f k) = rest.lookup k := ih
      simp [renameKeys, List.lookup_cons, beq_eq_false_iff_ne.2 h, beq_eq_false_iff_ne.2 hne, ih']

@[simp] theorem renameKeys_id {κ α : Type} (entries : List (κ × α)) :
    renameKeys (fun k => k) entries = entries := by
  simp [renameKeys]

/-! ### Syntax -/

section

variable (σ : Renaming)

def Field.rename (f : Field) : Field := { f with id := σ.column f.id }

def ColumnRef.rename (c : ColumnRef) : ColumnRef := ⟨σ.model c.model, c.field.rename σ⟩

def Param.rename (p : Param) : Param := { p with id := σ.param p.id }

mutual

def Expr.rename : Expr → Expr
  | .binary kind l r => .binary kind l.rename r.rename
  | .unary kind x => .unary kind x.rename
  | .case on whens otherwise => .case (renameOption on) (renameWhens whens) (renameOption otherwise)
  | .cast x target => .cast x.rename target
  | .column c => .column (c.rename σ)
  | .constant v t => .constant v t
  | .param p => .param (p.rename σ)
  | .call key args result => .call key (renameArgs args) result

def renameOption : Option Expr → Option Expr
  | none => none
  | some x => some x.rename

def renameWhens : List (Expr × Expr) → List (Expr × Expr)
  | [] => []
  | (x, y) :: r => (x.rename, y.rename) :: renameWhens r

def renameArgs : List Expr → List Expr
  | [] => []
  | x :: r => x.rename :: renameArgs r

end

def Column.rename (c : Column) : Column :=
  { c with
    toField := c.toField.rename σ
    default := c.default.map (Expr.rename σ)
    computation := c.computation.map (Expr.rename σ) }

def KeyColumns.rename (columns : KeyColumns) : KeyColumns :=
  columns.map fun (f, direction) => (f.rename σ, direction)

def PrimaryKey.rename (key : PrimaryKey) : PrimaryKey :=
  { key with columns := KeyColumns.rename σ key.columns }

def ForeignKey.rename (key : ForeignKey) : ForeignKey :=
  { key with columns := key.columns.map (Field.rename σ), parent := σ.model key.parent }

def ConstraintBody.rename : ConstraintBody → ConstraintBody
  | .unique columns clustered => .unique (KeyColumns.rename σ columns) clustered
  | .check x => .check (x.rename σ)
  | .foreignKey key => .foreignKey (key.rename σ)

def Constraint.rename (c : Constraint) : Constraint := { c with body := c.body.rename σ }

def Index.rename (i : Index) : Index := { i with columns := KeyColumns.rename σ i.columns }

def RowSource.rename : RowSource → RowSource
  | .jsonRowset p => .jsonRowset (p.rename σ)
  | source => source

def Model.rename (m : Model) : Model :=
  { m with
    id := σ.model m.id
    source := m.source.rename σ
    columns := m.columns.map (Column.rename σ)
    primaryKey := m.primaryKey.map (PrimaryKey.rename σ)
    constraints := m.constraints.map (Constraint.rename σ)
    indexes := m.indexes.map (Index.rename σ) }

def Projection.rename (p : Projection) : Projection := ⟨p.source.rename σ, p.target.rename σ⟩

def OrderTerm.rename (o : OrderTerm) : OrderTerm := { o with expr := o.expr.rename σ }

def Select.rename (s : Select) : Select :=
  { s with
    output := s.output.rename σ
    columns := s.columns.map (Projection.rename σ)
    filter := s.filter.map (Expr.rename σ)
    groupBy := s.groupBy.map (Expr.rename σ)
    having := s.having.map (Expr.rename σ)
    orderBy := s.orderBy.map (OrderTerm.rename σ) }

def JoinCondition.rename (c : JoinCondition) : JoinCondition where
  pairs := c.pairs.map fun (l, r) => (l.rename σ, r.rename σ)
  extra := c.extra.map (Expr.rename σ)

def Statement.rename : Statement → Statement
  | .table m => .table (m.rename σ)
  | .select body none => .select (body.rename σ) none
  | .select body (some source) => .select (body.rename σ) (some source.rename)
  | .union output left right kind => .union (output.rename σ) left.rename right.rename kind
  | .join left right kind c => .join left.rename right.rename kind (c.rename σ)

def Insert.rename (i : Insert) : Insert where
  target := i.target.rename σ
  columns := i.columns.map (Projection.rename σ)
  source := i.source.rename σ
  identityOutput := i.identityOutput.map (Model.rename σ)

def InsertRow.rename (i : InsertRow) : InsertRow :=
  { i with target := i.target.rename σ, values := i.values.map (Projection.rename σ) }

def Update.rename (u : Update) : Update where
  target := u.target.rename σ
  assignments := u.assignments.map (Projection.rename σ)
  source := u.source.map (Statement.rename σ)
  filter := u.filter.map (Expr.rename σ)

def Delete.rename (d : Delete) : Delete where
  target := d.target.rename σ
  source := d.source.map (Statement.rename σ)
  filter := d.filter.map (Expr.rename σ)

def Command.rename : Command → Command
  | .query s => .query (s.rename σ)
  | .insert i => .insert (i.rename σ)
  | .insertRow i => .insertRow (i.rename σ)
  | .update u => .update (u.rename σ)
  | .delete d => .delete (d.rename σ)

/-! ### What syntax is rendered for -/

def AliasMap.rename (a : AliasMap) : AliasMap := ⟨renameKeys σ.model a.entries⟩

def Bindings.rename (b : Bindings) : Bindings := ⟨renameKeys σ.param b.values⟩

def TypeMap.rename (m : TypeMap) : TypeMap := ⟨renameKeys σ.column m.overrides⟩

def TempTables.rename (t : TempTables) : TempTables := { t with names := renameKeys σ.model t.names }

def Target.rename (t : Target) : Target :=
  { t with types := t.types.rename σ, temps := t.temps.rename σ }

def Piece.rename : Piece → Piece
  | .placeholder p => .placeholder (p.rename σ)
  | p => p

/-- The same text, with the same parameters under other identities. -/
def SqlText.rename (t : SqlText) : SqlText := { t with params := t.params.map (Param.rename σ) }

end

theorem renameOption_eq_map (σ : Renaming) (x : Option Expr) :
    renameOption σ x = x.map (Expr.rename σ) := by
  cases x <;> rfl

theorem renameArgs_eq_map (σ : Renaming) (args : List Expr) :
    renameArgs σ args = args.map (Expr.rename σ) := by
  induction args with
  | nil => rfl
  | cons x r ih => rw [renameArgs, ih, List.map_cons]

theorem length_renameWhens (σ : Renaming) (whens : List (Expr × Expr)) :
    (renameWhens σ whens).length = whens.length := by
  induction whens with
  | nil => rfl
  | cons branch r ih => rw [renameWhens, List.length_cons, ih, List.length_cons]

/-! ### Nothing renamed -/

section

mutual

@[simp] theorem Expr.rename_id (x : Expr) : x.rename .id = x := by
  match x with
  | .binary kind l r => rw [Expr.rename, l.rename_id, r.rename_id]
  | .unary kind x => rw [Expr.rename, x.rename_id]
  | .case on whens otherwise =>
    rw [Expr.rename, renameOption_id on, renameWhens_id whens, renameOption_id otherwise]
  | .cast x target => rw [Expr.rename, x.rename_id]
  | .column c => rfl
  | .constant v t => rfl
  | .param p => rfl
  | .call key args result => rw [Expr.rename, renameArgs_id args]

theorem renameOption_id (x : Option Expr) : renameOption .id x = x := by
  match x with
  | none => rfl
  | some x => rw [renameOption, x.rename_id]

theorem renameWhens_id (whens : List (Expr × Expr)) : renameWhens .id whens = whens := by
  match whens with
  | [] => rfl
  | (x, y) :: r => rw [renameWhens, x.rename_id, y.rename_id, renameWhens_id r]

theorem renameArgs_id (args : List Expr) : renameArgs .id args = args := by
  match args with
  | [] => rfl
  | x :: r => rw [renameArgs, x.rename_id, renameArgs_id r]

end

/-- What leaves each member as it is leaves a list as it is. -/
theorem map_rename_id {α : Type} {rename : α → α} (h : ∀ x, rename x = x) (xs : List α) :
    xs.map rename = xs := by
  rw [funext h, List.map_id']

theorem option_rename_id {α : Type} {rename : α → α} (h : ∀ x, rename x = x) (x : Option α) :
    x.map rename = x := by
  rw [funext h, Option.map_id']

@[simp] theorem Field.rename_id (f : Field) : f.rename .id = f := rfl

@[simp] theorem ColumnRef.rename_id (c : ColumnRef) : c.rename .id = c := rfl

@[simp] theorem Column.rename_id (c : Column) : c.rename .id = c := by
  simp [Column.rename, option_rename_id Expr.rename_id]

@[simp] theorem KeyColumns.rename_id (columns : KeyColumns) : KeyColumns.rename .id columns = columns :=
  map_rename_id (fun _ => rfl) columns

@[simp] theorem PrimaryKey.rename_id (key : PrimaryKey) : key.rename .id = key := by
  simp [PrimaryKey.rename]

@[simp] theorem Constraint.rename_id (c : Constraint) : c.rename .id = c := by
  obtain ⟨label, body, description⟩ := c
  cases body with
  | foreignKey key =>
    simp only [Constraint.rename, ConstraintBody.rename, ForeignKey.rename,
      map_rename_id Field.rename_id]
    rfl
  | _ => simp [Constraint.rename, ConstraintBody.rename]

@[simp] theorem Index.rename_id (i : Index) : i.rename .id = i := by simp [Index.rename]

@[simp] theorem RowSource.rename_id (source : RowSource) : source.rename .id = source := by
  cases source <;> rfl

@[simp] theorem Model.rename_id (m : Model) : m.rename .id = m := by
  simp only [Model.rename, RowSource.rename_id, map_rename_id Column.rename_id,
    option_rename_id PrimaryKey.rename_id, map_rename_id Constraint.rename_id,
    map_rename_id Index.rename_id]
  rfl

@[simp] theorem Projection.rename_id (p : Projection) : p.rename .id = p := by
  simp [Projection.rename]

@[simp] theorem OrderTerm.rename_id (o : OrderTerm) : o.rename .id = o := by simp [OrderTerm.rename]

@[simp] theorem Select.rename_id (s : Select) : s.rename .id = s := by
  simp [Select.rename, map_rename_id Projection.rename_id, option_rename_id Expr.rename_id,
    map_rename_id Expr.rename_id, map_rename_id OrderTerm.rename_id]

@[simp] theorem JoinCondition.rename_id (c : JoinCondition) : c.rename .id = c := by
  simp [JoinCondition.rename, option_rename_id Expr.rename_id]

@[simp] theorem Statement.rename_id (s : Statement) : s.rename .id = s := by
  cases s with
  | table m => rw [Statement.rename, m.rename_id]
  | select body source =>
    cases source with
    | none => rw [Statement.rename, body.rename_id]
    | some source => rw [Statement.rename, body.rename_id, source.rename_id]
  | union output left right kind =>
    rw [Statement.rename, output.rename_id, left.rename_id, right.rename_id]
  | join left right kind c => rw [Statement.rename, left.rename_id, right.rename_id, c.rename_id]

theorem Command.rename_id (c : Command) : c.rename .id = c := by
  cases c <;> simp [Command.rename, Insert.rename, InsertRow.rename, Update.rename, Delete.rename,
    map_rename_id Projection.rename_id, option_rename_id Model.rename_id,
    option_rename_id Statement.rename_id, option_rename_id Expr.rename_id]

theorem TypeMap.rename_id (m : TypeMap) : m.rename .id = m :=
  congrArg TypeMap.mk (renameKeys_id m.overrides)

theorem TempTables.rename_id (t : TempTables) : t.rename .id = t :=
  congrArg (TempTables.mk · t.supply) (renameKeys_id t.names)

theorem Piece.rename_id (p : Piece) : p.rename .id = p := by cases p <;> rfl

end

/-! ### Looking up -/

section

variable (σ : Renaming)

@[simp] theorem AliasMap.get?_rename (a : AliasMap) (i : ModelId) :
    (a.rename σ).get? (σ.model i) = a.get? i :=
  lookup_renameKeys σ.model_injective a.entries i

@[simp] theorem TempTables.get?_rename (t : TempTables) (i : ModelId) :
    (t.rename σ).get? (σ.model i) = t.get? i :=
  lookup_renameKeys σ.model_injective t.names i

@[simp] theorem Bindings.get_rename (b : Bindings) (i : ParamId) :
    (b.rename σ).get (σ.param i) = b.get i :=
  congrArg (Option.getD · Value.null) (lookup_renameKeys σ.param_injective b.values i)

@[simp] theorem TypeMap.override?_rename (m : TypeMap) (i : ColumnId) :
    (m.rename σ).override? (σ.column i) = m.override? i :=
  lookup_renameKeys σ.column_injective m.overrides i

@[simp] theorem TypeMap.resolve_rename (m : TypeMap) (f : Field) :
    (m.rename σ).resolve (f.rename σ) = m.resolve f := by
  unfold TypeMap.resolve
  rw [show (f.rename σ).id = σ.column f.id from rfl, m.override?_rename]
  rfl

theorem Model.fields_rename (m : Model) :
    (m.rename σ).columns.map Column.toField = (m.columns.map Column.toField).map (Field.rename σ) := by
  rw [List.map_map, show (m.rename σ).columns = m.columns.map (Column.rename σ) from rfl, List.map_map]
  rfl

theorem Model.column?_rename (m : Model) (name : String) :
    (m.rename σ).column? name = (m.column? name).map (Column.rename σ) :=
  List.find?_map ..

theorem Model.identityColumn?_rename (m : Model) :
    (m.rename σ).identityColumn? = m.identityColumn?.map (Column.rename σ) :=
  List.find?_map ..

theorem Model.insertableColumns_rename (m : Model) :
    (m.rename σ).insertableColumns = m.insertableColumns.map (Column.rename σ) := by
  refine (List.filter_map ..).trans (congrArg (List.map _) (List.filter_congr fun c _ => ?_))
  cases hc : c.computation <;>
    simp [Column.isInsertable, Column.rename, hc]

/-! ### What rendering asks of an expression -/

@[simp] theorem Expr.isPredicate_rename (x : Expr) : (x.rename σ).isPredicate = x.isPredicate := by
  cases x <;> rfl

@[simp] theorem constantPath?_rename (x : Expr) : constantPath? (x.rename σ) = constantPath? x := by
  cases x <;> rfl

@[simp] theorem isColumnNamed_rename (target : String) (x : Expr) :
    isColumnNamed target (x.rename σ) = isColumnNamed target x := by
  cases x <;> rfl

@[simp] theorem Statement.isJoin_rename (s : Statement) : (s.rename σ).isJoin = s.isJoin := by
  cases s with
  | select _ source => cases source <;> rfl
  | _ => rfl

/-- The models that need an alias are those of before. -/
theorem Statement.sources_rename (s : Statement) (asSource : Bool) :
    (s.rename σ).sources asSource = (s.sources asSource).map (Model.rename σ) := by
  cases s with
  | table m => rfl
  | select body source =>
    cases source with
    | none => cases asSource <;> rfl
    | some source =>
      rw [Statement.rename, sources, sources, source.sources_rename true, List.map_append]
      cases asSource <;> rfl
  | union output left right kind =>
    rw [Statement.rename, sources, sources, left.sources_rename false, right.sources_rename false,
      List.map_append, List.map_append]
    cases asSource <;> rfl
  | join left right kind c =>
    rw [Statement.rename, sources, sources, left.sources_rename true, right.sources_rename true,
      List.map_append]

end

end Tsql
