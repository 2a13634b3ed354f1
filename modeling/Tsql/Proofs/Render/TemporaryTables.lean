import Tsql.Proofs.Naming.TempTables
import Tsql.Render.Table

/-!
# What temporary tables do not show

The definition of a temporary table leaves out what only permanent tables have: the schema, descriptions,
the names of keys and constraints, computations and foreign keys. `Model.SameTemporary` relates two models
that differ in nothing else. Where their tables have the same name, or none, they are defined alike, errors
included (`Target.createTableSql_sameTemporary`).
-/

namespace Tsql

open Text Emission

/-- The same column, without its computation and its description. -/
structure Column.SameStored (c d : Column) : Prop where
  field : c.toField = d.toField
  nullable : c.nullable = d.nullable
  default : c.default = d.default
  identity : c.identity = d.identity

/-- Keys of the same columns, stored alike. -/
structure PrimaryKey.SameColumns (k l : PrimaryKey) : Prop where
  columns : k.columns = l.columns
  clustered : k.clustered = l.clustered

structure Index.SameDefinition (i j : Index) : Prop where
  name : i.name = j.name
  columns : i.columns = j.columns
  unique : i.unique = j.unique
  clustered : i.clustered = j.clustered

def Constraint.ownBody? (c : Constraint) : Option ConstraintBody :=
  match c.body with
  | .foreignKey _ => none
  | body => some body

/-- Models that differ only in what a temporary table does not have. -/
structure Model.SameTemporary (m n : Model) : Prop where
  name : m.name = n.name
  columns : List.Forall₂ Column.SameStored m.columns n.columns
  primaryKey : Option.Rel PrimaryKey.SameColumns m.primaryKey n.primaryKey
  constraints : m.constraints.filterMap Constraint.ownBody? = n.constraints.filterMap Constraint.ownBody?
  indexes : List.Forall₂ Index.SameDefinition m.indexes n.indexes

/-! ### Parts of a definition -/

theorem constraintHead_temporary (constraintName : Option String) :
    constraintHead constraintName true = nothing := by
  cases constraintName <;> rfl

theorem columnDefinition_temporary (t : Target) (scope : Scope) (c : Column) :
    t.columnDefinition scope true c = t.storedColumn scope c := by
  rw [Target.columnDefinition.eq_def]
  cases c.computation <;> rfl

theorem storedColumn_of_sameStored {c d : Column} (h : c.SameStored d) (t : Target) (scope : Scope) :
    t.storedColumn scope c = t.storedColumn scope d := by
  rw [Target.storedColumn, Target.storedColumn, h.field, h.nullable, h.default, h.identity]

theorem primaryKeyDefinition_of_sameColumns {k l : PrimaryKey} (h : k.SameColumns l) :
    primaryKeyDefinition true k = primaryKeyDefinition true l := by
  simp only [primaryKeyDefinition, constraintHead_temporary, h.columns, h.clustered]

theorem indexDefinition_of_sameDefinition {i j : Index} (h : i.SameDefinition j) :
    indexDefinition i = indexDefinition j := by
  simp only [indexDefinition, h.name, h.columns, h.unique, h.clustered]

/-- In a temporary table a constraint stands without its name, a foreign key not at all. -/
theorem constraintDefinition?_temporary (scope : Scope) (c : Constraint) :
    constraintDefinition? scope true c =
      c.ownBody?.bind fun body => constraintDefinition? scope true { label := "", body } := by
  obtain ⟨label, body, description⟩ := c
  cases body <;> simp [constraintDefinition?, Constraint.ownBody?, constraintHead_temporary]

theorem filterMap_constraintDefinition?_temporary (scope : Scope) (constraints : List Constraint) :
    constraints.filterMap (constraintDefinition? scope true) =
      (constraints.filterMap Constraint.ownBody?).filterMap fun body =>
        constraintDefinition? scope true { label := "", body } := by
  rw [List.filterMap_filterMap]
  exact List.filterMap_congr fun c _ => constraintDefinition?_temporary scope c

theorem map_eq_of_forall₂ {α β : Type} {R : α → α → Prop} {f : α → β} {l r : List α}
    (h : List.Forall₂ R l r) (hf : ∀ a b, R a b → f a = f b) : l.map f = r.map f := by
  have hmap := List.rel_map (P := (· = ·)) (fun a b => hf a b) h
  rwa [List.forall₂_eq_eq_eq] at hmap

theorem map_primaryKeyDefinition_temporary {k l : Option PrimaryKey}
    (h : Option.Rel PrimaryKey.SameColumns k l) :
    k.map (primaryKeyDefinition true) = l.map (primaryKeyDefinition true) := by
  cases h with
  | none => rfl
  | some hkl => exact congrArg some (primaryKeyDefinition_of_sameColumns hkl)

/-! ### Definitions -/

namespace Model.SameTemporary

variable {m n : Model}

theorem tableParts (h : m.SameTemporary n) (t : Target) (b : Bindings) :
    t.tableParts b m true = t.tableParts b n true := by
  have hcolumns : m.columns.map (t.columnDefinition (t.inlineScope b) true) =
      n.columns.map (t.columnDefinition (t.inlineScope b) true) :=
    map_eq_of_forall₂ h.columns fun c d hcd => by
      rw [columnDefinition_temporary, columnDefinition_temporary, storedColumn_of_sameStored hcd]
  have hkey : m.primaryKey.map (primaryKeyDefinition true) = n.primaryKey.map (primaryKeyDefinition true) :=
    map_primaryKeyDefinition_temporary h.primaryKey
  have hconstraints : m.constraints.filterMap (constraintDefinition? (t.inlineScope b) true) =
      n.constraints.filterMap (constraintDefinition? (t.inlineScope b) true) := by
    rw [filterMap_constraintDefinition?_temporary, h.constraints,
      ← filterMap_constraintDefinition?_temporary]
  have hindexes : m.indexes.map indexDefinition = n.indexes.map indexDefinition :=
    map_eq_of_forall₂ h.indexes fun _ _ hij => indexDefinition_of_sameDefinition hij
  simp only [Target.tableParts, hcolumns, hkey, hconstraints, hindexes]

theorem isEmpty_columns (h : m.SameTemporary n) : m.columns.isEmpty = n.columns.isEmpty := by
  have hlength := h.columns.length_eq
  cases hm : m.columns <;> cases hn : n.columns <;> simp_all

end Model.SameTemporary

namespace Target

/-- The name of a temporary table depends on the name it was given, and on the model's where it has none. -/
theorem definedName_temporary {t : Target} {temps : TempTables} {m n : Model} (hname : m.name = n.name)
    (hgiven : t.temps.get? m.id = temps.get? n.id) :
    t.definedName m true = { t with temps }.definedName n true := by
  have hrequire : t.temps.require m = temps.require n := by
    rw [TempTables.require, TempTables.require, hgiven, hname]
  rw [definedName, definedName, if_pos rfl, if_pos rfl, hrequire]

/-- Temporary tables of the same name are defined alike, in text or error, if their models differ only in
what a temporary table does not have. The name may come from another session, since one session never gives
it twice. -/
theorem createTableSql_sameTemporary (t : Target) (temps : TempTables) (b : Bindings) (m n : Model)
    (h : m.SameTemporary n) (hgiven : t.temps.get? m.id = temps.get? n.id) :
    t.createTableSql b m true = { t with temps }.createTableSql b n true := by
  have hparts : { t with temps }.tableParts b n true = t.tableParts b n true := rfl
  have hdefined : t.createTable b m true = { t with temps }.createTable b n true := by
    simp only [createTable, definedName_temporary h.name hgiven, h.tableParts, h.isEmpty_columns, h.name,
      hparts, if_true]
  rw [createTableSql, createTableSql, hdefined]

/-- Orders with a schema, descriptions, names, a computed column and a foreign key. -/
def describedOrders : Model :=
  let id : Field := ⟨⟨1⟩, "Id", .int32⟩
  let total : Field := ⟨⟨2⟩, "Total", .int32⟩
  let sum : ForeignKey :=
    { columns := [total], parent := ⟨3⟩, parentTable := "Sum", parentSchema := none
      parentColumns := ["Id"] }
  { id := ⟨1⟩, name := "Order", schema := some "sales", aliasStem := "Order"
    columns := [{ toField := id, identity := some ⟨1, 1⟩, description := some "Number" },
      { toField := total, computation := some (.column ⟨⟨1⟩, id⟩) }]
    primaryKey := some { name := "PK_Order", columns := [(id, .ascending)] }
    constraints := [⟨"UQ_Total", .unique [(total, .unspecified)] false, none⟩,
      ⟨"FK_Total", .foreignKey sum, none⟩,
      ⟨"CK_Total", .check (.isNotNull (.column ⟨⟨1⟩, total⟩)), some "Set"⟩]
    indexes := [{ name := "IX_Total", columns := [(total, .descending)], description := some "Sums" }]
    description := some "All orders" }

/-- The orders without what a temporary table does not have. -/
def bareOrders : Model :=
  let id : Field := ⟨⟨1⟩, "Id", .int32⟩
  let total : Field := ⟨⟨2⟩, "Total", .int32⟩
  { id := ⟨2⟩, name := "Order", aliasStem := "Order"
    columns := [{ toField := id, identity := some ⟨1, 1⟩ }, { toField := total }]
    primaryKey := some { name := "", columns := [(id, .ascending)] }
    constraints := [⟨"", .unique [(total, .unspecified)] false, none⟩,
      ⟨"", .check (.isNotNull (.column ⟨⟨1⟩, total⟩)), none⟩]
    indexes := [{ name := "IX_Total", columns := [(total, .descending)] }] }

theorem createTableSql_describedOrders :
    describedOrders.SameTemporary bareOrders ∧
      { version := .sql13, temps.names := [(⟨1⟩, "#Order")] : Target }.createTableSql {} describedOrders true =
        { version := .sql13, temps.names := [(⟨2⟩, "#Order")] : Target }.createTableSql {} bareOrders true ∧
      { version := .sql13, temps.names := [(⟨2⟩, "#Order")] : Target }.createTableSql {} bareOrders true =
        .ok ("CREATE TABLE [#Order] (\n    [Id] INT NOT NULL IDENTITY(1, 1),\n    [Total] INT NOT NULL,\n"
          ++ "    PRIMARY KEY CLUSTERED ([Id] ASC),\n    UNIQUE NONCLUSTERED ([Total]),\n"
          ++ "    CHECK ([Total] IS NOT NULL),\n    INDEX [IX_Total] NONCLUSTERED ([Total] DESC)\n);") := by
  have hsame : describedOrders.SameTemporary bareOrders :=
    { name := rfl
      columns := .cons ⟨rfl, rfl, rfl, rfl⟩ (.cons ⟨rfl, rfl, rfl, rfl⟩ .nil)
      primaryKey := .some ⟨rfl, rfl⟩
      constraints := rfl
      indexes := .cons ⟨rfl, rfl, rfl, rfl⟩ .nil }
  exact ⟨hsame, createTableSql_sameTemporary _ _ {} _ _ hsame rfl, by decide +kernel⟩

end Target

end Tsql
