import Mathlib.Tactic.SplitIfs
import Tsql.Proofs.BulkInsert.Run
import Tsql.Proofs.Naming.Alias
import Tsql.Proofs.Naming.TempTables
import Tsql.Proofs.Render.Writes

/-!
# The texts of a bulk insert's commands

`KeyedInsert` and `MappingQuery` are the shapes of the two texts on which the keys depend: which
table the new identities go to, in which order the rows are inserted and in which order the mapping
is read.
-/

namespace Tsql

open Text Emission

def SortDirection.sql : SortDirection → String
  | .unspecified => ""
  | .ascending => " ASC"
  | .descending => " DESC"

/-- An insert from a JSON rowset in the order of one of its columns. -/
structure RowsetInsert where
  /-- The table and the columns that are filled. -/
  target : String
  /-- The columns that are selected from the rowset. -/
  columns : String
  /-- The parameter that holds the rowset, and the rowset's columns with their types. -/
  parameter : String
  layout : String
  rowset : String
  column : String
  direction : SortDirection
  column_plain : '[' ∉ column.toList

def RowsetInsert.sqlWith (i : RowsetInsert) (output : String) : String :=
  "INSERT INTO " ++ i.target ++ output
    ++ "\nSELECT " ++ i.columns
    ++ "\nFROM OPENJSON(" ++ i.parameter ++ ") WITH (" ++ i.layout ++ ") "
    ++ quoteIdentifier i.rowset
    ++ "\nORDER BY " ++ quoteIdentifier i.rowset ++ "." ++ quoteIdentifier i.column
    ++ i.direction.sql ++ ";"

/-- An insert that sends its new identities to another table. -/
structure KeyedInsert extends RowsetInsert where
  identity : String
  mapping : String

/-- The clause that sends new identities to a mapping table. -/
def outputClause (identity mapping : String) : String :=
  "\nOUTPUT INSERTED." ++ quoteIdentifier identity ++ " INTO " ++ quoteIdentifier mapping
    ++ " (" ++ quoteIdentifier "NewValue" ++ ")"

def KeyedInsert.sql (i : KeyedInsert) : String :=
  i.sqlWith (outputClause i.identity i.mapping)

/-- A query for all pairs of a mapping table in the order of one of its columns. -/
structure MappingQuery where
  mapping : String
  tableAlias : String
  column : String
  direction : SortDirection
  column_plain : '[' ∉ column.toList

def MappingQuery.sql (q : MappingQuery) : String :=
  "SELECT " ++ quoteIdentifier q.tableAlias ++ "." ++ quoteIdentifier "OldValue"
    ++ ", " ++ quoteIdentifier q.tableAlias ++ "." ++ quoteIdentifier "NewValue"
    ++ "\nFROM " ++ quoteIdentifier q.mapping ++ " " ++ quoteIdentifier q.tableAlias
    ++ "\nORDER BY " ++ quoteIdentifier q.tableAlias ++ "." ++ quoteIdentifier q.column
    ++ q.direction.sql ++ ";"

/-- The quoted name at the end of a text, which is given backwards. -/
def nameBefore? (direction : SortDirection) : List Char → Option (String × SortDirection)
  | ']' :: r =>
    some (String.ofList (undoubled ']' (r.takeWhile (· ≠ '[')).reverse), direction)
  | _ => none

/-- The column and the direction of the order at the end of a text. -/
def orderOf? (sql : String) : Option (String × SortDirection) :=
  match sql.toList.reverse with
  | ';' :: 'C' :: 'S' :: 'A' :: ' ' :: r => nameBefore? .ascending r
  | ';' :: 'C' :: 'S' :: 'E' :: 'D' :: ' ' :: r => nameBefore? .descending r
  | ';' :: r => nameBefore? .unspecified r
  | _ => none

theorem mem_doubled {q c : Char} {s : List Char} : c ∈ doubled q s ↔ c ∈ s := by
  induction s with
  | nil => rfl
  | cons d r ih =>
    unfold doubled
    split_ifs with h
    · simp [ih, h]
    · simp [ih]

theorem orderOf?_append (s column : String) (direction : SortDirection)
    (hc : '[' ∉ column.toList) :
    orderOf? (s ++ quoteIdentifier column ++ direction.sql ++ ";") = some (column, direction) := by
  have hname : ∀ r, nameBefore? direction (']' :: ((doubled ']' column.toList).reverse ++ '[' :: r))
      = some (column, direction) := by
    intro r
    have hplain : ∀ c ∈ (doubled ']' column.toList).reverse, decide (c ≠ '[') = true := by
      intro c hm
      rw [List.mem_reverse, mem_doubled] at hm
      exact decide_eq_true fun h => hc (h ▸ hm)
    rw [nameBefore?, List.takeWhile_append_of_pos hplain]
    simp [undoubled_doubled]
  have hrev : ∀ d : String, (s ++ quoteIdentifier column ++ d ++ ";").toList.reverse =
      ';' :: (d.toList.reverse
        ++ ']' :: ((doubled ']' column.toList).reverse ++ '[' :: s.toList.reverse)) := by
    intro d
    simp [quoteIdentifier]
  unfold orderOf?
  rw [hrev]
  cases direction with
  | unspecified => exact hname _
  | ascending => exact hname _
  | descending => exact hname _

theorem KeyedInsert.orderOf?_sql (i : KeyedInsert) :
    orderOf? i.sql = some (i.column, i.direction) := orderOf?_append _ _ _ i.column_plain

theorem MappingQuery.orderOf?_sql (q : MappingQuery) :
    orderOf? q.sql = some (q.column, q.direction) := orderOf?_append _ _ _ q.column_plain

theorem SortDirection.writes_text (direction : SortDirection) (params : List Param) :
    direction.text.Writes params [] direction.sql := by
  cases direction with
  | unspecified => exact .nothing
  | ascending => exact .word _
  | descending => exact .word _

section Parts

variable {t : Target} {aliases : AliasMap} {m : Model} {a : String} (params : List Param)

theorem Scope.writes_column (ha : aliases.get? m.id = some a) (f : Field) :
    ((m.ref f).value (t.scope aliases)).Writes params []
      (quoteIdentifier a ++ "." ++ quoteIdentifier f.name) := by
  have hv : (m.ref f).value (t.scope aliases) =
      name a ++ word "." ++ name f.name := by
    show (t.scope aliases).column ⟨m.id, f⟩ = _
    simp only [Scope.column, Target.scope, ha]
  rw [hv]
  exact ((Writes.name a).append (.word ".")).append (.name f.name)

/-- An output column that keeps its name. -/
theorem Scope.writes_projection (ha : aliases.get? m.id = some a) (f : Field) :
    ((t.scope aliases).projection ⟨m.ref f, f⟩).Writes params []
      (quoteIdentifier a ++ "." ++ quoteIdentifier f.name) := by
  have hp : (t.scope aliases).projection ⟨m.ref f, f⟩ =
      (m.ref f).value (t.scope aliases) ++ nothing := by
    simp [Scope.projection, isColumnNamed, Model.ref]
  rw [hp, ← String.append_empty (s := quoteIdentifier a ++ "." ++ quoteIdentifier f.name)]
  exact (Scope.writes_column params ha f).append .nothing

theorem Scope.writes_orderTerm (ha : aliases.get? m.id = some a) (f : Field)
    (direction : SortDirection) :
    ((t.scope aliases).orderTerm ⟨m.ref f, direction⟩).Writes params []
      (quoteIdentifier a ++ "." ++ quoteIdentifier f.name ++ direction.sql) :=
  (Scope.writes_column params ha f).append (direction.writes_text params)

theorem writes_clause {x : Emission} {used : List Param} {s : String} (keyword : String)
    (h : x.Writes params used s) : (clause keyword x).Writes params used ("\n" ++ keyword ++ s) :=
  (Writes.line.append (.word keyword)).append h

theorem Scope.select_ordered (scope : Scope) (output : Model) (columns : List Projection)
    (order : OrderTerm) (source : Emission) :
    scope.select true { output, columns, orderBy := [order] } (some source) =
      word "SELECT " ++ nothing ++ scope.projections columns ++ clause "FROM " source ++ nothing
        ++ nothing ++ nothing ++ (clause "ORDER BY " (scope.orderTerm order) ++ nothing) := rfl

theorem Scope.writes_ordered {scope : Scope} {columns : List Projection} {order : OrderTerm}
    {source : Emission} {u v w : List Param} {c s o : String} (output : Model)
    (hc : (scope.projections columns).Writes params u c) (hs : source.Writes params v s)
    (ho : (scope.orderTerm order).Writes params w o) :
    (scope.select true { output, columns, orderBy := [order] } (some source)).Writes params
      (u ++ v ++ w) ("SELECT " ++ c ++ "\nFROM " ++ s ++ "\nORDER BY " ++ o) := by
  rw [Scope.select_ordered]
  refine Writes.of_eq ((((((((Writes.word _).append .nothing).append hc).append
    (writes_clause params _ hs)).append .nothing).append .nothing).append .nothing).append
      ((writes_clause params _ ho).append .nothing)) (by simp) ?_
  simp [String.append_assoc]

theorem Target.writes_tempName {table : String} (hs : m.source = .tempTable)
    (ht : t.temps.get? m.id = some table) :
    (t.tableName m).Writes params [] (quoteIdentifier table) := by
  rw [Target.tableName, hs]
  simp only [TempTables.require, ht]
  exact .name _

theorem Target.writes_tempSource {table : String} (hs : m.source = .tempTable)
    (ht : t.temps.get? m.id = some table) (ha : aliases.get? m.id = some a) :
    (t.tableSource aliases m).Writes params []
      (quoteIdentifier table ++ " " ++ quoteIdentifier a) := by
  simp only [Target.tableSource, AliasMap.require_eq ha, after, hs]
  exact ((writes_tempName params hs ht).append (.word " ")).append (.name a)

end Parts

theorem MappingQuery.of_generate {t : Target} {m : IdentityMap} {identity : Column}
    {table : String} {text : SqlText} (hm : m.Made identity)
    (ht : t.temps.get? m.model.id = some table)
    (h : t.generate (m.readCommand identity) = .ok text) :
    ∃ q : MappingQuery, text = ⟨q.sql, []⟩ ∧ q.mapping = table ∧ q.column = "NewValue" ∧
      q.direction = IdentityMap.keyOrder identity := by
  have hf := failure_of_sqlText h
  have hc : t.command (m.readCommand identity) =
      after (t.temps.aliases [m.model]) (fun aliases =>
        (t.scope aliases).select true
          { output := m.model
            columns := [⟨m.model.ref m.oldValue.toField, m.oldValue.toField⟩,
              ⟨m.model.ref m.newValue.toField, m.newValue.toField⟩]
            orderBy := [⟨m.model.ref m.newValue.toField, IdentityMap.keyOrder identity⟩] }
          (some (t.tableSource aliases m.model))) ++ word ";" := rfl
  rw [hc, failure_append] at hf
  obtain ⟨aliases, ha, -⟩ := failure_after hf.1
  obtain ⟨a, hget⟩ := TempTables.get?_of_aliases ha (List.mem_singleton_self _)
  let q : MappingQuery :=
    { mapping := table
      tableAlias := a
      column := "NewValue"
      direction := IdentityMap.keyOrder identity
      column_plain := by decide }
  have hw : (t.command (m.readCommand identity)).Writes [] [] q.sql := by
    rw [hc, ha]
    dsimp only [after]
    have hold := Scope.writes_projection (t := t) [] hget m.oldValue.toField
    have hnew := Scope.writes_projection (t := t) [] hget m.newValue.toField
    have hsource := Target.writes_tempSource [] hm.source_eq ht hget
    have horder := Scope.writes_orderTerm (t := t) [] hget m.newValue.toField
      (IdentityMap.keyOrder identity)
    rw [hm.oldName] at hold
    rw [hm.newName] at hnew horder
    have hcolumns : ((t.scope aliases).projections
        [⟨m.model.ref m.oldValue.toField, m.oldValue.toField⟩,
          ⟨m.model.ref m.newValue.toField, m.newValue.toField⟩]).Writes [] _ _ :=
      (hold.append (.word ", ")).append hnew
    have hall := (Scope.writes_ordered [] m.model hcolumns hsource horder).append (.word ";")
    refine hall.of_eq rfl ?_
    unfold MappingQuery.sql
    simp only [q, String.append_assoc]
  exact ⟨q, Except.ok.inj (h.symm.trans (hw.sqlText rfl)), rfl, rfl, rfl⟩

theorem Target.writes_rowsetSource {t : Target} {aliases : AliasMap} {m : Model} {p : Param}
    {a : String} (hs : m.source = .jsonRowset p) (ha : aliases.get? m.id = some a)
    (hf : (t.tableSource aliases m).failure = none) (params : List Param) :
    ∃ layout, (t.tableSource aliases m).Writes params [p]
      ("OPENJSON(" ++ placeholderName (paramNumber params p) ++ ") WITH (" ++ layout ++ ") "
        ++ quoteIdentifier a) := by
  simp only [Target.tableSource, AliasMap.require_eq ha, after, hs, failure_append] at hf ⊢
  obtain ⟨⟨⟨-, hl⟩, -⟩, -⟩ := hf
  have hp : (t.rowsetColumns m.columns).Plain := by
    refine Plain.listed fun x hx => ?_
    obtain ⟨c, -, rfl⟩ := List.mem_map.1 hx
    exact Plain.after fun type => ((Plain.name _).append (.word _)).append (.word _)
  obtain ⟨layout, hl⟩ := hp.writes hl params
  exact ⟨layout, (((((Writes.word _).append (.placeholder p)).append (.word _)).append hl).append
    (.word _)).append (.name a)⟩

def Target.NamesTable (t : Target) (m : Model) (s : String) : Prop :=
  match m.source, m.schema with
  | .table, none => s = quoteIdentifier m.name
  | .table, some schema => s = quoteIdentifier schema ++ "." ++ quoteIdentifier m.name
  | .tempTable, _ => ∃ given, t.temps.get? m.id = some given ∧ s = quoteIdentifier given
  | _, _ => False

theorem Target.writes_tableName {t : Target} {m : Model} (h : (t.tableName m).failure = none)
    (params : List Param) : ∃ s, (t.tableName m).Writes params [] s ∧ t.NamesTable m s := by
  unfold Target.NamesTable
  cases hs : m.source with
  | table =>
    have hname : t.tableName m = qualified m.schema m.name := by rw [Target.tableName, hs]
    rw [hname]
    cases m.schema with
    | none => exact ⟨_, .name _, rfl⟩
    | some schema => exact ⟨_, ((Writes.name _).append (.word _)).append (.name _), rfl⟩
  | tempTable =>
    have hname : t.tableName m = after (t.temps.require m) name := by rw [Target.tableName, hs]
    rw [hname] at h ⊢
    obtain ⟨given, hgiven, -⟩ := failure_after h
    rw [hgiven]
    exact ⟨_, .name given, given, TempTables.require_eq_ok.1 hgiven, rfl⟩
  | jsonRowset | derived =>
    rw [Target.tableName, hs] at h
    cases h

theorem Scope.plain_projection (scope : Scope) (m : Model) (f : Field) :
    (scope.projection ⟨m.ref f, f⟩).Plain := by
  have hcolumn : ((m.ref f).value scope).Plain := by
    show (scope.column ⟨m.id, f⟩).Plain
    unfold Scope.column
    split
    · exact Plain.name _
    · split
      · exact ((Plain.name _).append (.word _)).append (.name _)
      · exact Plain.fail _
  refine hcolumn.append ?_
  split
  · exact Plain.nothing
  · exact (Plain.word _).append (.name _)

theorem Scope.plain_projections (scope : Scope) (m : Model) (columns : List Column) :
    (scope.projections (columns.map fun c => ⟨m.ref c.toField, c.toField⟩)).Plain := by
  unfold Scope.projections
  split
  · exact Plain.word _
  · refine Plain.listed fun x hx => ?_
    obtain ⟨p, hp, rfl⟩ := List.mem_map.1 hx
    obtain ⟨c, -, rfl⟩ := List.mem_map.1 hp
    exact scope.plain_projection m c.toField

theorem Target.writes_identityOutput {t : Target} {i : Insert} {m : Model} {identity : Column}
    {table : String} (ho : i.identityOutput = some m) (hi : i.target.identityColumn? = some identity)
    (hs : m.source = .tempTable) (ht : t.temps.get? m.id = some table) (params : List Param) :
    (t.identityOutput i).Writes params [] (outputClause identity.name table) := by
  simp only [Target.identityOutput, ho, hi]
  exact (((((writes_clause params _ (.name _)).append (.word _)).append
    (writes_tempName params hs ht)).append (.word _)).append (.name _)).append (.word _)

theorem Insert.shape_select {i : Insert} {body : Select} {source : Option Statement}
    {y : List String × InsertBody} (hc : i.columns = []) (hs : i.source = .select body source)
    (h : i.shape = .ok y) : ∃ names, y = (names, .query) := by
  unfold shape at h
  rw [hc, hs] at h
  simp only [List.isEmpty_nil, Bool.not_true, Bool.false_eq_true, if_false] at h
  split at h
  · cases h
  · obtain ⟨names, -, rfl⟩ := Result.map_eq_ok h
    exact ⟨names, rfl⟩

def rowsetSelect (rowset : Rowset) : Select :=
  { output := rowset.model
    columns := (rowset.model.columns.drop 1).map fun c => ⟨rowset.model.ref c.toField, c.toField⟩
    orderBy := [⟨rowset.model.ref rowset.rowId.toField, .ascending⟩] }

theorem Target.writes_rowsetSelect {t : Target} {aliases : AliasMap} {rowset : Rowset} {a : String}
    (hr : rowset.model.source = .jsonRowset rowset.param)
    (ha : aliases.get? rowset.model.id = some a)
    (hf : ((t.scope aliases).select true (rowsetSelect rowset)
      (some (t.tableSource aliases rowset.model))).failure = none) :
    ∃ columns layout, ((t.scope aliases).select true (rowsetSelect rowset)
      (some (t.tableSource aliases rowset.model))).Writes [rowset.param] [rowset.param]
        ("SELECT " ++ columns ++ "\nFROM OPENJSON(" ++ placeholderName 1 ++ ") WITH (" ++ layout
          ++ ") " ++ quoteIdentifier a ++ "\nORDER BY " ++ quoteIdentifier a ++ "."
          ++ quoteIdentifier rowset.rowId.name ++ " ASC") := by
  rw [rowsetSelect, Scope.select_ordered, clause] at hf
  simp only [failure_append] at hf
  obtain ⟨⟨⟨⟨⟨⟨-, hcolumns⟩, -, hsource⟩, -⟩, -⟩, -⟩, -⟩ := hf
  obtain ⟨layout, hs⟩ := writes_rowsetSource hr ha hsource [rowset.param]
  have hone : paramNumber [rowset.param] rowset.param = 1 := by simp [paramNumber]
  rw [hone] at hs
  have ho := Scope.writes_orderTerm (t := t) [rowset.param] ha rowset.rowId.toField .ascending
  obtain ⟨columns, hc⟩ := (Scope.plain_projections (t.scope aliases) rowset.model _).writes hcolumns
    [rowset.param]
  refine ⟨columns, layout, (Scope.writes_ordered _ rowset.model hc hs ho).of_eq rfl ?_⟩
  rw [show "\nFROM OPENJSON(" = "\nFROM " ++ "OPENJSON(" from rfl]
  simp only [SortDirection.sql, String.append_assoc]

/-- The text of an insert of a rowset, with whatever is written for its output clause. -/
theorem RowsetInsert.of_generate {t : Target} {target : Model} {rowset : Rowset}
    {mapping : Option Model} {output : String} {text : SqlText}
    (hr : rowset.model.source = .jsonRowset rowset.param) (hplain : '[' ∉ rowset.rowId.name.toList)
    (houtput : (t.identityOutput { target, identityOutput := mapping
                                   source := .select (rowsetSelect rowset)
                                     (some (.table rowset.model)) }).Writes
      [rowset.param] [] output)
    (h : t.generate (rowsetInsert target rowset mapping) = .ok text) :
    ∃ (i : RowsetInsert) (table columns : String), text = ⟨i.sqlWith output, [rowset.param]⟩ ∧
      i.target = table ++ " (" ++ columns ++ ")" ∧ t.NamesTable target table ∧
      i.parameter = placeholderName 1 ∧ i.column = rowset.rowId.name ∧ i.direction = .ascending := by
  have hf := failure_of_sqlText h
  let i : Insert :=
    { target, identityOutput := mapping
      source := .select (rowsetSelect rowset) (some (.table rowset.model)) }
  have hc : t.command (rowsetInsert target rowset mapping) =
      word "INSERT INTO " ++ t.tableName target ++ after i.shape (fun shape => word " (" ++ names shape.1 ++ word ")"
        ++ t.identityOutput i ++ line ++ t.insertBody i shape.2)
      ++ word ";" := rfl
  rw [hc] at hf
  simp only [failure_append] at hf
  obtain ⟨⟨⟨-, htarget⟩, hbody⟩, -⟩ := hf
  obtain ⟨y, hy, hbody⟩ := failure_after hbody
  obtain ⟨columns, rfl⟩ := i.shape_select rfl rfl hy
  dsimp only at hbody
  simp only [failure_append] at hbody
  obtain ⟨⟨⟨⟨⟨-, hnames⟩, -⟩, -⟩, -⟩, hselect⟩ := hbody
  obtain ⟨aliases, ha, hselect⟩ := failure_after hselect
  obtain ⟨a, hget⟩ := TempTables.get?_of_aliases ha (List.mem_singleton_self _)
  obtain ⟨columns', layout, hselect⟩ := Target.writes_rowsetSelect hr hget hselect
  obtain ⟨table, htable, hnamed⟩ := Target.writes_tableName htarget [rowset.param]
  have hnamesPlain : (names columns).Plain := Plain.listed fun x hx => by
    obtain ⟨s, -, rfl⟩ := List.mem_map.1 hx
    exact .name s
  obtain ⟨namesText, hnames⟩ := hnamesPlain.writes hnames [rowset.param]
  let result : RowsetInsert :=
    { target := table ++ " (" ++ namesText ++ ")"
      columns := columns'
      parameter := placeholderName 1
      layout
      rowset := a
      column := rowset.rowId.name
      direction := .ascending
      column_plain := hplain }
  have hw : (t.command (rowsetInsert target rowset mapping)).Writes [rowset.param]
      [rowset.param] (result.sqlWith output) := by
    have hquery : t.insertBody i .query = (t.scope aliases).select true (rowsetSelect rowset)
        (some (t.tableSource aliases rowset.model)) := by
      show after (t.temps.queryAliases i.source) _ = _
      rw [ha]
      rfl
    have hrows := ((((Writes.word " (").append hnames).append (.word ")")).append houtput).append
      .line |>.append hselect
    rw [hc, hy]
    dsimp only [after]
    rw [hquery]
    refine ((((Writes.word "INSERT INTO ").append htable).append hrows).append (.word ";")).of_eq rfl
      ?_
    unfold RowsetInsert.sqlWith
    rw [show "\nSELECT " = "\n" ++ "SELECT " from rfl]
    simp only [result, SortDirection.sql, String.append_assoc]
  exact ⟨result, table, namesText, Except.ok.inj (h.symm.trans (hw.sqlText rfl)), rfl, hnamed, rfl,
    rfl, rfl⟩

/-- The text of an insert of a rowset whose new identities go to a mapping table. -/
theorem KeyedInsert.of_generate {t : Target} {target : Model} {rowset : Rowset} {m : IdentityMap}
    {identity : Column} {table : String} {text : SqlText} (hm : m.Made identity)
    (hi : target.identityColumn? = some identity)
    (hr : rowset.model.source = .jsonRowset rowset.param)
    (hplain : '[' ∉ rowset.rowId.name.toList)
    (ht : t.temps.get? m.model.id = some table)
    (h : t.generate (rowsetInsert target rowset (some m.model)) = .ok text) :
    ∃ (i : KeyedInsert) (own columns : String), text = ⟨i.sql, [rowset.param]⟩ ∧
      i.target = own ++ " (" ++ columns ++ ")" ∧ t.NamesTable target own ∧
      i.identity = identity.name ∧ i.mapping = table ∧ i.parameter = placeholderName 1 ∧
      i.column = rowset.rowId.name ∧ i.direction = .ascending := by
  obtain ⟨i, own, columns, htext, htarget, hnamed, hrest⟩ := RowsetInsert.of_generate hr hplain
    (Target.writes_identityOutput rfl hi hm.source_eq ht [rowset.param]) h
  exact ⟨{ i with identity := identity.name, mapping := table }, own, columns, htext, htarget,
    hnamed, rfl, rfl, hrest⟩

theorem SqlText.bind_text {b : Bindings} {p : Param} {s : String} (hp : p.type = .string)
    (hb : b.get p.id = .string s) (sql : String) :
    ∃ q : BoundParam, SqlText.bind ⟨sql, [p]⟩ b = .ok [q] ∧ q.name = placeholderName 1 ∧
      q.value = .string s := by
  refine ⟨⟨placeholderName 1, (SqlType.nVarChar .max).info, .input, true, .string s⟩, ?_, rfl, rfl⟩
  have h1 : placeholders [p] = [(placeholderName 1, p)] := rfl
  have h2 : bindParam b (placeholderName 1, p) = .ok
      ⟨placeholderName 1, (SqlType.nVarChar .max).info, .input, true, .string s⟩ := by
    simp only [bindParam, hp, hb]
    rfl
  simp only [SqlText.bind, h1, List.mapM_cons, h2, List.mapM_nil]
  rfl

theorem BulkInsert.KeysRead.read_sql {server : Server} {job : BulkInsert} {session : Session}
    (k : BulkInsert.KeysRead server job session) :
    ∃ m : MappingQuery, k.read.sql = m.sql ∧ m.mapping = k.table ∧
      m.column = "NewValue" ∧ m.direction = IdentityMap.keyOrder k.identity := by
  obtain ⟨text, hg, -, hsql, -⟩ := Session.requestOf_ok k.read_eq
  obtain ⟨m, rfl, hm⟩ := MappingQuery.of_generate k.made k.get?_table hg
  exact ⟨m, hsql, hm⟩

end Tsql
