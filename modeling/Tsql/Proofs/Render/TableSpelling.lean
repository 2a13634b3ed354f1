import Tsql.Proofs.Render.CommandSpelling
import Tsql.Render.Table

/-!
# What table definitions spell

The walk of a definition meets the columns, the key, the constraints and the indexes of a model, and then
its descriptions. The call for a description names the description, the schema, the table and the part it
belongs to in quoted texts of its own.
-/

namespace Tsql

open Text Emission

/-! ### The walk -/

def Target.definedNameTrace (t : Target) (m : Model) (isTemp : Bool) : Trace :=
  if isTemp then Trace.after (t.temps.require m) .name else qualifiedTrace m.schema m.name

def constraintHeadTrace (constraintName : Option String) (isTemp : Bool) : Trace :=
  match constraintName with
  | some s => if isTemp || s == "" then {} else .name s
  | none => {}

def keyTrace (columns : KeyColumns) : Trace := Trace.join (columns.map fun (f, _) => .name f.name)

def columnDefinitionTrace (scope : Scope) (isTemp : Bool) (c : Column) : Trace :=
  match c.computation, isTemp with
  | some x, false => .name c.name ++ x.trace scope
  | _, _ => .name c.name ++ scope.optionalTrace c.default

def primaryKeyTrace (isTemp : Bool) (key : PrimaryKey) : Trace :=
  constraintHeadTrace (some key.name) isTemp ++ keyTrace key.columns

def foreignKeyTrace (key : ForeignKey) : Trace :=
  Trace.join ((key.columns.map Field.name).map .name)
    ++ qualifiedTrace key.parentSchema key.parentTable ++ Trace.join (key.parentColumns.map .name)

def constraintTrace? (scope : Scope) (isTemp : Bool) (c : Constraint) : Option Trace :=
  let head := constraintHeadTrace c.name? isTemp
  match c.body, isTemp with
  | .unique columns _, _ => some (head ++ keyTrace columns)
  | .check x, _ => some (head ++ x.trace scope)
  | .foreignKey key, false => some (head ++ foreignKeyTrace key)
  | .foreignKey _, true => none

def indexTrace (i : Index) : Trace := .name i.name ++ keyTrace i.columns

def Target.tableTraces (t : Target) (b : Bindings) (m : Model) (isTemp : Bool) : List Trace :=
  let scope := t.inlineScope b
  m.columns.map (columnDefinitionTrace scope isTemp)
    ++ (m.primaryKey.map (primaryKeyTrace isTemp)).toList
    ++ m.constraints.filterMap (constraintTrace? scope isTemp)
    ++ m.indexes.map indexTrace

def describedPartTrace : Option (DescribedKind × String) → Trace
  | some (kind, s) => .string kind.name ++ .string s
  | none => {}

def Model.describeTrace (m : Model) (d : Description) : Trace :=
  .string "MS_Description" ++ .string d.text ++ .string "Schema"
    ++ .string (m.schema.getD defaultSchema) ++ .string "Table" ++ .string m.name
    ++ describedPartTrace d.part

/-- What the walk of a definition finds. A temporary table has no descriptions. -/
def Target.createTableTrace (t : Target) (b : Bindings) (m : Model) (isTemp : Bool) : Trace :=
  t.definedNameTrace m isTemp ++ Trace.join (t.tableTraces b m isTemp)
    ++ (if isTemp then {} else Trace.join (m.descriptions.map m.describeTrace))

/-- The statements of a definition: the table, and a call for each of its descriptions. -/
def Model.statementCount (m : Model) (isTemp : Bool) : Nat :=
  if isTemp then 1 else 1 + m.descriptions.length

/-! ### Parts of definitions -/

namespace Emission.Spells

variable {t : Target}

theorem definedName (m : Model) (isTemp : Bool) :
    (t.definedName m isTemp).Spells .anywhere (some .tight) (t.definedNameTrace m isTemp) := by
  unfold Target.definedName Target.definedNameTrace
  split
  · exact resolved fun s _ => name s
  · exact qualified _ _

theorem constraintHead (constraintName : Option String) (isTemp : Bool) :
    (Tsql.constraintHead constraintName isTemp).Spells .anywhere (some .loose)
      (constraintHeadTrace constraintName isTemp) := by
  unfold Tsql.constraintHead constraintHeadTrace
  cases constraintName with
  | none => exact nothing
  | some s =>
    dsimp only
    split
    · exact nothing
    · exact (((ofWord "CONSTRAINT ").clause (name s)).word " ").closed (by decide)

theorem clustering (clustered : Bool) :
    (Tsql.clustering clustered).Spells .anywhere (some .tight) {} := by
  cases clustered with
  | true => exact (ofWord "CLUSTERED").at_edge (by decide)
  | false => exact (ofWord "NONCLUSTERED").at_edge (by decide)

theorem keyList (columns : KeyColumns) :
    (Tsql.keyList columns).Spells .anywhere (some .loose) (keyTrace columns) := by
  have hcolumns : (Emission.listed (columns.map fun (f, direction) =>
      Emission.name f.name ++ direction.text)).Spells .harmless (some .loose) (keyTrace columns) :=
    listed fun c _ => (((name c.1.name).silent (direction c.2)).closed (by decide)).harmless
  exact (((ofWord " (").value hcolumns).word ")").closed (by decide)

theorem defaultClause (scope : Scope) (x : Option Expr) :
    (Tsql.defaultClause scope x).Spells .anywhere (some .loose) (scope.optionalTrace x) := by
  cases x with
  | none => exact nothing
  | some x =>
    exact (((ofWord " DEFAULT(").value (x.value_spells scope)).word ")").closed (by decide)

theorem identityClause (spec : Option IdentitySpec) :
    (Tsql.identityClause spec).Spells .anywhere (some .loose) {} := by
  cases spec with
  | none => exact nothing
  | some spec =>
    have hseed := ((ofWord " IDENTITY(").value (intText spec.seed)).joinWords
    have hboth := ((hseed.appendWord ", ").value (intText spec.increment)).joinWords
    exact (hboth.appendWord ")").closed (by decide)

theorem storedColumn {c : Column} (h : ∀ n, t.types.resolve c.toField ≠ .ok (.udt n))
    (scope : Scope) :
    (t.storedColumn scope c).Spells .anywhere (some .loose)
      (.name c.name ++ scope.optionalTrace c.default) := by
  refine after fun type htype => ?_
  have hplain : ∀ n, type ≠ .udt n := fun n hn => h n (hn ▸ htype)
  have hnull : (Emission.word (if c.nullable then " NULL" else " NOT NULL")).Spells .anywhere
      (some .tight) {} := by
    split
    · exact (ofWord " NULL").at_edge (by decide)
    · exact (ofWord " NOT NULL").at_edge (by decide)
  exact ((((((name c.name).word " ").silent (sqlType hplain)).silent hnull).clause
    (defaultClause scope c.default)).silent (identityClause c.identity)).closed (by decide)

theorem columnDefinition {c : Column} (h : ∀ n, t.types.resolve c.toField ≠ .ok (.udt n))
    (scope : Scope) (isTemp : Bool) :
    (t.columnDefinition scope isTemp c).Spells .anywhere (some .loose)
      (columnDefinitionTrace scope isTemp c) := by
  unfold Target.columnDefinition columnDefinitionTrace
  cases c.computation with
  | none => exact storedColumn h scope
  | some x =>
    cases isTemp with
    | false =>
      exact ((((name c.name).word " AS (").value (x.value_spells scope)).word ")").closed
        (by decide)
    | true => exact storedColumn h scope

theorem primaryKeyDefinition (isTemp : Bool) (key : PrimaryKey) :
    (Tsql.primaryKeyDefinition isTemp key).Spells .anywhere (some .loose)
      (primaryKeyTrace isTemp key) :=
  ((((constraintHead (some key.name) isTemp).word "PRIMARY KEY ").silent
    (clustering key.clustered)).clause (keyList key.columns)).closed (by decide)

theorem rule (r : ForeignKeyRule) : (Emission.word r.sql).Spells .anywhere (some .tight) {} :=
  (ofWord r.sql).at_edge (by cases r <;> decide)

theorem foreignKeyDefinition (key : ForeignKey) :
    (Tsql.foreignKeyDefinition key).Spells .anywhere (some .loose) (foreignKeyTrace key) :=
  ((((((((((ofWord "FOREIGN KEY (").value (names _)).word ") REFERENCES ").clause
    (qualified key.parentSchema key.parentTable)).word " (").value
    (names key.parentColumns)).word ") ON DELETE ").silent (rule key.onDelete)).word
    " ON UPDATE ").silent (rule key.onUpdate)).closed (by decide)

theorem constraintDefinition (scope : Scope) (isTemp : Bool) (c : Constraint) :
    Option.Rel (fun x t => x.Spells .harmless (some .loose) t)
      (constraintDefinition? scope isTemp c) (constraintTrace? scope isTemp c) := by
  have hhead := constraintHead c.name? isTemp
  unfold constraintDefinition? constraintTrace?
  cases c.body with
  | unique columns clustered =>
    exact .some ((((hhead.word "UNIQUE ").silent (clustering clustered)).clause
      (keyList columns)).closed (by decide)).harmless
  | check x =>
    exact .some ((((hhead.word "CHECK ").value (x.predicate_spells scope)).closed
      (by decide)).harmless)
  | foreignKey key =>
    cases isTemp with
    | false => exact .some (hhead.clause (foreignKeyDefinition key)).harmless
    | true => exact .none

theorem indexDefinition (i : Index) :
    (Tsql.indexDefinition i).Spells .anywhere (some .loose) (indexTrace i) := by
  have hunique : (if i.unique then Emission.word "UNIQUE " else .nothing).Spells .anywhere
      (some .loose) {} := by
    split
    · exact (ofWord "UNIQUE ").closed (by decide)
    · exact nothing
  exact ((((((ofWord "INDEX ").clause (name i.name)).word " ").silent hunique).silent
    (clustering i.clustered)).clause (keyList i.columns)).closed (by decide)

theorem tableParts {m : Model} (h : t.HasPlainTypes m.columns) (b : Bindings) (isTemp : Bool) :
    Each (t.tableParts b m isTemp) (t.tableTraces b m isTemp) := by
  refine List.rel_append (List.rel_append (List.rel_append ?_ ?_) ?_) ?_
  · exact each fun c hc => (columnDefinition (h c hc) _ isTemp).harmless
  · cases m.primaryKey with
    | none => exact .nil
    | some key => exact .cons (primaryKeyDefinition isTemp key).harmless .nil
  · exact List.rel_filterMap (R := Eq) (fun c _ hc => hc ▸ constraintDefinition _ isTemp c)
      (List.forall₂_same.2 fun _ _ => rfl)
  · exact each fun i _ => (indexDefinition i).harmless

theorem describedPart (part : Option (DescribedKind × String)) :
    (Tsql.describedPart part).Spells .anywhere (some .loose) (describedPartTrace part) := by
  cases part with
  | none => exact nothing
  | some p =>
    exact ((((ofWord ", @level2type=").clause (national p.1.name)).word
      ", @level2name=").clause (national p.2)).closed (by decide)

end Emission.Spells

/-! ### Definitions -/

namespace Emission.Terminates

variable {x y : Emission} {a : Trace} {n : Nat}

theorem describe (m : Model) (d : Description) :
    (m.describe d).Terminates 1 (m.describeTrace d) := by
  have hlevels := (((((((((((Spells.ofWord "EXEC sp_addextendedproperty @name=").clause
    (Spells.national "MS_Description")).word ", @value=").clause (Spells.national d.text)).word
    ", @level0type=").clause (Spells.national "Schema")).word ", @level0name=").clause
    (Spells.national (m.schema.getD defaultSchema))).word ", @level1type=").clause
    (Spells.national "Table")).word ", @level1name=").clause (Spells.national m.name)
  exact semicolon ((hlevels.clause (Spells.describedPart d.part)).closed (by decide))

theorem describeAll (m : Model) (ds : List Description) (hx : (x ++ y).Terminates n a) :
    (x ++ ds.foldl (fun acc d => acc ++ word "\n" ++ m.describe d) y).Terminates (n + ds.length)
      (a ++ Trace.join (ds.map m.describeTrace)) := by
  induction ds generalizing y n a with
  | nil =>
    rw [List.map_nil, Trace.join, Trace.append_empty]
    exact hx
  | cons d rest ih =>
    -- The calls are appended from the left, so the statements in front take each of them up.
    have hline : (word "\n" ++ m.describe d).Terminates 1 (m.describeTrace d) :=
      behind (a := {}) ((Spells.ofWord "\n").closed (by decide)) (describe m d)
    have hd := hx.append hline
    rw [append_assoc, ← append_assoc y] at hd
    have hrest := ih hd
    rw [Trace.append_assoc] at hrest
    rw [List.length_cons, Nat.add_comm rest.length, ← Nat.add_assoc]
    exact hrest

/-- The definition of a table consists of whole statements. -/
theorem createTable {t : Target} {m : Model} (h : t.HasPlainTypes m.columns) (b : Bindings)
    (isTemp : Bool) :
    (t.createTable b m isTemp).Terminates (m.statementCount isTemp)
      (t.createTableTrace b m isTemp) := by
  have hempty : (if m.columns.isEmpty then
      fail (.invalidStatement s!"table '{m.name}' has no columns") else nothing).Spells .anywhere
      (some .loose) {} := by
    split
    · exact Spells.fail _
    · exact Spells.nothing
  have hparts : (separated ",\n    " (t.tableParts b m isTemp)).Spells .harmless (some .loose)
      (Trace.join (t.tableTraces b m isTemp)) :=
    Spells.separated (by decide) (Spells.tableParts h b isTemp)
  have htable : (word "CREATE TABLE " ++ t.definedName m isTemp
      ++ (if m.columns.isEmpty then
          fail (.invalidStatement s!"table '{m.name}' has no columns") else nothing)
      ++ word " (\n    " ++ separated ",\n    " (t.tableParts b m isTemp)
      ++ word "\n);").Terminates 1
      (t.definedNameTrace m isTemp ++ Trace.join (t.tableTraces b m isTemp)) :=
    wordSemicolon ((((((((Spells.ofWord "CREATE TABLE ").clause
      (Spells.definedName m isTemp)).silent hempty).word " (\n    ").value hparts).word
      "\n)").closed (by decide)))
  unfold Target.createTable Target.createTableTrace Model.statementCount
  cases isTemp with
  | true =>
    rw [if_pos rfl, if_pos rfl, if_pos rfl, Trace.append_empty]
    exact htable.alone
  | false => exact describeAll m m.descriptions htable.alone

end Emission.Terminates

end Tsql
