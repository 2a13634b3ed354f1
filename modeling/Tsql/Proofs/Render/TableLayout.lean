import Tsql.Proofs.Render.Derivation
import Tsql.Render.Table

/-!
# The layout of a table definition

`definitionText` puts the text of a definition together: the table, its parts with a comma between them, and
the calls behind it. `Target.createTable_lays` says that a definition which renders has this layout, with the
text of each part and of each call as it stands.
-/

namespace Tsql

open Text Emission

def definitionText (table : String) (items calls : List String) : String :=
  "CREATE TABLE " ++ table ++ " (\n    " ++ ",\n    ".intercalate items ++ "\n);"
    ++ String.join (calls.map ("\n" ++ ·))

def qualifiedText (schema : Option String) (table : String) : String :=
  match schema with
  | some s => quoteIdentifier s ++ "." ++ quoteIdentifier table
  | none => quoteIdentifier table

def constraintHeadText (constraintName : Option String) (isTemp : Bool) : String :=
  match constraintName with
  | some s => if isTemp || s == "" then "" else "CONSTRAINT " ++ quoteIdentifier s ++ " "
  | none => ""

def identityText : Option IdentitySpec → String
  | some spec => " IDENTITY(" ++ intText spec.seed ++ ", " ++ intText spec.increment ++ ")"
  | none => ""

def storedColumnText (c : Column) (type : SqlType) (default : String) : String :=
  quoteIdentifier c.name ++ " " ++ type.sql ++ (if c.nullable then " NULL" else " NOT NULL") ++ default
    ++ identityText c.identity

def ConstraintBody.opening : ConstraintBody → String
  | unique .. => "UNIQUE "
  | check _ => "CHECK "
  | foreignKey _ => "FOREIGN KEY ("

def describedPartText : Option (DescribedKind × String) → String
  | some (kind, s) =>
    ", @level2type=" ++ quoteString kind.name true ++ ", @level2name=" ++ quoteString s true
  | none => ""

def Model.describeText (m : Model) (d : Description) : String :=
  "EXEC sp_addextendedproperty @name=" ++ quoteString "MS_Description" true ++ ", @value="
    ++ quoteString d.text true ++ ", @level0type=" ++ quoteString "Schema" true ++ ", @level0name="
    ++ quoteString (m.schema.getD defaultSchema) true ++ ", @level1type=" ++ quoteString "Table" true
    ++ ", @level1name=" ++ quoteString m.name true ++ describedPartText d.part ++ ";"

namespace Emission.Lays

variable {x : Emission} {params : List Param} {level : Nat} {s : String}

theorem writePieces_start (h : x.Lays params 0 s) : (writePieces params {} x.pieces).text = s := by
  rw [h.write {} rfl, Writer.text_write_start]

theorem unique {s' : String} (h : x.Lays params 0 s) (h' : x.Lays params 0 s') : s = s' :=
  h.writePieces_start.symm.trans h'.writePieces_start

theorem national (s : String) : (Emission.national s).Lays params level (quoteString s true) :=
  literal _

/-- An expression that renders is written as one text. -/
theorem exists_inContext {scope : Scope} {c : Context} {x : Expr}
    (h : (inContext c x.isPredicate (x.node scope)).failure = none) (params : List Param) (level : Nat) :
    ∃ s, (inContext c x.isPredicate (x.node scope)).Lays params level s := by
  obtain ⟨_, -, d, -, hd⟩ := x.derivesIn scope c h
  exact ⟨_, hd params level⟩

theorem qualified (schema : Option String) (table : String) :
    (Tsql.qualified schema table).Lays params level (qualifiedText schema table) := by
  cases schema with
  | none => exact name _
  | some s => exact ((name s).append (word ".")).append (name table)

theorem exists_definedName {t : Target} {m : Model} {isTemp : Bool}
    (h : (t.definedName m isTemp).failure = none) (params : List Param) (level : Nat) :
    ∃ s, (t.definedName m isTemp).Lays params level s := by
  unfold Target.definedName at *
  cases isTemp with
  | false => exact ⟨_, qualified _ _⟩
  | true =>
    rw [if_pos rfl] at h ⊢
    obtain ⟨given, hgiven, -⟩ := failure_after h
    rw [hgiven]
    exact ⟨_, name given⟩

/-! ### Parts -/

theorem constraintHead (constraintName : Option String) (isTemp : Bool) :
    (Tsql.constraintHead constraintName isTemp).Lays params level
      (constraintHeadText constraintName isTemp) := by
  unfold Tsql.constraintHead constraintHeadText
  cases constraintName with
  | none => exact nothing
  | some s =>
    dsimp only
    split
    · exact nothing
    · exact ((word "CONSTRAINT ").append (name s)).append (word " ")

theorem exists_keyList (columns : KeyColumns) (params : List Param) (level : Nat) :
    ∃ s, (keyList columns).Lays params level s := by
  have hcolumns : ∀ c ∈ columns, ∃ s, (Emission.name c.1.name ++ c.2.text).Lays params level s := by
    intro c _
    obtain ⟨s, hs⟩ : ∃ s, c.2.text.Lays params level s := by
      cases c.2 with
      | unspecified => exact ⟨_, nothing⟩
      | ascending => exact ⟨_, word _⟩
      | descending => exact ⟨_, word _⟩
    exact ⟨_, (name _).append hs⟩
  obtain ⟨texts, htexts⟩ := exists_forall₂ hcolumns
  exact ⟨_, ((word _).append (listed (List.forall₂_map_left_iff.2 htexts))).append (word _)⟩

theorem exists_defaultClause {scope : Scope} {default : Option Expr}
    (h : (defaultClause scope default).failure = none) (params : List Param) (level : Nat) :
    ∃ s, (defaultClause scope default).Lays params level s := by
  cases default with
  | none => exact ⟨_, nothing⟩
  | some x =>
    obtain ⟨s, hs⟩ := exists_inContext (c := .value) (failure_append.1 (failure_append.1 h).1).2
      params level
    exact ⟨_, hs.enclosed _ _⟩

theorem identityClause (spec : Option IdentitySpec) :
    (Tsql.identityClause spec).Lays params level (identityText spec) := by
  cases spec with
  | none => exact nothing
  | some spec => exact word _

theorem exists_storedColumn {t : Target} {scope : Scope} {c : Column}
    (h : (t.storedColumn scope c).failure = none) (params : List Param) (level : Nat) :
    ∃ type default, (defaultClause scope c.default).Lays params level default ∧
      (t.storedColumn scope c).Lays params level (storedColumnText c type default) := by
  obtain ⟨type, htype, hf⟩ := failure_after h
  obtain ⟨default, hdefault⟩ := exists_defaultClause (failure_append.1 (failure_append.1 hf).1).2
    params level
  refine ⟨type, default, hdefault, ?_⟩
  rw [Target.storedColumn, htype]
  refine (((((name c.name).append (word " ")).append (word type.sql)).append (.of_eq (word _) ?_)).append
    hdefault).append (identityClause c.identity)
  rfl

theorem exists_columnDefinition {t : Target} {scope : Scope} {isTemp : Bool} {c : Column}
    (h : (t.columnDefinition scope isTemp c).failure = none) (params : List Param) (level : Nat) :
    ∃ rest, (t.columnDefinition scope isTemp c).Lays params level (quoteIdentifier c.name ++ " " ++ rest) := by
  have hstored (h : (t.storedColumn scope c).failure = none) :
      ∃ rest, (t.storedColumn scope c).Lays params level (quoteIdentifier c.name ++ " " ++ rest) := by
    obtain ⟨type, default, -, htext⟩ := exists_storedColumn h params level
    exact ⟨_, htext.of_eq (by simp only [storedColumnText, String.append_assoc]; rfl)⟩
  rw [Target.columnDefinition.eq_def] at h ⊢
  cases hx : c.computation with
  | none =>
    rw [hx] at h
    exact hstored h
  | some x =>
    rw [hx] at h
    cases isTemp with
    | true => exact hstored h
    | false =>
      obtain ⟨s, hs⟩ := exists_inContext (c := .value) (failure_append.1 (failure_append.1 h).1).2
        params level
      refine ⟨"AS (" ++ s ++ ")", ((((name _).append (word " AS (")).append hs).append (word ")")).of_eq ?_⟩
      simp only [String.append_assoc]
      rfl

theorem exists_primaryKeyDefinition (isTemp : Bool) (key : PrimaryKey) (params : List Param) (level : Nat) :
    ∃ rest, (primaryKeyDefinition isTemp key).Lays params level
      (constraintHeadText (some key.name) isTemp ++ ("PRIMARY KEY " ++ rest)) := by
  obtain ⟨columns, hcolumns⟩ := exists_keyList key.columns params level
  exact ⟨_, ((((constraintHead (some key.name) isTemp).append (word "PRIMARY KEY ")).append
    (word _)).append hcolumns).of_eq (by simp only [String.append_assoc]; rfl)⟩

theorem exists_constraintDefinition {scope : Scope} {isTemp : Bool} {c : Constraint}
    (hx : constraintDefinition? scope isTemp c = some x) (h : x.failure = none) (params : List Param)
    (level : Nat) :
    ∃ rest, x.Lays params level (constraintHeadText c.name? isTemp ++ (c.body.opening ++ rest)) := by
  have hhead : (Tsql.constraintHead c.name? isTemp).Lays params level (constraintHeadText c.name? isTemp) :=
    constraintHead _ _
  unfold constraintDefinition? at hx
  cases hc : c.body with
  | unique columns clustered =>
    simp only [hc, Option.some.injEq] at hx
    subst hx
    obtain ⟨key, hkey⟩ := exists_keyList columns params level
    exact ⟨_, (((hhead.append (word "UNIQUE ")).append (word _)).append hkey).of_eq
      (by simp only [String.append_assoc]; rfl)⟩
  | check condition =>
    simp only [hc, Option.some.injEq] at hx
    subst hx
    obtain ⟨s, hs⟩ := exists_inContext (c := .predicate) (failure_append.1 h).2 params level
    exact ⟨_, ((hhead.append (word "CHECK ")).append hs).of_eq
      (by simp only [String.append_assoc]; rfl)⟩
  | foreignKey key =>
    cases isTemp with
    | true => simp [hc] at hx
    | false =>
      simp only [hc, Option.some.injEq] at hx
      subst hx
      exact ⟨_, (hhead.append ((((((((((word "FOREIGN KEY (").append (names _)).append (word _)).append
        (qualified _ _)).append (word _)).append (names _)).append (word _)).append (word _)).append
        (word _)).append (word _))).of_eq (by simp only [String.append_assoc]; rfl)⟩

theorem exists_indexDefinition (i : Index) (params : List Param) (level : Nat) :
    ∃ rest, (indexDefinition i).Lays params level ("INDEX " ++ quoteIdentifier i.name ++ " " ++ rest) := by
  obtain ⟨columns, hcolumns⟩ := exists_keyList i.columns params level
  obtain ⟨unique, hunique⟩ : ∃ s, (if i.unique then Emission.word "UNIQUE " else .nothing).Lays params
      level s := by
    split
    · exact ⟨_, word _⟩
    · exact ⟨_, nothing⟩
  exact ⟨_, ((((((word "INDEX ").append (name i.name)).append (word " ")).append hunique).append
    (word _)).append hcolumns).of_eq (by simp only [String.append_assoc]; rfl)⟩

theorem exists_tableParts {t : Target} {b : Bindings} {m : Model} {isTemp : Bool}
    (h : ∀ x ∈ t.tableParts b m isTemp, x.failure = none) (params : List Param) (level : Nat) :
    ∃ items, List.Forall₂ (fun x s => x.Lays params level s) (t.tableParts b m isTemp) items := by
  refine exists_forall₂ fun x hx => ?_
  have hf := h x hx
  simp only [Target.tableParts, List.mem_append, List.mem_map, List.mem_filterMap, Option.mem_toList,
    Option.map_eq_some_iff] at hx
  obtain ((⟨c, -, rfl⟩ | ⟨key, -, rfl⟩) | ⟨c, -, hc⟩) | ⟨i, -, rfl⟩ := hx
  · exact (exists_columnDefinition hf params level).imp' _ fun _ h => h
  · exact (exists_primaryKeyDefinition isTemp key params level).imp' _ fun _ h => h
  · exact (exists_constraintDefinition hc hf params level).imp' _ fun _ h => h
  · exact (exists_indexDefinition i params level).imp' _ fun _ h => h

/-! ### Definitions -/

theorem describedPart (part : Option (DescribedKind × String)) :
    (Tsql.describedPart part).Lays params level (describedPartText part) := by
  cases part with
  | none => exact nothing
  | some p => exact (((word _).append (national _)).append (word _)).append (national _)

theorem describe (m : Model) (d : Description) :
    (m.describe d).Lays params level (m.describeText d) :=
  (((((((((((((word _).append (national _)).append (word _)).append (national _)).append (word _)).append
    (national _)).append (word _)).append (national _)).append (word _)).append (national _)).append
    (word _)).append (national _)).append (describedPart d.part)).append (word _)

/-- The calls behind a text, each on a line of its own. -/
theorem describeAll (m : Model) (ds : List Description) (h : x.Lays params level s) :
    (ds.foldl (fun acc d => acc ++ Emission.word "\n" ++ m.describe d) x).Lays params level
      (s ++ String.join ((ds.map m.describeText).map ("\n" ++ ·))) := by
  induction ds generalizing x s with
  | nil => exact h.of_eq (by simp)
  | cons d rest ih =>
    refine (ih ((h.append (word "\n")).append (describe m d))).of_eq ?_
    simp only [List.map_cons, String.join_cons, String.append_assoc]

end Emission.Lays

/-- A definition that renders is written as the text of its table, of its parts and of its calls. -/
theorem Target.createTable_lays {t : Target} {b : Bindings} {m : Model} {isTemp : Bool}
    (h : (t.createTable b m isTemp).failure = none) (params : List Param) :
    ∃ table items, (t.definedName m isTemp).Lays params 0 table ∧
      List.Forall₂ (fun x s => x.Lays params 0 s) (t.tableParts b m isTemp) items ∧
      (t.createTable b m isTemp).Lays params 0
        (definitionText table items (if isTemp then [] else m.descriptions.map m.describeText)) := by
  unfold createTable at h ⊢
  simp only [failure_append, failure_separated] at h
  obtain ⟨⟨⟨⟨⟨⟨-, hname⟩, hcolumns⟩, -⟩, hparts⟩, -⟩, -⟩ := h
  obtain ⟨table, htable⟩ := Lays.exists_definedName hname params 0
  obtain ⟨items, hitems⟩ := Lays.exists_tableParts hparts params 0
  have hne : ¬ m.columns.isEmpty = true := by
    intro hempty
    rw [if_pos hempty] at hcolumns
    cases hcolumns
  have hcalls : (if isTemp then nothing else m.describeAll).Lays params 0
      (String.join ((if isTemp then [] else m.descriptions.map m.describeText).map ("\n" ++ ·))) := by
    cases isTemp with
    | true => exact Lays.nothing.of_eq (by simp)
    | false => exact (Lays.describeAll m m.descriptions .nothing).of_eq (by simp)
  refine ⟨table, items, htable, hitems, ?_⟩
  rw [if_neg hne]
  refine Lays.of_eq (((((((Lays.word "CREATE TABLE ").append htable).append .nothing).append
    (.word " (\n    ")).append (.separated _ hitems)).append (.word "\n);")).append hcalls) ?_
  have hopening : "CREATE TABLE " ++ table ++ "" = "CREATE TABLE " ++ table := String.append_empty
  rw [hopening]
  rfl

end Tsql
