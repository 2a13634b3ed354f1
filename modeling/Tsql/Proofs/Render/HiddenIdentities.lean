import Mathlib.Logic.Equiv.Basic
import Tsql.Proofs.Render.RowTarget
import Tsql.Proofs.Render.SideBySideCommands

/-!
# Identities stay out of the text

The identities of models, columns and parameters are compared with one another and nothing else. So under
a renaming a command and the definition of a table have the same text, or an error of the same kind:
`Target.identities_hidden`. `Emission.Renamed` is the relation that goes through a rendering; since the
numbers of parameters are places of first occurrence, they are the same in both runs.
-/

namespace Tsql

open Text Emission

/-- The second rendering has the pieces of the first with parameters renamed, and ends as it does. -/
structure Emission.Renamed (σ : Renaming) (x y : Emission) : Prop where
  pieces_eq : y.pieces = x.pieces.map (Piece.rename σ)
  kind_eq : y.failure.map Error.kind = x.failure.map Error.kind

variable {σ : Renaming} {t : Target}

/-! ### Numbers of parameters -/

theorem Param.rename_id_beq (σ : Renaming) (p q : Param) :
    ((q.rename σ).id == (p.rename σ).id) = (q.id == p.id) := by
  rw [Bool.eq_iff_iff, beq_iff_eq, beq_iff_eq]
  exact σ.param_injective.eq_iff

theorem internParam_rename (σ : Renaming) (known : List Param) (p : Param) :
    internParam (known.map (Param.rename σ)) (p.rename σ) =
      (internParam known p).map (Param.rename σ) := by
  have hany : (known.map (Param.rename σ)).any (fun q => q.id == (p.rename σ).id) =
      known.any fun q => q.id == p.id := by
    rw [List.any_map]
    exact congrArg (known.any ·) (funext fun q => Param.rename_id_beq σ p q)
  unfold internParam
  rw [hany]
  split
  · rfl
  · rw [List.map_append, List.map_singleton]

theorem Piece.numbering_rename (σ : Renaming) (known : List Param) (pieces : List Piece) :
    numbering (known.map (Param.rename σ)) (pieces.map (Piece.rename σ)) =
      (numbering known pieces).map (Param.rename σ) := by
  induction pieces generalizing known with
  | nil => rfl
  | cons p rest ih =>
    cases p with
    | placeholder q =>
      have hnext := ih (internParam known q)
      rw [← internParam_rename] at hnext
      exact hnext
    | _ => exact ih known

theorem paramNumber_rename (σ : Renaming) (params : List Param) (p : Param) :
    paramNumber (params.map (Param.rename σ)) (p.rename σ) = paramNumber params p := by
  unfold paramNumber
  rw [List.findIdx_map]
  exact congrArg (params.findIdx · + 1) (funext fun q => Param.rename_id_beq σ p q)

theorem Piece.write_rename (σ : Renaming) (params : List Param) (w : Writer) (p : Piece) :
    write (params.map (Param.rename σ)) w (p.rename σ) = p.write params w := by
  cases p with
  | placeholder q => exact congrArg (fun n => w.write (placeholderName n)) (paramNumber_rename σ params q)
  | _ => rfl

theorem writePieces_rename (σ : Renaming) (params : List Param) (w : Writer) (pieces : List Piece) :
    writePieces (params.map (Param.rename σ)) w (pieces.map (Piece.rename σ)) =
      writePieces params w pieces := by
  rw [writePieces, List.foldl_map]
  exact congrArg (pieces.foldl · w) (funext fun w => funext fun p => p.write_rename σ params w)

namespace Emission.Renamed

/-- The relation goes through sequences. -/
theorem lockstep (σ : Renaming) : Lockstep σ fun _ => Renamed σ where
  nothing := ⟨rfl, rfl⟩
  piece _ := ⟨rfl, rfl⟩
  fail _ {_ _} h := ⟨rfl, congrArg some h.symm⟩
  append {_ _ x x' y y'} hx hy := by
    show Renamed σ (Emission.append x y) (Emission.append x' y')
    have hkind := hx.kind_eq
    unfold Emission.append
    cases hf : x.failure <;> cases hf' : x'.failure <;> rw [hf, hf'] at hkind
    · exact ⟨by rw [hx.pieces_eq, hy.pieces_eq, List.map_append], hy.kind_eq⟩
    · cases hkind
    · cases hkind
    · exact hx

theorem sqlText {x y : Emission} (h : x.Renamed σ y) :
    Result.Agrees (SqlText.rename σ) x.sqlText y.sqlText := by
  have hparams := Piece.numbering_rename σ [] x.pieces
  rw [List.map_nil, ← h.pieces_eq] at hparams
  have htext := writePieces_rename σ (Piece.numbering [] x.pieces) {} x.pieces
  rw [← hparams, ← h.pieces_eq] at htext
  have hkind := h.kind_eq
  unfold Emission.sqlText written
  dsimp only
  cases hf : x.failure <;> cases hf' : y.failure <;> rw [hf, hf'] at hkind
  · dsimp only
    rw [htext, hparams]
    exact .ok _
  · cases hkind
  · cases hkind
  · exact .error (Option.some.inj hkind).symm

end Emission.Renamed

/-- For one version both calls that consult it are rendered alike. -/
theorem SideBySide.renamed {s s' : Scope} (hversion : s'.version = s.version)
    (haliases : s'.aliases = s.aliases.map (AliasMap.rename σ))
    (hinlined : s'.inlined = s.inlined.map (Bindings.rename σ)) :
    SideBySide σ s s' fun _ => Renamed σ where
  toLockstep := Renamed.lockstep σ
  aliases_eq := haliases
  inlined_eq := hinlined
  trim {as x y} hx := by
    rw [hversion]
    unfold trimCall
    split
    · exact (Renamed.lockstep σ).callOf "TRIM" (@Each.single _ as _ _ hx)
    · exact @Lockstep.enclosed σ _ as _ _ (Renamed.lockstep σ) _ _ hx
  stringAgg {as} key xs xs' hx := by
    rw [hversion]
    unfold stringAggCall
    split
    · exact (Renamed.lockstep σ).callOf _ hx
    · exact ⟨rfl, rfl⟩

/-! ### Definitions of tables -/

section Tables

variable {R : List Expr → Emission → Emission → Prop}

namespace Emission.Lockstep

variable (h : Lockstep σ R)

include h

theorem keyList (columns : KeyColumns) :
    R [] (keyList columns) (keyList (KeyColumns.rename σ columns)) := by
  unfold Tsql.keyList
  rw [KeyColumns.rename, List.map_map]
  refine h.enclosed _ _ (h.listed (.map_nil fun (f, direction) _ => ?_))
  exact h.follow (h.name f.name) (h.direction direction)

theorem constraintHead (constraintName : Option String) (isTemp : Bool) :
    R [] (constraintHead constraintName isTemp) (constraintHead constraintName isTemp) := by
  cases constraintName with
  | none => exact h.nothing
  | some s =>
    unfold Tsql.constraintHead
    dsimp only
    split
    · exact h.nothing
    · exact h.enclosed _ _ (h.name s)

theorem clustering (clustered : Bool) : R [] (clustering clustered) (clustering clustered) :=
  h.word _

theorem primaryKeyDefinition (isTemp : Bool) (key : PrimaryKey) :
    R [] (primaryKeyDefinition isTemp key) (primaryKeyDefinition isTemp (key.rename σ)) :=
  h.follow (h.follow (h.follow (h.constraintHead _ _) (h.word _)) (h.clustering _)) (h.keyList key.columns)

theorem foreignKeyDefinition (key : ForeignKey) :
    R [] (foreignKeyDefinition key) (foreignKeyDefinition (key.rename σ)) := by
  have hnames : (key.rename σ).columns.map Field.name = key.columns.map Field.name := by
    rw [show (key.rename σ).columns = key.columns.map (Field.rename σ) from rfl, List.map_map]
    rfl
  unfold Tsql.foreignKeyDefinition
  rw [hnames]
  have hhead := h.enclosed "FOREIGN KEY (" ") REFERENCES " (h.names (key.columns.map Field.name))
  have hparent := h.follow (h.follow (h.follow hhead (h.qualified key.parentSchema key.parentTable))
    (h.word " (")) (h.names key.parentColumns)
  exact h.follow (h.follow (h.follow (h.follow hparent (h.word _)) (h.word _)) (h.word _)) (h.word _)

theorem indexDefinition (i : Index) : R [] (indexDefinition i) (indexDefinition (i.rename σ)) := by
  have hunique : R [] (if i.unique then Emission.word "UNIQUE " else Emission.nothing)
      (if i.unique then Emission.word "UNIQUE " else Emission.nothing) := by
    split
    · exact h.word _
    · exact h.nothing
  exact h.follow (h.follow (h.follow (h.enclosed _ _ (h.name i.name)) hunique) (h.clustering _))
    (h.keyList i.columns)

theorem describe (m : Model) (d : Description) : R [] (m.describe d) (m.describe d) := by
  have hpart : R [] (describedPart d.part) (describedPart d.part) := by
    cases d.part with
    | none => exact h.nothing
    | some part =>
      exact h.follow (h.follow (h.follow (h.word _) (h.national _)) (h.word _)) (h.national _)
  have hname := h.follow (h.follow (h.word "EXEC sp_addextendedproperty @name=")
    (h.national "MS_Description")) (h.word ", @value=")
  have hschema := h.follow (h.follow (h.follow (h.follow (h.follow hname (h.national d.text))
    (h.word ", @level0type=")) (h.national "Schema")) (h.word ", @level0name="))
    (h.national (m.schema.getD defaultSchema))
  have htable := h.follow (h.follow (h.follow (h.follow hschema (h.word ", @level1type="))
    (h.national "Table")) (h.word ", @level1name=")) (h.national m.name)
  exact h.follow (h.follow htable hpart) (h.word ";")

/-- Descriptions belong to names. -/
theorem describeAll (m : Model) : R [] m.describeAll (m.rename σ).describeAll := by
  have hdescriptions : (m.rename σ).descriptions = m.descriptions := by
    unfold Model.descriptions
    rw [show (m.rename σ).columns = m.columns.map (Column.rename σ) from rfl,
      show (m.rename σ).constraints = m.constraints.map (Constraint.rename σ) from rfl,
      show (m.rename σ).indexes = m.indexes.map (Index.rename σ) from rfl,
      show (m.rename σ).primaryKey = m.primaryKey.map (PrimaryKey.rename σ) from rfl,
      List.filterMap_map, List.filterMap_map, List.filterMap_map]
    cases m.primaryKey <;> rfl
  have hfold (ds : List Description) {x x' : Emission} (hx : R [] x x') :
      R [] (ds.foldl (fun acc d => acc ++ Emission.word "\n" ++ m.describe d) x)
        (ds.foldl (fun acc d => acc ++ Emission.word "\n" ++ m.describe d) x') := by
    induction ds generalizing x x' with
    | nil => exact hx
    | cons d rest ih => exact ih (h.follow (h.follow hx (h.word "\n")) (h.describe m d))
  unfold Model.describeAll
  rw [hdescriptions]
  exact hfold m.descriptions h.nothing

end Emission.Lockstep

namespace SideBySide

-- What `Trim` is called on is listed for the values of commands alone, so in a definition the relation may
-- not depend on the operands.
variable {s s' : Scope} (h : SideBySide σ s s' R) (hany : ∀ as x y, R as x y → R [] x y)

include h hany

theorem defaultClause (x : Option Expr) :
    R [] (defaultClause s x) (defaultClause s' (x.map (Expr.rename σ))) := by
  cases x with
  | none => exact h.nothing
  | some x => exact h.enclosed _ _ (hany _ _ _ (h.value x))

variable {t' : Target} (ht : t.Alike σ t')

include ht

theorem storedColumn (c : Column) : R [] (t.storedColumn s c) (t'.storedColumn s' (c.rename σ)) := by
  unfold Target.storedColumn
  rw [ht.types_eq, show (c.rename σ).toField = c.toField.rename σ from rfl, t.types.resolve_rename]
  refine h.afterSame _ fun type => ?_
  have hidentity : R [] (identityClause c.identity) (identityClause (c.rename σ).identity) := by
    rw [show (c.rename σ).identity = c.identity from rfl]
    cases c.identity with
    | none => exact h.nothing
    | some spec => exact h.word _
  have htype := h.follow (h.follow (h.name c.name) (h.word " ")) (h.word type.sql)
  exact h.follow (h.follow (h.follow htype (h.word _)) (h.defaultClause hany c.default)) hidentity

theorem columnDefinition (isTemp : Bool) (c : Column) :
    R [] (t.columnDefinition s isTemp c) (t'.columnDefinition s' isTemp (c.rename σ)) := by
  have hstored := h.storedColumn hany ht c
  unfold Target.columnDefinition
  rw [show (c.rename σ).computation = c.computation.map (Expr.rename σ) from rfl]
  cases c.computation with
  | none => exact hstored
  | some x =>
    cases isTemp with
    | true => exact hstored
    | false =>
      exact h.follow (h.follow (h.follow (h.name c.name) (h.word _)) (hany _ _ _ (h.value x))) (h.word ")")

omit ht in
theorem constraintDefinitions (isTemp : Bool) (constraints : List Constraint) :
    Each R [] (constraints.filterMap (constraintDefinition? s isTemp))
      ((constraints.map (Constraint.rename σ)).filterMap (constraintDefinition? s' isTemp)) := by
  induction constraints with
  | nil => exact .nil
  | cons c rest ih =>
    have hhead := h.constraintHead c.name? isTemp
    obtain ⟨label, body, description⟩ := c
    cases body with
    | unique columns clustered =>
      exact .cons (h.follow (h.follow (h.follow hhead (h.word "UNIQUE ")) (h.clustering clustered))
        (h.keyList columns)) ih
    | check x => exact .cons (h.follow (h.follow hhead (h.word "CHECK ")) (hany _ _ _ (h.predicate x))) ih
    | foreignKey key =>
      cases isTemp with
      | true => exact ih
      | false => exact .cons (h.follow hhead (h.foreignKeyDefinition key)) ih

theorem tableParts (isTemp : Bool) (m : Model) {b b' : Bindings} (hs : s = t.inlineScope b)
    (hs' : s' = t'.inlineScope b') :
    Each R [] (t.tableParts b m isTemp) (t'.tableParts b' (m.rename σ) isTemp) := by
  unfold Target.tableParts
  rw [← hs, ← hs']
  have hcolumns : Each R [] (m.columns.map (t.columnDefinition s isTemp))
      ((m.rename σ).columns.map (t'.columnDefinition s' isTemp)) := by
    rw [show (m.rename σ).columns = m.columns.map (Column.rename σ) from rfl, List.map_map]
    exact .map_nil fun c _ => h.columnDefinition hany ht isTemp c
  have hkey : Each R [] (m.primaryKey.map (primaryKeyDefinition isTemp)).toList
      ((m.rename σ).primaryKey.map (primaryKeyDefinition isTemp)).toList := by
    rw [show (m.rename σ).primaryKey = m.primaryKey.map (PrimaryKey.rename σ) from rfl]
    cases m.primaryKey with
    | none => exact .nil
    | some key => exact .single (h.primaryKeyDefinition isTemp key)
  have hindexes : Each R [] (m.indexes.map indexDefinition) ((m.rename σ).indexes.map indexDefinition) := by
    rw [show (m.rename σ).indexes = m.indexes.map (Index.rename σ) from rfl, List.map_map]
    exact .map_nil fun i _ => h.indexDefinition i
  exact ((hcolumns.append hkey).append (h.constraintDefinitions hany isTemp m.constraints)).append hindexes

theorem createTable (isTemp : Bool) (m : Model) {b b' : Bindings} (hs : s = t.inlineScope b)
    (hs' : s' = t'.inlineScope b') :
    R [] (t.createTable b m isTemp) (t'.createTable b' (m.rename σ) isTemp) := by
  have hname : R [] (t.definedName m isTemp) (t'.definedName (m.rename σ) isTemp) := by
    unfold Target.definedName
    rw [ht.temps_eq, t.temps.require_rename]
    cases isTemp with
    | true => exact h.afterSame _ fun name => h.name name
    | false => exact h.qualified _ _
  have hcolumns : R [] (if m.columns.isEmpty then
        fail (.invalidStatement s!"table '{m.name}' has no columns") else nothing)
      (if (m.rename σ).columns.isEmpty then
        fail (.invalidStatement s!"table '{(m.rename σ).name}' has no columns") else nothing) := by
    rw [show (m.rename σ).columns = m.columns.map (Column.rename σ) from rfl, List.isEmpty_map]
    split
    · exact h.fail _ rfl
    · exact h.nothing
  have hparts := h.separated ",\n    " (h.tableParts hany ht isTemp m hs hs')
  have hdescriptions : R [] (if isTemp then nothing else m.describeAll)
      (if isTemp then nothing else (m.rename σ).describeAll) := by
    split
    · exact h.nothing
    · exact h.describeAll m
  exact h.follow (h.follow (h.follow (h.follow (h.follow (h.follow (h.word _) hname) hcolumns) (h.word _))
    hparts) (h.word _)) hdescriptions

end SideBySide

end Tables

/-! ### The text -/

/-- The target with renamed types and temporary tables is one. -/
theorem Target.alike_rename (σ : Renaming) (t : Target) : t.Alike σ (t.rename σ) := ⟨rfl, rfl⟩

/-- Whatever identities the models, columns and parameters of a command have, its text is the same, with
the parameters under these identities, or its rendering fails with an error of the same kind. So does the
definition of a table with the values that parameters have. -/
theorem Target.identities_hidden (σ : Renaming) (t : Target) :
    (∀ c : Command, Result.Agrees (SqlText.rename σ) (t.generate c) ((t.rename σ).generate (c.rename σ))) ∧
      ∀ (b : Bindings) (m : Model) (isTemp : Bool), Result.Agrees id (t.createTableSql b m isTemp)
        ((t.rename σ).createTableSql (b.rename σ) (m.rename σ) isTemp) := by
  constructor
  · intro c
    have hside : SideBySide σ (t.commandScope c) ((t.rename σ).commandScope (c.rename σ))
        fun _ => Renamed σ := .renamed rfl (Target.aliases_commandScope (t.alike_rename σ) c) rfl
    exact (hside.command (t.alike_rename σ) c).sqlText
  · intro b m isTemp
    have hside : SideBySide σ (t.inlineScope b) ((t.rename σ).inlineScope (b.rename σ))
        fun _ => Renamed σ := .renamed rfl rfl rfl
    have htable := hside.createTable (fun _ _ _ h => h) (t.alike_rename σ) isTemp m rfl rfl
    exact htable.sqlText.map fun _ => rfl

/-- Models and columns 1 and 3 change places, and parameters 1 and 2. -/
def Renaming.exchange : Renaming where
  model := Equiv.swap ⟨1⟩ ⟨3⟩
  column := Equiv.swap ⟨1⟩ ⟨3⟩
  param := Equiv.swap ⟨1⟩ ⟨2⟩
  model_injective := Equiv.injective _
  column_injective := Equiv.injective _
  param_injective := Equiv.injective _

/-- The removal of customers with invoices whose names lie between two parameters. -/
def customersBetween : Command :=
  let name := customers.ref ⟨⟨1⟩, "Name", .string⟩
  .delete
    { target := customers, source := some customerInvoices
      filter := some (.binary .and (.binary .greaterThan name (.param ⟨⟨2⟩, .string⟩))
        (.binary .lessThan name (.param ⟨⟨1⟩, .string⟩))) }

theorem Target.identities_hidden_exchange :
    let t : Target := { version := .sql13 }
    let sql := "DELETE [Customer]\nFROM [Invoice] [Invoice]\n" ++
      "INNER JOIN [Customer] [Customer] ON [Invoice].[Customer] = [Customer].[Name]\n" ++
      "WHERE (([Customer].[Name] > @p1) AND ([Customer].[Name] < @p2));"
    ((customersBetween.rename .exchange).rowTarget?.map fun target => target.model.id) = some ⟨3⟩ ∧
      t.generate customersBetween = .ok ⟨sql, [⟨⟨2⟩, .string⟩, ⟨⟨1⟩, .string⟩]⟩ ∧
      (t.rename .exchange).generate (customersBetween.rename .exchange) =
        .ok ⟨sql, [⟨⟨1⟩, .string⟩, ⟨⟨2⟩, .string⟩]⟩ := by
  intro t sql
  have h : t.generate customersBetween = .ok ⟨sql, [⟨⟨2⟩, .string⟩, ⟨⟨1⟩, .string⟩]⟩ := by
    decide +kernel
  have hagrees := (t.identities_hidden .exchange).1 customersBetween
  rw [h] at hagrees
  refine ⟨rfl, h, ?_⟩
  generalize (t.rename .exchange).generate (customersBetween.rename .exchange) = r at hagrees
  cases hagrees
  rfl

end Tsql
