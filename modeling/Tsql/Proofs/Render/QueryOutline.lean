import Tsql.Proofs.Naming.Alias
import Tsql.Proofs.Render.ExprOutline
import Tsql.Proofs.Render.QuerySpelling
import Tsql.Render.Query

/-!
# Outlines of queries

`Statement.params` is a walk of a statement that lists its parameters in the order of its text,
`Statement.introduced` lists the nodes that have an alias in the order of their aliases: a table where it
stands, a query as a row source behind everything inside it. If every source has an alias, a statement
shows these parameters, and each of these nodes as the head in front of its alias.
-/

namespace Tsql

open Text Emission

/-! ### The walk -/

def Model.rowsetParams (m : Model) : List Param :=
  match m.source with
  | .jsonRowset p => [p]
  | _ => []

def allParams (xs : List Expr) : List Param := (xs.map Expr.params).flatten

/-- A select whose source is walked already. An order counts in the outermost query and where it limits
the rows. -/
def Select.params (outermost : Bool) (s : Select) (source : List Param) : List Param :=
  allParams (s.columns.map Projection.source) ++ source ++ optionParams s.filter
    ++ allParams s.groupBy ++ optionParams s.having
    ++ (if outermost || s.isLimited then allParams (s.orderBy.map OrderTerm.expr) else [])

/-- The parameters of a statement, in the order of its text. -/
def Statement.params (outermost : Bool) : Statement → List Param
  | table m => m.rowsetParams
  | select body none => body.params outermost []
  | select body (some source) => body.params outermost (source.params false)
  | union _ left right _ => left.params false ++ right.params false
  | join left right _ c => left.params false ++ right.params false ++ optionParams c.extra

/-- The nodes with an alias, in the order of their aliases in the text. -/
def Statement.introduced (asSource : Bool) : Statement → List Statement
  | table m => [table m]
  | select body none => if asSource then [select body none] else []
  | select body (some source) =>
    source.introduced true ++ if asSource then [select body (some source)] else []
  | union output left right kind =>
    left.introduced false ++ right.introduced false
      ++ if asSource then [union output left right kind] else []
  | join left right _ _ => left.introduced true ++ right.introduced true

/-- The column has a user-defined type whose name has open tokens or variables of its own. -/
def Target.isGarbling (t : Target) (c : Column) : Bool :=
  match t.types.resolve c.toField with
  | .ok (.udt n) => !isReadable n
  | _ => false

/-- The model is a rowset with such a column. -/
def Target.garbles (t : Target) (m : Model) : Bool :=
  match m.source with
  | .jsonRowset _ => m.columns.any t.isGarbling
  | _ => false

def AliasMap.nameOf (aliases : AliasMap) (m : Model) : String := (aliases.get? m.id).getD ""

/-- A table up to its alias: its name, or the rowset with its columns. -/
def Target.tableHead (t : Target) (m : Model) : Emission :=
  match m.source with
  | .jsonRowset p => word "OPENJSON(" ++ piece (.placeholder p) ++ word ") WITH ("
    ++ t.rowsetColumns m.columns ++ word ") "
  | _ => t.tableName m ++ word " "

def Target.head (t : Target) (aliases : AliasMap) : Statement → Emission
  | .table m => t.tableHead m
  | s => nested (t.query aliases false s) ++ word " "

def Target.introduction (t : Target) (aliases : AliasMap) (s : Statement) : List Piece × String :=
  ((t.head aliases s).pieces, (s.model?.map aliases.nameOf).getD "")

def Target.outline (t : Target) (aliases : AliasMap) (asSource outermost : Bool) (s : Statement) :
    Outline where
  params := s.params outermost
  aliases := (s.introduced asSource).map (t.introduction aliases)
  garbled := s.tables.any t.garbles

/-! ### Errors -/

namespace Scope

variable {scope : Scope} {err : Error}

theorem allows_resolve {types : TypeMap} {f : Field} (h : types.resolve f = .error err) :
    scope.Allows err := by
  unfold TypeMap.resolve at h
  split at h
  · cases h
  · cases ht : defaultType f.type with
    | ok type =>
      rw [ht] at h
      cases h
    | error e =>
      rw [ht] at h
      cases h
      have he : scope.Allows e := allows_defaultType ht
      cases e <;> first | exact he | exact nofun

theorem allows_require {temps : TempTables} {m : Model} (h : temps.require m = .error err) :
    scope.Allows err := by
  unfold TempTables.require at h
  split at h
  · cases h
  · cases h
    exact allows_append _ (c := 'd') (by decide) (by decide)

theorem allows_conditionError {kind : JoinKind} {c : JoinCondition}
    (h : kind.conditionError? c = some err) : scope.Allows err := by
  unfold JoinKind.conditionError? at h
  split at h
  · cases h
    exact allows_of_ne (by decide)
  · cases h
  · cases h
  · cases h
    exact allows_append _ (c := 'n') (by decide) (by decide)

end Scope

/-! ### Parts of queries -/

namespace Outline

theorem ext {a b : Outline} (hp : a.params = b.params) (ha : a.aliases = b.aliases)
    (hg : a.garbled = b.garbled) : a = b := by
  cases a
  cases b
  simp_all

theorem join_append (as bs : List Outline) : join (as ++ bs) = join as ++ join bs := by
  induction as with
  | nil => exact (empty_append _).symm
  | cons a rest ih => rw [List.cons_append, join, join, ih, append_assoc]

theorem join_empty {α : Type} (items : List α) : join (items.map fun _ => {}) = {} := by
  induction items with
  | nil => rfl
  | cons i rest ih =>
    rw [List.map_cons, join, ih]
    rfl

theorem join_garbled {α : Type} (items : List α) (g : α → Bool) :
    join (items.map fun i => { garbled := g i }) = { garbled := items.any g } := by
  induction items with
  | nil => rfl
  | cons i rest ih =>
    rw [List.map_cons, join, ih, List.any_cons]
    rfl

end Outline

namespace Emission.Shows

variable {x y : Emission} {P : Error → Prop} {scope : Scope} {a b : Outline}

theorem nameLoose (s : String) : (Emission.name s).Shows P .clear (some .loose) {} := (name s).loosen rfl

theorem names (items : List String) : (Emission.names items).Shows P .clear (some .loose) {} := by
  rw [← Outline.join_empty items]
  exact listed fun s _ => nameLoose s

theorem qualified (schema : Option String) (table : String) :
    (Tsql.qualified schema table).Shows P .clear (some .named) {} := by
  cases schema with
  | none => exact name table
  | some s => exact (((name s).word ".").silent (name table)).at_edge (by decide)

theorem tableName (t : Target) (m : Model) :
    (t.tableName m).Shows scope.Allows .clear (some .named) {} := by
  have hfail : (Emission.fail (.invalidStatement s!"model '{m.name}' is not backed by a table")).Shows
      scope.Allows .clear (some .named) {} :=
    fail (Scope.allows_append _ (c := 'e') (by decide) (by decide))
  unfold Target.tableName
  cases m.source with
  | table => exact qualified _ _
  | tempTable => exact after (fun _ => Scope.allows_require) fun s _ => name s
  | jsonRowset p => exact hfail
  | derived => exact hfail

/-- A type name that is written as it is, behind the blank that follows its column. -/
theorem udt (n : String) :
    (Emission.word n).Shows P .headed (some .loose) { garbled := !isReadable n } where
  failure := nofun
  params _ := rfl
  run e he _ c hc := by
    cases he
    have hopen : c.ending.isOpen = true := Ending.isOpen_of_within hc rfl
    refine ⟨[], rfl, .nil, by cases (c.run [.word n]).ending <;> rfl, fun hg => ?_⟩
    have hg : (c.garbled || (c.ending.piece (.word n)).isNone) = true := hg
    rw [Bool.or_eq_true] at hg
    refine hg.imp_right fun hnone => ?_
    rw [Ending.piece, hopen, Bool.true_and, Option.isNone_iff_eq_none, Option.or_eq_none_iff] at hnone
    simpa using hnone.2

theorem rowsetColumns (t : Target) (columns : List Column) :
    (t.rowsetColumns columns).Shows scope.Allows .clear (some .loose)
      { garbled := columns.any t.isGarbling } := by
  rw [← Outline.join_garbled]
  refine listed fun c _ => ?_
  unfold Target.isGarbling
  refine after (fun _ => Scope.allows_resolve) fun type htype => ?_
  rw [htype]
  have hcolumn : (Emission.name c.name ++ Emission.word " ").Shows scope.Allows .clear
      (some .headed) {} := ((name c.name).word " ").at_edge (by decide)
  cases type with
  | udt n => exact (hcolumn.part (udt n)).loosen rfl
  | _ => exact (hcolumn.part (plain .headed rfl (SqlType.isPlain_sql (by simp)))).loosen rfl

theorem tableHead (t : Target) (m : Model) :
    (t.tableHead m).Shows scope.Allows .clear (some .headed)
      { params := m.rowsetParams, garbled := t.garbles m } := by
  have htable : (t.tableName m ++ Emission.word " ").Shows scope.Allows .clear (some .headed) {} :=
    ((tableName t m).word " ").at_edge (by decide)
  unfold Target.tableHead Model.rowsetParams Target.garbles
  cases m.source with
  | jsonRowset p =>
    exact (((((ofWord "OPENJSON(").part (placeholder p)).word ") WITH (").part
      (rowsetColumns t m.columns)).word ") ").at_edge (by decide)
  | _ => exact htable

theorem tableSource (t : Target) {aliases : AliasMap} {m : Model}
    (h : ∃ a, aliases.get? m.id = some a) :
    (t.tableSource aliases m).Shows (t.scope aliases).Allows .clear (some .loose)
      (t.outline aliases true false (.table m)) := by
  obtain ⟨a, ha⟩ := h
  have hname : aliases.nameOf m = a := by rw [AliasMap.nameOf, ha]; rfl
  have houtline : t.outline aliases true false (.table m) =
      { params := m.rowsetParams, garbled := t.garbles m } ++
        { aliases := [((t.tableHead m).pieces, a)] } := by
    apply Outline.ext <;>
      simp [Target.outline, Statement.params, Statement.introduced, Statement.tables,
        Target.introduction, Target.head, Statement.model?, hname]
  have hhead : (t.tableHead m ++ Emission.name a).Shows (t.scope aliases).Allows .clear (some .loose)
      (t.outline aliases true false (.table m)) := by
    rw [houtline]
    exact ((tableHead t m).introduced a).loosen rfl
  rw [Target.tableSource, AliasMap.require_eq ha]
  unfold Target.tableHead at hhead
  dsimp only [Emission.after]
  cases hs : m.source with
  | derived => exact fail (Scope.allows_append _ (c := 'e') (by decide) (by decide))
  | _ =>
    rw [hs] at hhead
    exact hhead

theorem columnsUnder (sourceName : String) (columns : List Field) :
    (Tsql.columnsUnder sourceName columns).Shows P .clear (some .loose) {} := by
  unfold Tsql.columnsUnder
  split
  · exact ((name sourceName).word ".*").loosen (by decide)
  · rw [← Outline.join_empty columns]
    refine listed fun f _ => ?_
    exact (((name sourceName).word ".").silent (name f.name)).loosen (by decide)

theorem tableSelect (t : Target) {aliases : AliasMap} {m : Model}
    (h : ∃ a, aliases.get? m.id = some a) (columns : List Field) :
    (t.tableSelect aliases m columns).Shows (t.scope aliases).Allows .clear (some .loose)
      (t.outline aliases false false (.table m)) := by
  have hsource := tableSource t h
  obtain ⟨a, ha⟩ := h
  rw [Target.tableSelect, AliasMap.require_eq ha]
  exact (((((ofWord "SELECT ").silent (columnsUnder a columns)).silent line).word
    "FROM ").part hsource).loosen (by decide)

theorem direction (d : SortDirection) : d.text.Shows P .loose (some .loose) {} := by
  cases d with
  | unspecified => exact nothing
  | ascending => exact (ofWord " ASC").loosen (by decide)
  | descending => exact (ofWord " DESC").loosen (by decide)

theorem clauseOf {keyword : String} (hk : Ending.clear.word keyword = some .clear)
    (hx : x.Shows P .clear (some .loose) a) :
    (Tsql.clause keyword x).Shows P .loose (some .loose) a := by
  refine ((line.word keyword).part hx).at_edge ?_
  rw [Option.bind_some, hk]
  rfl

theorem limitClause (s : Select) : (Tsql.limitClause s).Shows P .loose (some .loose) {} := by
  unfold Tsql.limitClause
  split
  · have hoffset : (Tsql.clause "OFFSET " (Emission.word (natText (s.offset.getD 0)) ++
        Emission.word " ROWS")).Shows P .loose (some .loose) {} :=
      clauseOf (by decide) (((plain .clear rfl (isPlain_natText _)).word " ROWS").loosen (by decide))
    cases s.fetch with
    | none =>
      dsimp only
      rwa [append_nothing]
    | some n =>
      have hfetch : (Emission.word " FETCH NEXT " ++ Emission.word (natText n) ++
          Emission.word " ROWS ONLY").Shows P .loose (some .loose) {} :=
        (((ofWord " FETCH NEXT ").silent (plain .clear rfl (isPlain_natText n))).word
          " ROWS ONLY").loosen (by decide)
      exact (hoffset.silent hfetch).loosen rfl
  · exact nothing

theorem values (hs : scope.inlined = none) (xs : List Expr) :
    (Emission.listed (xs.map (Expr.value scope))).Shows scope.Allows .clear (some .loose)
      (.ofParams (allParams xs)) := by
  rw [allParams, ← Outline.join_ofParams, List.map_map]
  exact listed fun x _ => x.value_shows hs

theorem projection (hs : scope.inlined = none) (p : Projection) :
    (scope.projection p).Shows scope.Allows .clear (some .loose)
      (.ofParams (p.source.params)) := by
  unfold Scope.projection
  split
  · rw [append_nothing]
    exact p.source.value_shows hs
  · have htarget : (Emission.word " AS " ++ Emission.name p.target.name).Shows scope.Allows .loose
        (some .named) {} := ((ofWord " AS ").silent (name _)).at_edge (by decide)
    exact ((p.source.value_shows hs).silent htarget).loosen rfl

theorem projections (hs : scope.inlined = none) (columns : List Projection) :
    (scope.projections columns).Shows scope.Allows .clear (some .loose)
      (.ofParams (allParams (columns.map Projection.source))) := by
  unfold Scope.projections
  split
  · next hnil =>
    rw [List.isEmpty_iff.1 hnil]
    exact (ofWord "*").loosen (by decide)
  · rw [allParams, ← Outline.join_ofParams, List.map_map, List.map_map]
    exact listed fun p _ => projection hs p

theorem condition (hs : scope.inlined = none) {keyword : String} (hk : Ending.clear.word keyword = some .clear)
    (x : Option Expr) :
    (scope.condition keyword x).Shows scope.Allows .loose (some .loose)
      (.ofParams (optionParams x)) := by
  cases x with
  | none => exact nothing
  | some x => exact clauseOf hk (x.predicate_shows hs)

theorem grouping (hs : scope.inlined = none) (groupBy : List Expr) :
    (scope.grouping groupBy).Shows scope.Allows .loose (some .loose)
      (.ofParams (allParams groupBy)) := by
  unfold Scope.grouping
  split
  · next hnil =>
    rw [List.isEmpty_iff.1 hnil]
    exact nothing
  · exact clauseOf (by decide) (values hs groupBy)

theorem orderAndLimit (hs : scope.inlined = none) (s : Select) :
    (scope.orderAndLimit s).Shows scope.Allows .loose (some .loose)
      (.ofParams (allParams (s.orderBy.map OrderTerm.expr))) := by
  have horder : (if s.orderBy.isEmpty then
        if s.isLimited then Tsql.clause "ORDER BY (SELECT NULL)" .nothing else .nothing
      else Tsql.clause "ORDER BY " (Emission.listed (s.orderBy.map scope.orderTerm))).Shows
      scope.Allows .loose (some .loose)
      (.ofParams (allParams (s.orderBy.map OrderTerm.expr))) := by
    split
    · next hnil =>
      rw [List.isEmpty_iff.1 hnil]
      split
      · exact clauseOf (by decide) (nothing.loosen rfl)
      · exact nothing
    · refine clauseOf (by decide) ?_
      rw [allParams, ← Outline.join_ofParams, List.map_map, List.map_map]
      exact listed fun o _ => ((o.expr.value_shows hs).silent (direction o.direction)).loosen rfl
  exact (horder.silent (limitClause s)).loosen rfl

theorem select (hs : scope.inlined = none) (outermost : Bool) (s : Select) {source : Option Emission}
    (h : (sourceClause source).Shows scope.Allows .loose (some .loose) a) :
    (scope.select outermost s source).Shows scope.Allows .clear (some .loose)
      (.ofParams (allParams (s.columns.map Projection.source)) ++ a
        ++ .ofParams (optionParams s.filter) ++ .ofParams (allParams s.groupBy)
        ++ .ofParams (optionParams s.having)
        ++ .ofParams (if outermost || s.isLimited
          then allParams (s.orderBy.map OrderTerm.expr) else [])) := by
  have hhead : (Emission.word "SELECT " ++
      (if s.distinct then Emission.word "DISTINCT " else .nothing)).Shows scope.Allows .clear
        (some .clear) {} := by
    split
    · exact ((ofWord "SELECT ").word "DISTINCT ").at_edge (by decide)
    · rw [append_nothing]
      exact (ofWord "SELECT ").at_edge (by decide)
  have horder : (if outermost || s.isLimited then scope.orderAndLimit s else .nothing).Shows
      scope.Allows .loose (some .loose) (.ofParams (if outermost || s.isLimited
        then allParams (s.orderBy.map OrderTerm.expr) else [])) := by
    split
    · exact orderAndLimit hs s
    · exact nothing
  exact ((((((hhead.part (projections hs s.columns)).part h).part
    (condition hs (by decide) s.filter)).part (grouping hs s.groupBy)).part
    (condition hs (by decide) s.having)).part horder).loosen (by decide)

theorem nested (hx : x.Shows P .clear (some .loose) a) :
    (Tsql.nested x).Shows P .clear (some .closed) a :=
  ((((((ofWord "(").silent indent).silent line).part hx).silent outdent).silent line).word ")"
    |>.at_edge (by decide)

theorem unionOf (kind : UnionKind) (hx : x.Shows P .clear (some .loose) a)
    (hy : y.Shows P .clear (some .loose) b) :
    (Tsql.unionOf kind x y).Shows P .clear (some .loose) (a ++ b) :=
  (((((nested hx).silent line).word kind.sql).silent line).part (nested hy)).loosen
    (by cases kind <;> decide)

theorem equality (scope : Scope) (pair : ColumnRef × ColumnRef) :
    (scope.equality pair).Shows scope.Allows .clear (some .loose) {} :=
  (((column scope pair.1).word " = ").silent (column scope pair.2)).loosen (by decide)

theorem joinClause (hs : scope.inlined = none) (c : JoinCondition) :
    (scope.joinClause c).Shows scope.Allows .loose (some .loose)
      (.ofParams (optionParams c.extra)) := by
  have hparts : Each scope.Allows (scope.joinParts c)
      (c.pairs.map (fun _ => ({} : Outline)) ++ (c.extra.map fun x => .ofParams (x.params)).toList) := by
    refine List.rel_append (each fun pair _ => equality scope pair) ?_
    cases c.extra with
    | none => exact .nil
    | some x => exact .cons (x.predicate_shows hs) .nil
  have hjoin : Outline.join (c.pairs.map (fun _ => ({} : Outline))
      ++ (c.extra.map fun x => .ofParams (x.params)).toList) =
      .ofParams (optionParams c.extra) := by
    rw [Outline.join_append, Outline.join_empty, Outline.empty_append]
    cases c.extra with
    | none => rfl
    | some x => exact Outline.join_singleton _
  unfold Scope.joinClause
  split
  · rw [← hjoin]
    exact ((ofWord " ON ").part (separated (by decide) hparts)).loosen (by decide)
  · next hnone =>
    simp only [JoinCondition.isSome, Bool.or_eq_true, Bool.not_eq_true', not_or,
      Bool.not_eq_false, List.isEmpty_iff, Option.not_isSome_iff_eq_none] at hnone
    rw [hnone.2]
    exact nothing

theorem join (hs : scope.inlined = none) (kind : JoinKind) (c : JoinCondition) (rightIsJoin : Bool)
    (hx : x.Shows scope.Allows .clear (some .loose) a)
    (hy : y.Shows scope.Allows .clear (some .loose) b) :
    (scope.join kind c x y rightIsJoin).Shows scope.Allows .clear (some .loose)
      (a ++ b ++ .ofParams (optionParams c.extra)) := by
  have hright : (if rightIsJoin then Emission.word "(" ++ y ++ Emission.word ")" else y).Shows
      scope.Allows .clear (some .loose) b := by
    split
    · exact (((ofWord "(").part hy).word ")").loosen (by decide)
    · exact hy
  unfold Scope.join
  split
  · next err herr => exact fail (Scope.allows_conditionError herr)
  · exact (((((hx.silent line).word kind.sql).word " ").part hright).part
      (joinClause hs c)).loosen (by cases kind <;> decide)

end Emission.Shows

/-! ### Statements -/

namespace Target

variable {t : Target} {aliases : AliasMap} {s : Statement}

def Covers (aliases : AliasMap) (models : List Model) : Prop :=
  ∀ m ∈ models, ∃ a, aliases.get? m.id = some a

theorem Covers.of_cons {m : Model} {models : List Model} (h : Covers aliases (m :: models)) :
    (∃ a, aliases.get? m.id = some a) ∧ Covers aliases models :=
  ⟨h m (by simp), fun n hn => h n (by simp [hn])⟩

theorem Covers.of_append {models models' : List Model} (h : Covers aliases (models ++ models')) :
    Covers aliases models ∧ Covers aliases models' :=
  ⟨fun n hn => h n (by simp [hn]), fun n hn => h n (by simp [hn])⟩

theorem outline_select (outermost : Bool) (body : Select) (source : Option Statement) :
    t.outline aliases false outermost (.select body source) =
      .ofParams (allParams (body.columns.map Projection.source))
        ++ (source.map (t.outline aliases true false)).getD {}
        ++ .ofParams (optionParams body.filter)
        ++ .ofParams (allParams body.groupBy)
        ++ .ofParams (optionParams body.having)
        ++ .ofParams (if outermost || body.isLimited
          then allParams (body.orderBy.map OrderTerm.expr) else []) := by
  cases source <;> apply Outline.ext <;>
    simp [outline, Outline.ofParams, Statement.params, Select.params, Statement.introduced,
      Statement.tables]

theorem outline_union (outermost : Bool) (output : Model) (left right : Statement) (kind : UnionKind) :
    t.outline aliases false outermost (.union output left right kind) =
      t.outline aliases false false left ++ t.outline aliases false false right := by
  apply Outline.ext <;>
    simp [outline, Statement.params, Statement.introduced, Statement.tables]

theorem outline_join (left right : Statement) (kind : JoinKind) (c : JoinCondition) :
    t.outline aliases true false (.join left right kind c) =
      t.outline aliases true false left ++ t.outline aliases true false right
        ++ .ofParams (optionParams c.extra) := by
  apply Outline.ext <;>
    simp [outline, Outline.ofParams, Statement.params, Statement.introduced, Statement.tables]

/-- As a row source, a query shows itself behind what it shows as a query. -/
theorem outline_source (hs : s.isQuery = true) :
    t.outline aliases true false s =
      t.outline aliases false false s ++ { aliases := [t.introduction aliases s] } := by
  cases s with
  | table m => cases hs
  | select body source =>
    cases source <;> apply Outline.ext <;> simp [outline, Statement.introduced]
  | union output left right kind =>
    apply Outline.ext <;> simp [outline, Statement.introduced]
  | join left right kind c => cases hs

theorem aliased_shows {output : Model} (hs : s.isQuery = true) (hmodel : s.model? = some output)
    (h : ∃ a, aliases.get? output.id = some a)
    (hx : (t.query aliases false s).Shows (t.scope aliases).Allows .clear (some .loose)
      (t.outline aliases false false s)) :
    (aliased aliases output (t.query aliases false s)).Shows (t.scope aliases).Allows .clear
      (some .loose) (t.outline aliases true false s) := by
  obtain ⟨a, ha⟩ := h
  have hintro : t.introduction aliases s =
      ((nested (t.query aliases false s) ++ word " ").pieces, a) := by
    have hname : aliases.nameOf output = a := by rw [AliasMap.nameOf, ha]; rfl
    rw [introduction, hmodel, Option.map_some, hname]
    cases s with
    | table m => cases hs
    | _ => rfl
  rw [aliased, AliasMap.require_eq ha, outline_source hs, hintro]
  exact ((((Shows.nested hx).word " ").at_edge (by decide)).introduced a).loosen rfl

/-- A statement as a query, outermost or not, and as a row source. A row source is the query with its
alias, so both are shown together. -/
theorem shows (t : Target) (aliases : AliasMap) (s : Statement) :
    (Covers aliases (s.sources false) → ∀ outermost,
      (t.query aliases outermost s).Shows (t.scope aliases).Allows .clear (some .loose)
        (t.outline aliases false outermost s)) ∧
    (Covers aliases (s.sources true) →
      (t.source aliases s).Shows (t.scope aliases).Allows .clear (some .loose)
        (t.outline aliases true false s)) := by
  cases s with
  | table m =>
    refine ⟨fun h outermost => ?_, fun h => ?_⟩
    · rw [query]
      exact Shows.tableSelect t (h m (List.mem_singleton.2 rfl)) _
    · rw [source]
      exact Shows.tableSource t (h m (List.mem_singleton.2 rfl))
  | select body source =>
    cases source with
    | none =>
      have hquery : ∀ outermost, (t.query aliases outermost (.select body none)).Shows
          (t.scope aliases).Allows .clear (some .loose)
          (t.outline aliases false outermost (.select body none)) := by
        intro outermost
        rw [query, outline_select]
        exact Shows.select rfl outermost body Shows.nothing
      refine ⟨fun _ => hquery, fun h => ?_⟩
      have hsource := aliased_shows rfl rfl (Covers.of_cons h).1 (hquery false)
      rw [query] at hsource
      rwa [source]
    | some inner =>
      have hquery : Covers aliases (inner.sources true) → ∀ outermost,
          (t.query aliases outermost (.select body (some inner))).Shows
          (t.scope aliases).Allows .clear (some .loose)
          (t.outline aliases false outermost (.select body (some inner))) := by
        intro h outermost
        rw [query, outline_select]
        exact Shows.select rfl outermost body (Shows.clauseOf (by decide) ((shows t aliases inner).2 h))
      refine ⟨hquery, fun h => ?_⟩
      obtain ⟨hm, hinner⟩ := Covers.of_cons h
      have hsource := aliased_shows rfl rfl hm (hquery hinner false)
      rw [query] at hsource
      rwa [source]
  | union output left right kind =>
    have hquery : Covers aliases (left.sources false ++ right.sources false) → ∀ outermost,
        (t.query aliases outermost (.union output left right kind)).Shows
        (t.scope aliases).Allows .clear (some .loose)
        (t.outline aliases false outermost (.union output left right kind)) := by
      intro h outermost
      obtain ⟨hl, hr⟩ := Covers.of_append h
      rw [query, outline_union]
      exact Shows.unionOf kind ((shows t aliases left).1 hl false) ((shows t aliases right).1 hr false)
    refine ⟨hquery, fun h => ?_⟩
    obtain ⟨hm, hinner⟩ := Covers.of_cons h
    have hsource := aliased_shows rfl rfl hm (hquery hinner false)
    rw [query] at hsource
    rwa [source]
  | join left right kind c =>
    refine ⟨fun _ outermost => ?_, fun h => ?_⟩
    · rw [query]
      exact Shows.fail (Scope.allows_of_ne (by decide))
    · obtain ⟨hl, hr⟩ := Covers.of_append h
      rw [source, outline_join]
      exact Shows.join rfl kind c _ ((shows t aliases left).2 hl) ((shows t aliases right).2 hr)

end Target

end Tsql
