import Tsql.Proofs.Render.Layout
import Tsql.Proofs.Render.SideBySideCommands

/-!
# Renderings line by line

Each line of a rendering begins with a word, and what stands one level deeper ends on its own level. A
property of renderings that goes through such lines and levels (`Emission.Linewise`) holds of expressions,
statements and commands: `Linewise.node`, `Linewise.query`, `Linewise.command`. It is indexed by the limited
selects in the rendering, whose limits are the only lines that are left to the property itself.
-/

namespace Tsql

open Text Emission

/-! ### Limited selects -/

def Scope.orderClause (scope : Scope) (s : Select) : Emission :=
  if s.orderBy.isEmpty then clause "ORDER BY (SELECT NULL)" nothing
  else clause "ORDER BY " (listed (s.orderBy.map scope.orderTerm))

/-- The select itself, if it is limited. -/
def Select.limited (s : Select) : List Select := if s.isLimited then [s] else []

/-- The limited selects of a statement, in the order of its text. -/
def Statement.limited : Statement → List Select
  | table _ => []
  | select body none => body.limited
  | select body (some source) => source.limited ++ body.limited
  | union _ left right _ => left.limited ++ right.limited
  | join left right _ _ => left.limited ++ right.limited

/-- The limited selects of a command, in the order of its text. -/
def Command.limited : Command → List Select
  | query s => s.limited
  | insert i => i.source.limited
  | insertRow _ => []
  | update u => (u.source.getD (.table u.target)).limited
  | delete d => (d.source.getD (.table d.target)).limited

theorem Scope.orderAndLimit_of_isLimited (scope : Scope) {s : Select} (h : s.isLimited = true) :
    scope.orderAndLimit s = scope.orderClause s ++ limitClause s := by
  unfold orderAndLimit orderClause
  rw [if_pos h]

theorem Scope.orderAndLimit_of_not_isLimited (scope : Scope) {s : Select} (h : ¬ s.isLimited = true) :
    scope.orderAndLimit s = if s.orderBy.isEmpty then nothing else scope.orderClause s := by
  unfold orderAndLimit orderClause limitClause
  rw [if_neg h, if_neg h, append_nothing]
  split <;> rfl

/-! ### Words that begin lines -/

/-- A rendering without errors begins with a word that has a text, and not with that of a limit. -/
def Emission.Opens (x : Emission) : Prop :=
  x.failure = none → ∃ w, x.pieces.head? = some (.word w) ∧ w ≠ "" ∧ w ≠ "OFFSET "

variable {scope : Scope} {t : Target} {aliases : AliasMap} {x y z : Emission}
  {R : List Select → Emission → Prop} {ss ss' : List Select}

namespace Emission.Opens

theorem word {w : String} (hw : w ≠ "" ∧ w ≠ "OFFSET ") : (Emission.word w).Opens :=
  fun _ => ⟨w, rfl, hw⟩

theorem append (hx : x.Opens) : (x ++ y).Opens := by
  intro hf
  obtain ⟨hfx, -⟩ := failure_append.1 hf
  obtain ⟨w, hhead, hw⟩ := hx hfx
  refine ⟨w, ?_, hw⟩
  rw [pieces_append hfx, List.head?_append, hhead, Option.some_or]

theorem after {α : Type} {r : Result α} {f : α → Emission} (h : ∀ a, (f a).Opens) :
    (Emission.after r f).Opens := by
  cases r with
  | error e => exact nofun
  | ok a => exact h a

theorem nested : (nested x).Opens := by
  unfold Tsql.nested
  iterate 6 refine append ?_
  exact word (by decide)

theorem select {outermost : Bool} {s : Select} {source : Option Emission} :
    (scope.select outermost s source).Opens := by
  unfold Scope.select
  iterate 7 refine append ?_
  exact word (by decide)

theorem unionOf {kind : UnionKind} : (unionOf kind x y).Opens := by
  unfold Tsql.unionOf
  iterate 4 refine append ?_
  exact nested

theorem tableSelect {m : Model} {columns : List Field} : (t.tableSelect aliases m columns).Opens := by
  refine after fun sourceName => ?_
  iterate 4 refine append ?_
  exact word (by decide)

theorem query {outermost : Bool} (s : Statement) : (t.query aliases outermost s).Opens := by
  cases s with
  | table m =>
    rw [Target.query]
    exact tableSelect
  | select body source =>
    cases source <;> rw [Target.query] <;> exact select
  | union output left right kind =>
    rw [Target.query]
    exact unionOf
  | join left right kind c =>
    rw [Target.query]
    exact nofun

/-- The rows of an insert begin with a word of their own. -/
theorem insertBody (i : Insert) (body : InsertBody) : (t.insertBody i body).Opens := by
  cases body with
  | mapped => exact after fun aliases => append (append (word (by decide)))
  | query => exact after fun aliases => query i.source
  | table m fields => exact after fun aliases => tableSelect

end Emission.Opens

theorem JoinKind.sql_opens (kind : JoinKind) : kind.sql ≠ "" ∧ kind.sql ≠ "OFFSET " := by
  cases kind <;> decide

theorem UnionKind.sql_opens (kind : UnionKind) : kind.sql ≠ "" ∧ kind.sql ≠ "OFFSET " := by
  cases kind <;> decide

/-! ### Properties that go through lines -/

/-- A property of renderings, given the limited selects in them, that goes through sequences, lines that a
word begins, and levels. The order and limit of a select have it if the order alone has. -/
structure Emission.Linewise (scope : Scope) (R : List Select → Emission → Prop) : Prop where
  nothing : R [] nothing
  fail (ss : List Select) (e : Error) : R ss (fail e)
  text {p : Piece} (hp : p.isText = true) : R [] (piece p)
  append {ss ss' : List Select} {x y : Emission} (hx : R ss x) (hy : R ss' y) : R (ss ++ ss') (x ++ y)
  onLine {ss : List Select} {x : Emission} (hx : R ss x) (hopens : x.Opens) : R ss (line ++ x)
  deeper {ss : List Select} {x : Emission} (hx : R ss x) :
    R ss (piece .indent ++ x ++ piece .outdent)
  orderAndLimit (s : Select) (horder : R [] (scope.orderClause s)) : R s.limited (scope.orderAndLimit s)

namespace Emission.Linewise

variable (h : Linewise scope R)

include h

theorem word (w : String) : R [] (word w) := h.text rfl

theorem name (s : String) : R [] (name s) := h.text rfl

theorem literal (l : Literal) : R [] (piece (.literal l)) := h.text rfl

theorem placeholder (p : Param) : R [] (piece (.placeholder p)) := h.text rfl

/-- A rendering without limited selects behind another. -/
theorem follow (hx : R ss x) (hy : R [] y) : R ss (x ++ y) := by
  simpa using h.append hx hy

theorem appendLine (hx : R ss x) (hy : R ss' y) (hopens : y.Opens) : R (ss ++ ss') (x ++ line ++ y) := by
  rw [append_assoc]
  exact h.append hx (h.onLine hy hopens)

theorem followLine (hx : R ss x) {w : String} (hw : w ≠ "" ∧ w ≠ "OFFSET ") :
    R ss (x ++ line ++ Emission.word w) := by
  simpa using h.appendLine hx (h.word w) (.word hw)

theorem clause {keyword : String} (hk : keyword ≠ "" ∧ keyword ≠ "OFFSET ") (hx : R ss x) :
    R ss (clause keyword x) := h.append (h.onLine (h.word keyword) (.word hk)) hx

theorem enclosed (before behind : String) (hx : R ss x) :
    R ss (Emission.word before ++ x ++ Emission.word behind) :=
  h.follow (h.append (h.word before) hx) (h.word behind)

theorem after {α : Type} {r : Result α} {f : α → Emission} (hf : ∀ a, r = .ok a → R ss (f a)) :
    R ss (Emission.after r f) := by
  cases r with
  | error e => exact h.fail ss e
  | ok a => exact hf a rfl

theorem separated (separator : String) {items : List Emission} (hitems : ∀ x ∈ items, R [] x) :
    R [] (Emission.separated separator items) := by
  induction items with
  | nil => exact h.nothing
  | cons x rest ih =>
    cases rest with
    | nil => exact hitems x (by simp)
    | cons y rest =>
      exact h.follow (h.follow (hitems x (by simp)) (h.word separator))
        (ih fun z hz => hitems z (by simp [hz]))

theorem listed {α : Type} {items : List α} {f : α → Emission} (hf : ∀ a ∈ items, R [] (f a)) :
    R [] (Emission.listed (items.map f)) := h.separated ", " (List.forall_mem_map.2 hf)

theorem names (items : List String) : R [] (Emission.names items) := h.listed fun s _ => h.name s

/-! ### Expressions -/

theorem inContext (context : Context) (isPredicate : Bool) (hx : R [] x) :
    R [] (inContext context isPredicate x) := by
  cases context <;> cases isPredicate
  · exact hx
  · exact h.enclosed _ _ hx
  · exact h.enclosed _ _ hx
  · exact hx

theorem constant (t : ValueType) (v : Value) : R [] (Emission.constant t v) :=
  h.after fun l _ => h.literal l

theorem column (scope' : Scope) (c : ColumnRef) : R [] (scope'.column c) := by
  unfold Scope.column
  cases scope'.aliases with
  | none => exact h.name _
  | some aliases =>
    dsimp only
    cases aliases.get? c.model with
    | none => exact h.fail _ _
    | some source => exact h.follow (h.follow (h.name _) (h.word _)) (h.name _)

theorem param (scope' : Scope) (p : Param) : R [] (scope'.param p) := by
  unfold Scope.param
  cases scope'.inlined with
  | none => exact h.placeholder p
  | some bindings => exact h.constant _ _

theorem callOf (function : String) {args : List Emission} (hargs : ∀ x ∈ args, R [] x) :
    R [] (callOf function args) :=
  h.follow (h.follow (h.follow (h.word function) (h.word "(")) (h.separated ", " hargs)) (h.word ")")

theorem infixed (token : String) (hx : R [] x) (hy : R [] y) : R [] (infixed token x y) := by
  have hleft := h.follow (h.follow (h.follow (h.follow (h.word "(") hx) (h.word " ")) (h.word token))
    (h.word " ")
  exact h.follow (h.follow hleft hy) (h.word ")")

theorem caseOf (branchCount : Nat) (hx : R [] x) (hy : R [] y) (hz : R [] z) :
    R [] (caseOf x y z branchCount) := by
  unfold Tsql.caseOf
  split
  · exact h.fail _ _
  · have hbody := h.follow (h.follow (h.word "CASE") hx) (h.deeper (h.follow hy hz))
    have hlines := h.followLine hbody (w := "END") (by decide)
    simp only [append_assoc] at hlines ⊢
    exact hlines

theorem branchOf (hx : R [] x) (hy : R [] y) : R [] (branchOf x y) :=
  h.follow (h.follow (h.clause (by decide) hx) (h.word " THEN ")) hy

theorem xmlValueCall (key : String) (path : Expr) (result : ValueType) (hx : R [] x) :
    R [] (xmlValueCall key x path result) := by
  unfold Tsql.xmlValueCall
  split
  · exact h.fail _ _
  · refine h.after fun type _ => ?_
    exact h.follow (h.follow (h.follow (h.follow (h.follow hx (h.word _)) (h.literal _)) (h.word _))
      (h.literal _)) (h.word _)

theorem function (scope' : Scope) (key : String) (args : List Expr) {texts : List Emission}
    (result : ValueType) (htexts : ∀ x ∈ texts, R [] x) :
    R [] (scope'.function key args texts result) := by
  unfold Scope.function
  cases Builtin.ofName? key with
  | none => exact h.fail _ _
  | some b =>
    dsimp only
    split
    · exact h.enclosed _ _ (htexts _ (by simp))
    · exact h.enclosed _ _ (htexts _ (by simp))
    · exact h.follow (h.follow (h.enclosed _ _ (htexts _ (by simp))) (htexts _ (by simp))) (h.word _)
    · split
      · exact h.callOf _ htexts
      · exact h.fail _ _
    · exact h.word _
    · exact h.word _
    · exact h.word _
    · exact h.word _
    · exact h.callOf _ htexts
    · exact h.callOf _ htexts
    · exact h.callOf _ htexts
    · exact h.callOf _ htexts
    · exact h.callOf _ htexts
    · exact h.follow (h.follow (h.callOf _ htexts) (h.word _)) (h.word _)
    · exact h.follow (h.follow (h.callOf _ htexts) (h.word _)) (h.word _)
    · exact h.follow (h.follow (h.enclosed _ _ (htexts _ (by simp))) (htexts _ (by simp))) (h.word _)
    · exact h.xmlValueCall key _ result (htexts _ (by simp))
    · split
      · exact h.callOf _ htexts
      · exact h.enclosed _ _ (htexts _ (by simp))
    · unfold stringAggCall
      split
      · exact h.callOf _ htexts
      · exact h.fail _ _
    · exact h.fail _ _

mutual

theorem node (scope' : Scope) (x : Expr) : R [] (x.node scope') := by
  match x with
  | .binary kind l r =>
    exact h.infixed _ (h.inContext _ _ (node scope' l)) (h.inContext _ _ (node scope' r))
  | .unary .negate x => exact h.enclosed _ _ (h.inContext _ _ (node scope' x))
  | .unary .not x => exact h.enclosed _ _ (h.inContext _ _ (node scope' x))
  | .unary .onesComplement x => exact h.enclosed _ _ (h.inContext _ _ (node scope' x))
  | .case on whens otherwise =>
    exact h.caseOf _ (onOperand scope' on) (branches scope' _ whens) (otherwiseBranch scope' otherwise)
  | .cast x target =>
    exact h.after fun type _ =>
      h.follow (h.follow (h.enclosed _ _ (h.inContext _ _ (node scope' x))) (h.word _)) (h.word _)
  | .column c => exact h.column scope' c
  | .constant v t => exact h.constant t v
  | .param p => exact h.param scope' p
  | .call key args result => exact h.function scope' key args result (operands scope' args)

theorem onOperand (scope' : Scope) (on : Option Expr) : R [] (onText scope' on) := by
  match on with
  | none => exact h.nothing
  | some x => exact h.follow (h.word _) (h.inContext _ _ (node scope' x))

theorem branches (scope' : Scope) (context : Context) (whens : List (Expr × Expr)) :
    R [] (whensText scope' context whens) := by
  match whens with
  | [] => exact h.nothing
  | (x, y) :: rest =>
    exact h.follow (h.branchOf (h.inContext _ _ (node scope' x)) (h.inContext _ _ (node scope' y)))
      (branches scope' context rest)

theorem otherwiseBranch (scope' : Scope) (otherwise : Option Expr) : R [] (elseText scope' otherwise) := by
  match otherwise with
  | none => exact h.nothing
  | some x => exact h.clause (by decide) (h.inContext _ _ (node scope' x))

theorem operands (scope' : Scope) (args : List Expr) : ∀ x ∈ argTexts scope' args, R [] x := by
  match args with
  | [] => exact nofun
  | y :: rest =>
    exact List.forall_mem_cons.2 ⟨h.inContext _ _ (node scope' y), operands scope' rest⟩

end

theorem value (scope' : Scope) (x : Expr) : R [] (x.value scope') := h.inContext _ _ (h.node scope' x)

theorem predicate (scope' : Scope) (x : Expr) : R [] (x.predicate scope') :=
  h.inContext _ _ (h.node scope' x)

/-! ### Tables -/

theorem tableName (t : Target) (m : Model) : R [] (t.tableName m) := by
  unfold Target.tableName
  cases m.source with
  | table =>
    unfold qualified
    cases m.schema with
    | none => exact h.name _
    | some schema => exact h.follow (h.follow (h.name _) (h.word _)) (h.name _)
  | tempTable => exact h.after fun temp _ => h.name temp
  | jsonRowset p => exact h.fail _ _
  | derived => exact h.fail _ _

/-- The name of a type may be any word, but it does not begin a line. -/
theorem rowsetColumns (t : Target) (columns : List Column) : R [] (t.rowsetColumns columns) :=
  h.listed fun _ _ => h.after fun _ _ => h.follow (h.follow (h.name _) (h.word _)) (h.word _)

theorem tableSource (t : Target) (aliases : AliasMap) (m : Model) : R [] (t.tableSource aliases m) := by
  refine h.after fun sourceName _ => ?_
  cases m.source with
  | table => exact h.follow (h.follow (h.tableName t m) (h.word _)) (h.name _)
  | tempTable => exact h.follow (h.follow (h.tableName t m) (h.word _)) (h.name _)
  | jsonRowset p =>
    exact h.follow (h.follow (h.follow (h.enclosed _ _ (h.placeholder p)) (h.rowsetColumns t m.columns))
      (h.word _)) (h.name _)
  | derived => exact h.fail _ _

theorem columnsUnder (sourceName : String) (columns : List Field) :
    R [] (columnsUnder sourceName columns) := by
  unfold Tsql.columnsUnder
  split
  · exact h.follow (h.name _) (h.word _)
  · exact h.listed fun f _ => h.follow (h.follow (h.name _) (h.word _)) (h.name _)

theorem tableSelect (t : Target) (aliases : AliasMap) (m : Model) (columns : List Field) :
    R [] (t.tableSelect aliases m columns) := by
  refine h.after fun sourceName _ => ?_
  have hcolumns := h.follow (h.word "SELECT ") (h.columnsUnder sourceName columns)
  exact h.follow (h.followLine hcolumns (by decide)) (h.tableSource t aliases m)

/-! ### Parts of queries -/

theorem condition {keyword : String} (hk : keyword ≠ "" ∧ keyword ≠ "OFFSET ") (scope' : Scope)
    (x : Option Expr) : R [] (scope'.condition keyword x) := by
  cases x with
  | none => exact h.nothing
  | some x => exact h.clause hk (h.predicate scope' x)

theorem projections (scope' : Scope) (columns : List Projection) :
    R [] (scope'.projections columns) := by
  unfold Scope.projections
  split
  · exact h.word _
  · refine h.listed fun p _ => h.follow (h.value scope' p.source) ?_
    split
    · exact h.nothing
    · exact h.follow (h.word _) (h.name _)

theorem assignment (scope' : Scope) (p : Projection) : R [] (scope'.assignment p) :=
  h.follow (h.follow (h.name _) (h.word _)) (h.value scope' p.source)

theorem grouping (scope' : Scope) (groupBy : List Expr) : R [] (scope'.grouping groupBy) := by
  unfold Scope.grouping
  split
  · exact h.nothing
  · exact h.clause (by decide) (h.listed fun x _ => h.value scope' x)

theorem orderClause (s : Select) : R [] (scope.orderClause s) := by
  unfold Scope.orderClause
  split
  · exact h.clause (by decide) h.nothing
  · refine h.clause (by decide) (h.listed fun o _ => h.follow (h.value scope o.expr) ?_)
    cases o.direction with
    | ascending => exact h.word _
    | descending => exact h.word _
    | unspecified => exact h.nothing

theorem sourceClause (hx : R ss x) : R ss (sourceClause (some x)) := h.clause (by decide) hx

/-- A select is the last limited one of its own text: its source stands before its order. -/
theorem select (outermost : Bool) (s : Select) {source : Option Emission}
    (hsource : R ss (Tsql.sourceClause source)) :
    R (ss ++ s.limited) (scope.select outermost s source) := by
  have hdistinct : R [] (if s.distinct then Emission.word "DISTINCT " else Emission.nothing) := by
    split
    · exact h.word _
    · exact h.nothing
  have hcolumns := h.follow (h.follow (h.word "SELECT ") hdistinct) (h.projections scope s.columns)
  refine h.append (h.follow (h.follow (h.follow (h.append hcolumns hsource)
    (h.condition (by decide) scope s.filter)) (h.grouping scope s.groupBy))
    (h.condition (by decide) scope s.having)) ?_
  split
  · exact h.orderAndLimit s (h.orderClause s)
  · next hidle =>
    have hlimited : s.limited = [] := by
      unfold Select.limited
      rw [if_neg (by simp_all)]
    rw [hlimited]
    exact h.nothing

theorem selectAlone (outermost : Bool) (s : Select) : R s.limited (scope.select outermost s none) :=
  h.select outermost s (show R [] (Tsql.sourceClause none) from h.nothing)

theorem nested (hx : R ss x) (hopens : x.Opens) : R ss (nested x) := by
  have hbody : R ss _ := h.append (h.word "(") (h.deeper (h.onLine hx hopens))
  have hlines := h.followLine hbody (w := ")") (by decide)
  simp only [append_assoc] at hlines
  simpa only [Tsql.nested, append_assoc] using hlines

theorem unionOf (kind : UnionKind) (hx : R ss x) (hxo : x.Opens) (hy : R ss' y) (hyo : y.Opens) :
    R (ss ++ ss') (unionOf kind x y) :=
  h.appendLine (h.followLine (h.nested hx hxo) kind.sql_opens) (h.nested hy hyo) .nested

theorem aliased (aliases : AliasMap) (output : Model) (hx : R ss x) (hopens : x.Opens) :
    R ss (aliased aliases output x) :=
  h.after fun _ _ => h.follow (h.follow (h.nested hx hopens) (h.word _)) (h.name _)

theorem joinClause (scope' : Scope) (c : JoinCondition) : R [] (scope'.joinClause c) := by
  unfold Scope.joinClause
  split
  · refine h.follow (h.word _) (h.separated _ fun x hx => ?_)
    rcases List.mem_append.1 hx with hx | hx
    · obtain ⟨pair, -, rfl⟩ := List.mem_map.1 hx
      exact h.follow (h.follow (h.column scope' pair.1) (h.word _)) (h.column scope' pair.2)
    · obtain ⟨extra, -, rfl⟩ := Option.map_eq_some_iff.1 (Option.mem_toList.1 hx)
      exact h.predicate scope' extra
  · exact h.nothing

theorem join (scope' : Scope) (kind : JoinKind) (c : JoinCondition) (rightIsJoin : Bool) (hx : R ss x)
    (hy : R ss' y) : R (ss ++ ss') (scope'.join kind c x y rightIsJoin) := by
  unfold Scope.join
  split
  · exact h.fail _ _
  refine h.follow (h.append (h.follow (h.followLine hx kind.sql_opens) (h.word _)) ?_)
    (h.joinClause scope' c)
  split
  · exact h.enclosed _ _ hy
  · exact hy

omit h

/-! ### Statements -/

mutual

theorem query (h : Linewise (t.scope aliases) R) (outermost : Bool) (s : Statement) :
    R s.limited (t.query aliases outermost s) := by
  match s with
  | .table m =>
    rw [Target.query]
    exact h.tableSelect t aliases m _
  | .select body none =>
    rw [Target.query]
    exact h.selectAlone outermost body
  | .select body (some source) =>
    rw [Target.query]
    exact h.select outermost body (h.sourceClause (h.source source))
  | .union output left right kind =>
    rw [Target.query]
    exact h.unionOf kind (h.query false left) (.query left) (h.query false right) (.query right)
  | .join .. =>
    rw [Target.query]
    exact h.fail _ _

theorem source (h : Linewise (t.scope aliases) R) (s : Statement) : R s.limited (t.source aliases s) := by
  match s with
  | .table m =>
    rw [Target.source]
    exact h.tableSource t aliases m
  | .select body none =>
    rw [Target.source]
    exact h.aliased aliases body.output (h.selectAlone false body) .select
  | .select body (some inner) =>
    rw [Target.source]
    exact h.aliased aliases body.output (h.select false body (h.sourceClause (h.source inner))) .select
  | .union output left right kind =>
    rw [Target.source]
    exact h.aliased aliases output
      (h.unionOf kind (h.query false left) (.query left) (h.query false right) (.query right)) .unionOf
  | .join left right kind c =>
    rw [Target.source]
    exact h.join _ kind c right.isJoin (h.source left) (h.source right)

end

/-! ### Commands -/

theorem withAliases {c : Command} (h : Linewise (t.commandScope c) R) {asSource : Bool} {s : Statement}
    {f : AliasMap → Emission} (hroot : c.aliasRoot? = some (asSource, s))
    (hf : ∀ aliases, Linewise (t.scope aliases) R → R ss (f aliases)) :
    R ss (Emission.after (t.temps.aliases (s.sources asSource)) f) := by
  refine h.after fun aliases haliases => hf aliases ?_
  rwa [← Target.commandScope_of_aliases hroot haliases]

theorem identityOutput (h : Linewise scope R) (t : Target) (i : Insert) : R [] (t.identityOutput i) := by
  unfold Target.identityOutput
  cases i.identityOutput with
  | none => exact h.nothing
  | some mapping =>
    cases i.target.identityColumn? with
    | none => exact h.fail _ _
    | some c =>
      exact h.follow (h.follow (h.follow (h.follow (h.follow (h.clause (by decide) (h.name _)) (h.word _))
        (h.tableName t mapping)) (h.word _)) (h.name _)) (h.word _)

theorem insertBody {i : Insert} {columns : List String} {body : InsertBody}
    (h : Linewise (t.commandScope (.insert i)) R) (hshape : i.shape = .ok (columns, body)) :
    R i.source.limited (t.insertBody i body) := by
  rcases Insert.body_of_shape hshape with ⟨hcolumns, rfl⟩ | ⟨hcolumns, rfl | ⟨m, fields, rfl⟩⟩
  · refine h.withAliases (by rw [Command.aliasRoot?, hcolumns]; rfl) fun aliases h => ?_
    exact h.append (h.follow (h.word _) (h.listed fun p _ => h.value _ p.source))
      (h.clause (by decide) (h.source i.source))
  · exact h.withAliases (by rw [Command.aliasRoot?, hcolumns]; rfl) fun aliases h => h.query true i.source
  · rw [Insert.source_of_shape hshape]
    exact h.withAliases (by rw [Command.aliasRoot?, hcolumns, Insert.source_of_shape hshape]; rfl)
      fun aliases h => h.tableSelect t aliases m fields

theorem insert {i : Insert} (h : Linewise (t.commandScope (.insert i)) R) :
    R i.source.limited (t.insert i) := by
  refine h.append (h.follow (h.word _) (h.tableName t i.target)) (h.after fun (columns, body) hshape => ?_)
  have hcolumns := h.follow (h.follow (h.word " (") (h.names columns)) (h.word ")")
  exact h.appendLine (h.follow hcolumns (h.identityOutput t i)) (h.insertBody hshape) (.insertBody i body)

theorem insertRow (h : Linewise scope R) (t : Target) (i : InsertRow) : R [] (t.insertRow i) := by
  refine h.follow (h.follow (h.follow (h.follow (h.word _) (h.tableName t i.target)) ?_) (h.word _)) ?_
  · unfold Scope.rowValues
    split
    · exact h.word _
    · exact h.follow (h.follow (h.enclosed _ _ (h.names _))
        (h.clause (by decide) (h.listed fun p _ => h.value _ p.source))) (h.word _)
  · split
    · exact h.clause (by decide) h.nothing
    · exact h.nothing

theorem update {u : Update} (h : Linewise (t.commandScope (.update u)) R) :
    R (Command.update u).limited (t.update u) := by
  unfold Target.update
  split
  · exact h.fail _ _
  refine h.withAliases rfl fun aliases h => h.after fun targetName _ => ?_
  exact h.follow (h.append (h.follow (h.follow (h.word _) (h.name targetName))
    (h.clause (by decide) (h.listed fun p _ => h.assignment _ p)))
    (h.clause (by decide) (h.source _))) (h.condition (by decide) _ u.filter)

theorem delete {d : Delete} (h : Linewise (t.commandScope (.delete d)) R) :
    R (Command.delete d).limited (t.delete d) := by
  refine h.withAliases rfl fun aliases h => h.after fun targetName _ => ?_
  exact h.follow (h.append (h.follow (h.word _) (h.name targetName))
    (h.clause (by decide) (h.source _))) (h.condition (by decide) _ d.filter)

theorem command {c : Command} (h : Linewise (t.commandScope c) R) : R c.limited (t.command c) := by
  cases c with
  | query s => exact h.follow (h.withAliases rfl fun aliases h => h.query true s) (h.word _)
  | insert i => exact h.follow h.insert (h.word _)
  | insertRow i => exact h.insertRow t i
  | update u => exact h.follow h.update (h.word _)
  | delete d => exact h.follow h.delete (h.word _)

end Emission.Linewise

end Tsql
