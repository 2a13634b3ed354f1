import Tsql.Proofs.Render.QuerySpelling
import Tsql.Render.Command

/-!
# What commands spell

`Emission.Terminates` is a rendering of whole statements: it leads a survey outside of parentheses from
semicolon to semicolon. A command is one statement, or two where an insert of one row returns its
identity. `Emission.Terminates.exists_scan` turns this into what a scan of the text finds.
-/

namespace Tsql

open Text Emission

/-! ### The walk -/

/-- The identity column, the table for the new identities and its column. -/
def Target.identityOutputTrace (t : Target) (i : Insert) : Trace :=
  match i.identityOutput with
  | none => {}
  | some mapping => match i.target.identityColumn? with
    | none => {}
    | some c => .name c.name ++ t.tableTrace mapping ++ .name "NewValue"

def Target.insertBodyTrace (t : Target) (i : Insert) : InsertBody → Trace
  | .mapped => Trace.after (t.temps.sourceAliases i.source) fun aliases =>
    (t.scope aliases).traces (i.columns.map Projection.source) ++ t.sourceTrace aliases i.source
  | .query => Trace.after (t.temps.queryAliases i.source) fun aliases =>
    t.queryTrace aliases true i.source
  | .table source columns => Trace.after (t.temps.queryAliases i.source) fun aliases =>
    t.tableSelectTrace aliases source columns

def Target.insertTrace (t : Target) (i : Insert) : Trace :=
  t.tableTrace i.target ++ Trace.after i.shape fun (columns, body) =>
    Trace.join (columns.map .name) ++ t.identityOutputTrace i ++ t.insertBodyTrace i body

def Target.insertRowTrace (t : Target) (i : InsertRow) : Trace :=
  t.tableTrace i.target ++ Trace.join (i.values.map fun p => .name p.target.name)
    ++ { version := t.version : Scope }.traces (i.values.map Projection.source)

def Scope.assignmentTrace (scope : Scope) (p : Projection) : Trace :=
  .name p.target.name ++ p.source.trace scope

def Target.updateTrace (t : Target) (u : Update) : Trace :=
  let source := u.source.getD (.table u.target)
  Trace.after (t.temps.sourceAliases source) fun aliases =>
    Trace.after (aliases.require u.target) fun targetName =>
      .name targetName ++ Trace.join (u.assignments.map (t.scope aliases).assignmentTrace)
        ++ t.sourceTrace aliases source ++ (t.scope aliases).optionalTrace u.filter

def Target.deleteTrace (t : Target) (d : Delete) : Trace :=
  let source := d.source.getD (.table d.target)
  Trace.after (t.temps.sourceAliases source) fun aliases =>
    Trace.after (aliases.require d.target) fun targetName =>
      .name targetName ++ t.sourceTrace aliases source ++ (t.scope aliases).optionalTrace d.filter

/-- What the walk of a command finds. -/
def Target.commandTrace (t : Target) : Command → Trace
  | .query s => Trace.after (t.temps.queryAliases s) fun aliases => t.queryTrace aliases true s
  | .insert i => t.insertTrace i
  | .insertRow i => t.insertRowTrace i
  | .update u => t.updateTrace u
  | .delete d => t.deleteTrace d

def Command.tables : Command → List Model
  | query s => s.tables
  | insert i => i.source.tables
  | insertRow _ => []
  | update u => (u.source.getD (.table u.target)).tables
  | delete d => (d.source.getD (.table d.target)).tables

/-- The statements of a command. -/
def Command.statementCount : Command → Nat
  | insertRow i => if i.outputIdentity then 2 else 1
  | _ => 1

theorem Insert.source_of_shape {i : Insert} {columns : List String} {m : Model}
    {fields : List Field} (h : i.shape = .ok (columns, .table m fields)) : i.source = .table m := by
  unfold shape at h
  split at h
  · cases h
  · cases hs : i.source with
    | table source =>
      rw [hs] at h
      obtain ⟨fields', -, h⟩ := Result.bind_eq_ok h
      cases h
      rfl
    | select body source =>
      rw [hs] at h
      dsimp only at h
      split at h
      · cases h
      · obtain ⟨names, -, h⟩ := Result.map_eq_ok h
        cases h
    | union => rw [hs] at h; cases h
    | join => rw [hs] at h; cases h

/-! ### Whole statements -/

namespace Emission

variable {x y z : Emission} {a b : Trace} {m n : Nat}

/-- A rendering without errors consists of some statements, each with its semicolon, and adds the
trace. -/
def Terminates (x : Emission) (n : Nat) (trace : Trace) : Prop :=
  x.failure = none → ∀ params (s : Survey), s.depth = 0 →
    s.run (x.lexemes params) = some
      { depth := 0
        last := .terminator
        tokens := s.tokens ++ trace.tokens
        introduces := s.introduces || trace.introduces
        statements := s.statements + n }

namespace Terminates

theorem semicolon (hx : x.Spells .anywhere (some .loose) a) : (x ++ word ";").Terminates 1 a := by
  intro hf params s hs
  obtain ⟨hfx, -⟩ := failure_append.1 hf
  obtain ⟨last, -, hrun⟩ := hx .loose rfl hfx params s rfl
  have hmarks : marks ";" = [.mark ';'] := by decide
  rw [lexemes_append hfx, Survey.run_append, hrun, Option.bind_some, lexemes_word, hmarks]
  simp [Survey.run, Survey.step, Survey.mark, Survey.past, Edge.loose, Start.introduces, hs]

theorem wordSemicolon {s : String} (hx : (x ++ word s).Spells .anywhere (some .loose) a) :
    (x ++ word (s ++ ";")).Terminates 1 a := by
  intro hf params u hu
  obtain ⟨hfx, -⟩ := failure_append.1 hf
  have hfs : (x ++ word s).failure = none := failure_append.2 ⟨hfx, rfl⟩
  rw [← semicolon hx (failure_append.2 ⟨hfs, rfl⟩) params u hu, lexemes_append hfs,
    lexemes_append hfx, lexemes_append hfx, lexemes_word, lexemes_word, lexemes_word]
  simp [marks]

theorem append (hx : x.Terminates m a) (hy : y.Terminates n b) :
    (x ++ y).Terminates (m + n) (a ++ b) := by
  intro hf params s hs
  obtain ⟨hfx, hfy⟩ := failure_append.1 hf
  rw [lexemes_append hfx, Survey.run_append, hx hfx params s hs, Option.bind_some,
    hy hfy params _ rfl]
  simp only [Trace.tokens_append, Trace.introduces_append, List.append_assoc, Bool.or_assoc,
    Nat.add_assoc]

theorem behind (hx : x.Spells .anywhere (some .loose) a) (hy : y.Terminates n b) :
    (x ++ y).Terminates n (a ++ b) := by
  intro hf params s hs
  obtain ⟨hfx, hfy⟩ := failure_append.1 hf
  obtain ⟨last, -, hrun⟩ := hx .loose rfl hfx params s rfl
  have hdepth : (s.past .anywhere .loose last a).depth = 0 := hs
  rw [lexemes_append hfx, Survey.run_append, hrun, Option.bind_some, hy hfy params _ hdepth]
  simp only [Survey.past, Start.introduces, Trace.tokens_append, Trace.introduces_append,
    List.append_assoc, Bool.or_assoc, Bool.false_or]

theorem alone (hx : x.Terminates n a) : (x ++ nothing).Terminates n a := by
  rw [append_nothing]
  exact hx

/-- What a scan of whole statements finds: the tokens of the trace, as many statements, and two minus
signs where the trace has them. -/
theorem exists_scan {text : SqlText} (hx : x.Terminates n a) (h : x.sqlText = .ok text) :
    ∃ l, scan text.sql.toList = some l ∧ l.filterMap Lexeme.token? = a.tokens ∧ Terminated l n ∧
      (Introduces '-' '-' l ↔ a.introduces = true) ∧ ¬ Introduces '/' '*' l := by
  have hrun := hx (failure_of_sqlText h) text.params {} rfl
  obtain ⟨l, hscan, hl⟩ := Emission.exists_scan h hrun
  refine ⟨l, hscan, ?_, ?_, ?_, (Survey.not_introduces_of_run hl).2⟩
  · simpa using (Survey.tokens_of_run hl).symm
  · obtain ⟨k, hk, hterminated⟩ := Survey.terminated_of_run hl rfl rfl
    have hk : n = k := by simpa using hk
    rw [hk]
    exact hterminated
  · simpa using (Survey.introduces_of_run hl).symm

end Terminates

/-! ### Commands -/

namespace Spells

variable {t : Target}

theorem identityOutput (i : Insert) :
    (t.identityOutput i).Spells .anywhere (some .loose) (t.identityOutputTrace i) := by
  unfold Target.identityOutput Target.identityOutputTrace
  cases i.identityOutput with
  | none => exact nothing
  | some mapping =>
    dsimp only
    cases i.target.identityColumn? with
    | none => exact fail _
    | some c =>
      have hcolumn : (Tsql.clause "OUTPUT INSERTED." (Emission.name c.name)).Spells .anywhere
          (some .loose) (.name c.name) := clauseOf (by decide) (name c.name).loosen
      exact (((((hcolumn.word " INTO ").clause (tableName t mapping)).word " (").clause
        (name "NewValue")).word ")").closed (by decide)

theorem sources (scope : Scope) (columns : List Projection) :
    (Emission.listed (columns.map fun p => p.source.value scope)).Spells .harmless (some .loose)
      (scope.traces (columns.map Projection.source)) := by
  rw [Scope.traces, List.map_map]
  exact listed fun p _ => (p.source.value_spells scope).harmless

theorem insertBody {i : Insert} (h : t.HasPlainRowsets i.source.tables) {columns : List String}
    {body : InsertBody} (hshape : i.shape = .ok (columns, body)) :
    (t.insertBody i body).Spells .anywhere (some .loose) (t.insertBodyTrace i body) := by
  cases body with
  | mapped =>
    refine resolved fun aliases _ => ?_
    exact (((ofWord "SELECT ").value (sources _ i.columns)).clause
      (clauseOf (by decide) (Target.source_spells aliases h))).closed (by decide)
  | query => exact resolved fun aliases _ => Target.query_spells aliases true h
  | table source columns =>
    have hm : source ∈ i.source.tables := by
      rw [Insert.source_of_shape hshape]
      exact List.mem_singleton.2 rfl
    exact resolved fun aliases _ => tableSelect aliases (h source hm) columns

theorem insert {i : Insert} (h : t.HasPlainRowsets i.source.tables) :
    (t.insert i).Spells .anywhere (some .loose) (t.insertTrace i) := by
  have hrows : (Emission.after i.shape fun (columns, body) =>
      Emission.word " (" ++ Emission.names columns ++ Emission.word ")" ++ t.identityOutput i
        ++ Emission.line ++ t.insertBody i body).Spells .anywhere (some .loose)
      (Trace.after i.shape fun (columns, body) =>
        Trace.join (columns.map .name) ++ t.identityOutputTrace i ++ t.insertBodyTrace i body) :=
    resolved fun shape hshape =>
      ((((((ofWord " (").value (names shape.1)).word ")").clause (identityOutput i)).silent
        line).clause (insertBody h hshape)).closed (by decide)
  exact (((ofWord "INSERT INTO ").clause (tableName t i.target)).clause hrows).closed
    (by decide)

theorem rowValues (scope : Scope) (vs : List Projection) :
    (scope.rowValues vs).Spells .anywhere (some .loose)
      (Trace.join (vs.map fun p => .name p.target.name)
        ++ scope.traces (vs.map Projection.source)) := by
  unfold Scope.rowValues
  split
  · next hnil =>
    rw [List.isEmpty_iff.1 hnil]
    exact (ofWord " DEFAULT VALUES").closed (by decide)
  · have hnames := names (vs.map fun p => p.target.name)
    rw [List.map_map] at hnames
    have hvalues : (Tsql.clause "VALUES ("
        (Emission.listed (vs.map fun p => p.source.value scope))).Spells .anywhere
        (some { depth := 1 }) (scope.traces (vs.map Projection.source)) :=
      ((line.word "VALUES (").value (sources scope vs)).at_edge (by decide)
    exact (((((ofWord " (").value hnames).word ")").clause hvalues).word ")").closed
      (by decide)

theorem assignment (scope : Scope) (p : Projection) :
    (scope.assignment p).Spells .harmless (some .loose) (scope.assignmentTrace p) :=
  (((name p.target.name).word " = ").value (p.source.value_spells scope)).closed
    (by decide) |>.harmless

theorem update {u : Update}
    (h : t.HasPlainRowsets (u.source.getD (.table u.target)).tables) :
    (t.update u).Spells .anywhere (some .loose) (t.updateTrace u) := by
  unfold Target.update
  split
  · exact fail _
  refine resolved fun aliases _ => resolved fun targetName _ => ?_
  exact (((((ofWord "UPDATE ").clause (name targetName)).clause
    (clauseOf (by decide) (listed fun p _ => assignment _ p))).clause
    (clauseOf (by decide) (Target.source_spells aliases h))).clause
    (condition _ (by decide) u.filter)).closed (by decide)

theorem delete {d : Delete}
    (h : t.HasPlainRowsets (d.source.getD (.table d.target)).tables) :
    (t.delete d).Spells .anywhere (some .loose) (t.deleteTrace d) := by
  refine resolved fun aliases _ => resolved fun targetName _ => ?_
  exact ((((ofWord "DELETE ").clause (name targetName)).clause
    (clauseOf (by decide) (Target.source_spells aliases h))).clause
    (condition _ (by decide) d.filter)).closed (by decide)

end Spells

theorem Terminates.insertRow {t : Target} (i : InsertRow) :
    (t.insertRow i).Terminates (if i.outputIdentity then 2 else 1) (t.insertRowTrace i) := by
  have hrow : (word "INSERT INTO " ++ t.tableName i.target
      ++ { version := t.version : Scope }.rowValues i.values).Spells .anywhere (some .loose)
      (t.insertRowTrace i) := by
    have h := ((Spells.ofWord "INSERT INTO ").clause (Spells.tableName t i.target)).clause
      (Spells.rowValues { version := t.version } i.values)
    rw [← Trace.append_assoc] at h
    exact h.closed (by decide)
  have hidentity : (clause "SELECT CAST(SCOPE_IDENTITY() AS BIGINT);" nothing).Terminates 1 {} :=
    alone (wordSemicolon ((Spells.line.word "SELECT CAST(SCOPE_IDENTITY() AS BIGINT)").closed
      (by decide)))
  unfold Target.insertRow
  split
  · have h := append (semicolon hrow) hidentity
    rw [Trace.append_empty] at h
    exact h
  · exact alone (semicolon hrow)

theorem Terminates.command {t : Target} {c : Command} (h : t.HasPlainRowsets c.tables) :
    (t.command c).Terminates c.statementCount (t.commandTrace c) := by
  cases c with
  | query s => exact semicolon (Spells.resolved fun aliases _ => Target.query_spells aliases true h)
  | insert i => exact semicolon (Spells.insert h)
  | insertRow i => exact insertRow i
  | update u => exact semicolon (Spells.update h)
  | delete d => exact semicolon (Spells.delete h)

end Emission

end Tsql
