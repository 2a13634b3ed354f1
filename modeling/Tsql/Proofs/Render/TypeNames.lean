import Tsql.Proofs.Render.Derivation
import Tsql.Proofs.Render.Layout
import Tsql.Proofs.Render.QuerySpelling

/-!
# Names of types

The name of a user-defined type is written as it is. Where it closes the tokens and parentheses that it
opens, and has neither a comment nor the end of a statement, a rendering with it is written as one in which
the tokens of the name stand as tokens, and that one spells what its walk finds.
-/

namespace Tsql

open Text Emission

/-! ### Texts that stand by themselves -/

namespace Text

namespace Survey

variable {s u v : Survey} {x : Lexeme} {l : List Lexeme}

def onto (s u : Survey) : Survey :=
  { depth := s.depth + u.depth
    last := u.last
    tokens := s.tokens ++ u.tokens
    introduces := s.introduces || u.introduces
    statements := s.statements + u.statements }

theorem onto_start (hs : s.last = .other) : s.onto {} = s := by
  obtain ⟨depth, last, tokens, introduces, statements⟩ := s
  obtain rfl := hs
  simp [onto]

theorem statements_of_step (h : u.step x = some v) : u.statements ≤ v.statements := by
  cases x with
  | token t =>
    have hstatements := congrArg statements (of_token h).1
    exact Nat.le_of_eq hstatements.symm
  | mark c =>
    rcases of_mark h with ⟨-, rfl⟩ | ⟨-, n, -, rfl⟩ | ⟨-, -, rfl⟩ | ⟨-, rfl⟩ | ⟨-, -, rfl⟩ | ⟨-, rfl⟩ |
      ⟨-, -, rfl⟩ <;> simp

theorem statements_of_run (h : u.run l = some v) : u.statements ≤ v.statements := by
  induction l generalizing u with
  | nil =>
    cases h
    exact Nat.le_refl _
  | cons x rest ih =>
    obtain ⟨w, hw, h⟩ := run_cons h
    exact Nat.le_trans (statements_of_step hw) (ih h)

/-- Where no statement ends, what was met before has no part in how a survey goes on. -/
theorem step_onto (h : u.step x = some v) (hv : v.statements = 0) (s : Survey) :
    (s.onto u).step x = some (s.onto v) := by
  cases x with
  | token t =>
    obtain ⟨q, text⟩ := t
    cases q with
    | bracket =>
      cases h
      simp [step, onto]
    | apostrophe =>
      rw [step] at h
      split_ifs at h with hlast
      cases h
      simp [step, onto, hlast]
  | mark c =>
    rcases of_mark h with ⟨rfl, rfl⟩ | ⟨rfl, n, hn, rfl⟩ | ⟨rfl, -, rfl⟩ | ⟨rfl, rfl⟩ |
      ⟨rfl, hslash, rfl⟩ | ⟨rfl, rfl⟩ | ⟨hc, hordinary, rfl⟩
    · simp [step, mark, onto, Nat.add_assoc]
    · simp [step, mark, onto, hn, ← Nat.add_assoc]
    · simp at hv
    · simp [step, mark, onto, Bool.or_assoc]
    · simp [step, mark, onto, hslash]
    · simp [step, mark, onto]
    · simp only [List.mem_cons, not_or] at hc
      obtain ⟨h1, h2, h3, h4, h5, h6, -⟩ := hc
      simp [step, mark, onto, h1, h2, h3, h4, h5, h6, hordinary]

theorem run_onto (h : u.run l = some v) (hv : v.statements = 0) (s : Survey) :
    (s.onto u).run l = some (s.onto v) := by
  induction l generalizing u with
  | nil =>
    cases h
    rfl
  | cons x rest ih =>
    obtain ⟨w, hw, h⟩ := run_cons h
    have hstatements : w.statements = 0 := Nat.le_zero.1 (hv ▸ statements_of_run h)
    rw [run, step_onto hw hstatements, Option.bind_some]
    exact ih h

end Survey

/-- The text closes the tokens and parentheses that it opens, and there is neither the end of a statement
nor a comment in it. -/
def isSelfContained (s : String) : Bool :=
  match (scan s.toList).bind (Survey.run {}) with
  | some t => t.depth == 0 && t.statements == 0 && !t.introduces
  | none => false

theorem isSelfContained_iff {s : String} : isSelfContained s = true ↔
    ∃ l t, scan s.toList = some l ∧ Survey.run {} l = some t ∧ t.depth = 0 ∧ t.statements = 0 ∧
      t.introduces = false := by
  unfold isSelfContained
  cases scan s.toList with
  | none => simp
  | some l => cases hrun : Survey.run {} l <;> simp [hrun, and_assoc]

end Text

/-! ### Renderings with the same text -/

def Text.Lexeme.piece : Lexeme → Piece
  | mark c => .word (String.singleton c)
  | token ⟨.bracket, s⟩ => .name s
  | token ⟨.apostrophe, s⟩ => .literal (.string false s)

theorem Text.Lexeme.lexemes_piece (x : Lexeme) (params : List Param) :
    x.piece.lexemes params = [x] := by
  cases x with
  | mark c => simp [piece, Piece.lexemes, marks]
  | token t => obtain ⟨_ | _, s⟩ := t <;> rfl

theorem Text.Lexeme.write_piece (x : Lexeme) (params : List Param) (w : Writer) :
    x.piece.write params w = w.write (String.ofList x.chars) := by
  have htext : x.piece.isText = true := by
    cases x with
    | mark c => rfl
    | token t => obtain ⟨_ | _, s⟩ := t <;> rfl
  rw [Piece.write_of_isText htext, lexemes_piece, charsOf_singleton]

namespace Emission

def ofLexemes (l : List Lexeme) : Emission := ⟨l.map Lexeme.piece, none⟩

/-- Two renderings with the same text wherever they stand. -/
structure WritesAs (x y : Emission) : Prop where
  failure_eq : x.failure = y.failure
  write_eq : ∀ params w, writePieces params w x.pieces = writePieces params w y.pieces

namespace WritesAs

variable {x x' y y' : Emission}

theorem refl (x : Emission) : x.WritesAs x := ⟨rfl, fun _ _ => rfl⟩

theorem append (hx : x.WritesAs y) (hx' : x'.WritesAs y') : (x ++ x').WritesAs (y ++ y') := by
  cases hf : y.failure with
  | some e =>
    have happend {a b : Emission} (ha : a.failure = some e) : a ++ b = a := by
      show Emission.append a b = a
      simp [Emission.append, ha]
    rw [happend hf, happend (hx.failure_eq.trans hf)]
    exact hx
  | none =>
    have hfx := hx.failure_eq.trans hf
    refine ⟨?_, fun params w => ?_⟩
    · show (Emission.append x x').failure = (Emission.append y y').failure
      simp [Emission.append, hf, hfx, hx'.failure_eq]
    · rw [pieces_append hfx, pieces_append hf, writePieces_append, writePieces_append, hx.write_eq,
        hx'.write_eq]

theorem after {α : Type} {r : Result α} {f g : α → Emission} (h : ∀ a, r = .ok a → (f a).WritesAs (g a)) :
    (Emission.after r f).WritesAs (Emission.after r g) := by
  cases r with
  | error e => exact refl _
  | ok a => exact h a rfl

theorem nested (h : x.WritesAs y) : (Tsql.nested x).WritesAs (Tsql.nested y) :=
  ((((refl _).append h).append (refl _)).append (refl _)).append (refl _)

theorem aliased (aliases : AliasMap) (output : Model) (h : x.WritesAs y) :
    (Tsql.aliased aliases output x).WritesAs (Tsql.aliased aliases output y) :=
  after fun _ _ => (h.nested.append (refl _)).append (refl _)

theorem join (scope : Scope) (kind : JoinKind) (c : JoinCondition) (rightIsJoin : Bool)
    (hx : x.WritesAs y) (hx' : x'.WritesAs y') :
    (scope.join kind c x x' rightIsJoin).WritesAs (scope.join kind c y y' rightIsJoin) := by
  have hright : (if rightIsJoin then word "(" ++ x' ++ word ")" else x').WritesAs
      (if rightIsJoin then word "(" ++ y' ++ word ")" else y') := by
    split
    · exact ((refl _).append hx').append (refl _)
    · exact hx'
  unfold Scope.join
  split
  · exact refl _
  · exact (((((hx.append (refl _)).append (refl _)).append (refl _)).append hright).append (refl _))

theorem ofLexemes (l : List Lexeme) :
    (word (String.ofList (charsOf l))).WritesAs (Emission.ofLexemes l) := by
  refine ⟨rfl, fun params w => ?_⟩
  show w.write _ = writePieces params w (l.map Lexeme.piece)
  induction l generalizing w with
  | nil => simp [charsOf, Writer.write, writePieces]
  | cons x rest ih =>
    show _ = writePieces params (x.piece.write params w) (rest.map Lexeme.piece)
    rw [← ih, x.write_piece, Writer.write_write]
    simp [charsOf]

end WritesAs

theorem lexemes_ofLexemes (l : List Lexeme) (params : List Param) : (ofLexemes l).lexemes params = l := by
  induction l with
  | nil => rfl
  | cons x rest ih =>
    show x.piece.lexemes params ++ (ofLexemes rest).lexemes params = _
    rw [x.lexemes_piece, ih]
    rfl

theorem Spells.ofLexemes {l : List Lexeme} {t : Survey} (h : Survey.run {} l = some t)
    (hdepth : t.depth = 0) (hstatements : t.statements = 0) (hintro : t.introduces = false) :
    (Emission.ofLexemes l).Spells .harmless (some .loose) { tokens := t.tokens } := by
  intro e he _ params s hs
  obtain rfl := Option.some.inj he
  -- Behind a lexeme that begins nothing, the survey goes on as it does from the beginning.
  have hlast : s.last = .other := Start.eq_other_of_allows hs
  refine ⟨t.last, Edge.fits_loose _, ?_⟩
  have hrun := Survey.run_onto h hstatements s
  rw [Survey.onto_start hlast] at hrun
  rw [lexemes_ofLexemes, hrun]
  simp [Survey.onto, Survey.past, Start.introduces, Edge.loose, hdepth, hstatements, hintro]

/-- A rendering is written as one whose survey begins a comment or does not. -/
def Respelled (x : Emission) (start : Start) (introduces : Bool) : Prop :=
  ∃ y t, x.WritesAs y ∧ y.Spells start (some .loose) t ∧ t.introduces = introduces

namespace Respelled

variable {x y : Emission} {a b : Bool} {t : Trace}

theorem of_spells {start : Start} (h : x.Spells start (some .loose) t) : x.Respelled start t.introduces :=
  ⟨x, t, .refl x, h, rfl⟩

/-- The name of a type behind something harmless. -/
theorem sqlType {type : SqlType} (h : ∀ n, type = .udt n → isSelfContained n = true) :
    (word type.sql).Respelled .harmless false := by
  by_cases hudt : ∃ n, type = .udt n
  · obtain ⟨n, rfl⟩ := hudt
    obtain ⟨l, t, hscan, hrun, hdepth, hstatements, hintro⟩ := isSelfContained_iff.1 (h n rfl)
    have hname : word (SqlType.udt n).sql = word (String.ofList (charsOf l)) := by
      rw [charsOf_of_scan hscan, String.ofList_toList]
      rfl
    rw [hname]
    exact ⟨_, _, .ofLexemes l, .ofLexemes hrun hdepth hstatements hintro, rfl⟩
  · have hplain : ∀ n, type ≠ .udt n := fun n hn => hudt ⟨n, hn⟩
    exact of_spells ((Spells.sqlType hplain).closed (by decide)).harmless

theorem after {α : Type} {r : Result α} {f : α → Emission} {start : Start}
    (h : ∀ v, r = .ok v → (f v).Respelled start a) (herror : ∀ e, r = .error e → a = false) :
    (Emission.after r f).Respelled start a := by
  cases r with
  | ok v => exact h v rfl
  | error e =>
    rw [herror e rfl]
    exact of_spells (t := {}) (Spells.fail e)

theorem listed {α : Type} {items : List α} {f : α → Emission}
    (h : ∀ i ∈ items, (f i).Respelled .harmless false) :
    (Emission.listed (items.map f)).Respelled .harmless false := by
  induction items with
  | nil => exact of_spells Spells.nothing.harmless
  | cons i rest ih =>
    cases rest with
    | nil => exact h i (by simp)
    | cons j rest =>
      obtain ⟨y, t, hwrites, hspells, hintro⟩ := h i (by simp)
      obtain ⟨y', t', hwrites', hspells', hintro'⟩ := ih fun k hk => h k (List.mem_cons_of_mem _ hk)
      refine ⟨y ++ word ", " ++ y', t ++ t', (hwrites.append (.refl _)).append hwrites',
        ((hspells.word ", ").value hspells').at_edge (by decide), ?_⟩
      simp [hintro, hintro']

theorem sourceless (scope : Scope) (outermost : Bool) (s : Select) :
    (scope.select outermost s none).Respelled .anywhere (scope.selectTrace outermost s {}).introduces := by
  have hselect : (scope.select outermost s none).Spells .anywhere (some .loose)
      (scope.selectTrace outermost s {}) := Spells.select _ outermost s Spells.nothing
  exact .of_spells hselect

theorem select (scope : Scope) (outermost : Bool) (s : Select) (h : x.Respelled .anywhere a) :
    (scope.select outermost s (some x)).Respelled .anywhere
      (scope.selectTrace outermost s { introduces := a }).introduces := by
  obtain ⟨y, t, hwrites, hspells, rfl⟩ := h
  refine ⟨scope.select outermost s (some y), scope.selectTrace outermost s t, ?_,
    Spells.select _ outermost s (Spells.clauseOf (by decide) hspells), by simp [Scope.selectTrace]⟩
  exact (((((WritesAs.refl _).append ((WritesAs.refl _).append hwrites)).append (.refl _)).append
    (.refl _)).append (.refl _)).append (.refl _)

theorem unionOf (kind : UnionKind) (hx : x.Respelled .anywhere a) (hy : y.Respelled .anywhere b) :
    (Tsql.unionOf kind x y).Respelled .anywhere (a || b) := by
  obtain ⟨x', t, hx, hspells, rfl⟩ := hx
  obtain ⟨y', t', hy, hspells', rfl⟩ := hy
  exact ⟨_, _, (((hx.nested.append (.refl _)).append (.refl _)).append (.refl _)).append hy.nested,
    Spells.unionOf kind hspells hspells', rfl⟩

theorem aliased (aliases : AliasMap) (output : Model) (h : x.Respelled .anywhere a) :
    (Tsql.aliased aliases output x).Respelled .anywhere
      (aliasedTrace aliases output { introduces := a }).introduces := by
  obtain ⟨y, t, hwrites, hspells, rfl⟩ := h
  refine ⟨_, aliasedTrace aliases output t, hwrites.aliased aliases output,
    Spells.aliased aliases output hspells, ?_⟩
  unfold aliasedTrace
  cases aliases.require output <;> simp [Trace.after]

theorem join (scope : Scope) (kind : JoinKind) (c : JoinCondition) (rightIsJoin : Bool)
    (hx : x.Respelled .anywhere a) (hy : y.Respelled .anywhere b) :
    (scope.join kind c x y rightIsJoin).Respelled .anywhere
      (a || b || (scope.joinTrace c).introduces) := by
  obtain ⟨x', t, hx, hspells, rfl⟩ := hx
  obtain ⟨y', t', hy, hspells', rfl⟩ := hy
  exact ⟨_, _, hx.join scope kind c rightIsJoin hy,
    Spells.join scope kind c rightIsJoin hspells hspells', rfl⟩

end Respelled

end Emission

/-! ### Queries -/

/-- User-defined types have names that stand by themselves. -/
def Target.HasClosedTypeNames (t : Target) (columns : List Column) : Prop :=
  ∀ c ∈ columns, ∀ n, t.types.resolve c.toField = .ok (.udt n) → isSelfContained n = true

/-- The types of the rowsets among some tables have names that stand by themselves. -/
def Target.HasClosedRowsets (t : Target) (tables : List Model) : Prop :=
  ∀ m ∈ tables, ∀ p, m.source = .jsonRowset p → t.HasClosedTypeNames m.columns

namespace Target

variable {t : Target} {aliases : AliasMap}

theorem HasClosedRowsets.of_append {tables tables' : List Model}
    (h : t.HasClosedRowsets (tables ++ tables')) :
    t.HasClosedRowsets tables ∧ t.HasClosedRowsets tables' :=
  ⟨fun m hm => h m (List.mem_append_left _ hm), fun m hm => h m (List.mem_append_right _ hm)⟩

theorem rowsetColumns_respelled {columns : List Column} (h : t.HasClosedTypeNames columns) :
    (t.rowsetColumns columns).Respelled .harmless false := by
  refine Respelled.listed fun c hc => .after (fun type htype => ?_) fun _ _ => rfl
  obtain ⟨y, trace, hwrites, hspells, hintro⟩ :=
    Respelled.sqlType fun n hn => h c hc n (hn ▸ htype)
  exact ⟨name c.name ++ word " " ++ y, .name c.name ++ trace, (WritesAs.refl _).append hwrites,
    (((Spells.name c.name).word " ").value hspells).at_edge (by decide) |>.harmless,
    by simp [Trace.name, hintro]⟩

theorem introduces_join {α : Type} {items : List α} {f : α → Trace}
    (h : ∀ a, (f a).introduces = false) : (Trace.join (items.map f)).introduces = false := by
  induction items with
  | nil => rfl
  | cons a rest ih => simpa [Trace.join, h] using ih

theorem introduces_after {α : Type} {r : Result α} {f : α → Trace}
    (h : ∀ a, (f a).introduces = false) : (Trace.after r f).introduces = false := by
  cases r with
  | error e => rfl
  | ok a => exact h a

theorem introduces_tableTrace (m : Model) : (t.tableTrace m).introduces = false := by
  unfold tableTrace
  cases m.source with
  | table =>
    have hschema : (Trace.join (m.schema.toList.map Trace.name)).introduces = false :=
      introduces_join fun _ => rfl
    simp [qualifiedTrace, hschema, Trace.name]
  | tempTable => exact introduces_after fun _ => rfl
  | jsonRowset | derived => rfl

theorem introduces_tableSourceTrace (m : Model) :
    (t.tableSourceTrace aliases m).introduces = false := by
  refine introduces_after fun sourceName => ?_
  cases m.source with
  | jsonRowset p =>
    have hcolumns : (Trace.join (m.columns.map fun c => Trace.name c.name)).introduces = false :=
      introduces_join fun _ => rfl
    simpa [Trace.name] using hcolumns
  | _ => simp [introduces_tableTrace, Trace.name]

theorem introduces_columnsUnderTrace (sourceName : String) (columns : List Field) :
    (columnsUnderTrace sourceName columns).introduces = false := by
  unfold columnsUnderTrace
  split
  · rfl
  · exact introduces_join fun _ => rfl

/-- A rowset with its columns, whose types stand by themselves. -/
theorem rowset_respelled {columns : List Column} (h : t.HasClosedTypeNames columns) (p : Param)
    (sourceName : String) :
    (word "OPENJSON(" ++ piece (.placeholder p) ++ word ") WITH (" ++ t.rowsetColumns columns ++
      word ") " ++ name sourceName).Respelled .anywhere false := by
  obtain ⟨y, trace, hwrites, hspells, hintro⟩ := rowsetColumns_respelled h
  refine ⟨_, _, (((WritesAs.refl _).append hwrites).append (.refl _)).append (.refl _),
    ((((((Spells.ofWord "OPENJSON(").silent (Spells.placeholder p)).word ") WITH (").value
      hspells).word ") ").clause (Spells.name sourceName)).closed (by decide), ?_⟩
  simp [hintro, Trace.name]

theorem tableSource_respelled {m : Model}
    (h : ∀ p, m.source = .jsonRowset p → t.HasClosedTypeNames m.columns) :
    (t.tableSource aliases m).Respelled .anywhere false := by
  by_cases hrowset : ∃ p, m.source = .jsonRowset p
  · obtain ⟨p, hp⟩ := hrowset
    refine .after (fun sourceName _ => ?_) fun _ _ => rfl
    rw [hp]
    exact rowset_respelled (h p hp) p sourceName
  · have hplain := Spells.tableSource (t := t) aliases (m := m) fun p hp => absurd ⟨p, hp⟩ hrowset
    rw [← @introduces_tableSourceTrace t aliases m]
    exact .of_spells hplain

theorem tableSelect_respelled {m : Model}
    (h : ∀ p, m.source = .jsonRowset p → t.HasClosedTypeNames m.columns) (columns : List Field) :
    (t.tableSelect aliases m columns).Respelled .anywhere false := by
  refine .after (fun sourceName _ => ?_) fun _ _ => rfl
  obtain ⟨y, trace, hwrites, hspells, hintro⟩ : (t.tableSource aliases m).Respelled .anywhere false :=
    tableSource_respelled h
  refine ⟨_, _, (WritesAs.refl _).append hwrites, (((((Spells.ofWord "SELECT ").value
    (Spells.columnsUnder sourceName columns)).silent Spells.line).word "FROM ").clause
      hspells).closed (by decide), ?_⟩
  simp [hintro, introduces_columnsUnderTrace]

theorem introduces_tableSelectTrace (m : Model) (columns : List Field) :
    (t.tableSelectTrace aliases m columns).introduces = false :=
  introduces_after fun _ => by simp [introduces_columnsUnderTrace, introduces_tableSourceTrace]

theorem introduces_selectTrace (scope : Scope) (outermost : Bool) (s : Select) (trace : Trace) :
    (scope.selectTrace outermost s { introduces := trace.introduces }).introduces =
      (scope.selectTrace outermost s trace).introduces := by
  simp [Scope.selectTrace]

theorem introduces_aliasedTrace (output : Model) (trace : Trace) :
    (aliasedTrace aliases output { introduces := trace.introduces }).introduces =
      (aliasedTrace aliases output trace).introduces := by
  unfold aliasedTrace
  cases aliases.require output <;> simp [Trace.after]

mutual

/-- A query whose type names stand by themselves is written as one that spells what its walk finds. -/
theorem query_respelled (outermost : Bool) {s : Statement} (h : t.HasClosedRowsets s.tables) :
    (t.query aliases outermost s).Respelled .anywhere (t.queryTrace aliases outermost s).introduces := by
  match s with
  | .table m =>
    rw [query, queryTrace, introduces_tableSelectTrace]
    exact tableSelect_respelled (h m (List.mem_singleton.2 rfl)) _
  | .select body none =>
    rw [query, queryTrace]
    exact .sourceless _ outermost body
  | .select body (some inner) =>
    have hinner := source_respelled (s := inner) h
    rw [query, queryTrace, ← introduces_selectTrace]
    exact hinner.select _ outermost body
  | .union output left right kind =>
    obtain ⟨hl, hr⟩ := HasClosedRowsets.of_append h
    rw [query, queryTrace, Trace.introduces_append]
    exact (query_respelled false hl).unionOf kind (query_respelled false hr)
  | .join .. =>
    -- A join is no query by itself: the rendering is its error.
    rw [query]
    exact .of_spells (Spells.fail _)

theorem source_respelled {s : Statement} (h : t.HasClosedRowsets s.tables) :
    (t.source aliases s).Respelled .anywhere (t.sourceTrace aliases s).introduces := by
  match s with
  | .table m =>
    rw [source, sourceTrace, introduces_tableSourceTrace]
    exact tableSource_respelled (h m (List.mem_singleton.2 rfl))
  | .select body none =>
    rw [source, sourceTrace, ← introduces_aliasedTrace]
    exact (Respelled.sourceless _ false body).aliased aliases _
  | .select body (some inner) =>
    have hinner := (source_respelled (s := inner) h).select (t.scope aliases) false body
    rw [introduces_selectTrace] at hinner
    rw [source, sourceTrace, ← introduces_aliasedTrace]
    exact hinner.aliased aliases _
  | .union output left right kind =>
    obtain ⟨hl, hr⟩ := HasClosedRowsets.of_append h
    have hunion := (query_respelled false hl).unionOf kind
      (query_respelled false hr)
    rw [← Trace.introduces_append] at hunion
    rw [source, sourceTrace, ← introduces_aliasedTrace]
    exact hunion.aliased aliases _
  | .join left right kind c =>
    obtain ⟨hl, hr⟩ := HasClosedRowsets.of_append h
    rw [source, sourceTrace, Trace.introduces_append, Trace.introduces_append]
    exact (source_respelled hl).join _ kind c _ (source_respelled hr)

end

end Target

end Tsql
