import Tsql.Proofs.Render.Groups
import Tsql.Proofs.Render.JoinGrammar
import Tsql.Proofs.Render.Parameters
import Tsql.Proofs.Render.TypeNames
import Tsql.Proofs.Result

/-!
# Reading row sources back

`Target.joinTree?` is what the joins of a statement are: each source with the symbols that it has by itself,
each join with its pairs of columns and its further condition. `Target.readSource?_source` is that the text of
a row source is read as that tree, wherever it stands.
-/

namespace Tsql

open Text Emission

/-! ### The tree of a statement -/

/-- The symbols of a rendering's own text. -/
def Emission.symbols? (x : Emission) (params : List Param) : Option (List Symbol) :=
  readSymbols? (writePieces params {} x.pieces).text

def AliasMap.columnSymbols? (aliases : AliasMap) (c : ColumnRef) : Option (List Symbol) :=
  (aliases.get? c.model).map fun source =>
    [.quoted (.name source), .mark '.', .quoted (.name c.field.name)]

def AliasMap.pairSymbols? (aliases : AliasMap) (pair : ColumnRef × ColumnRef) :
    Option (List Symbol) := do
  return (← aliases.columnSymbols? pair.1) ++ .mark '=' :: (← aliases.columnSymbols? pair.2)

/-- The conjuncts of a join's condition: its pairs of columns in order, and then what else it says. -/
def Target.joinConjuncts? (t : Target) (params : List Param) (aliases : AliasMap) (c : JoinCondition) :
    Option (List (List Symbol)) := do
  let pairs ← c.pairs.mapM aliases.pairSymbols?
  let extra ← c.extra.toList.mapM fun x => (x.predicate (t.scope aliases)).symbols? params
  return pairs ++ extra

/-- The joins of a statement, with all other row sources as their symbols. -/
def Target.joinTree? (t : Target) (params : List Param) (aliases : AliasMap) : Statement → Option JoinTree
  | .join left right kind c => do
    return .join kind (← t.joinTree? params aliases left) (← t.joinTree? params aliases right)
      (← t.joinConjuncts? params aliases c)
  | s => ((t.source aliases s).symbols? params).map .source

/-! ### Symbols of parts -/

section Parts

variable {x y : Emission} {params : List Param} {l : List Lexeme}

theorem Emission.Spells.isClear {start : Start} {trace : Trace}
    (h : x.Spells start (some .loose) trace) (hf : x.failure = none) (params : List Param) :
    IsClear nowhere (symbols (x.lexemes params)) := by
  rw [IsClear, depthAlong_symbols]
  exact h.parenDepth hf params

theorem symbols_group (l : List Lexeme) :
    symbols (.mark '(' :: (l ++ [.mark ')'])) = grouped (symbols l) := by
  have hopen : EndsClear [.mark '('] := by decide +kernel
  have hclose : symbols [.mark ')'] = [.mark ')'] := by decide +kernel
  show symbols ([.mark '('] ++ (l ++ .mark ')' :: [])) = _
  rw [symbols_append hopen, symbols_break (by decide +kernel), hclose]
  rfl

theorem symbols_call (word l l' : List Lexeme) :
    symbols (word ++ .mark '(' :: (l ++ .mark ')' :: l')) =
      symbols word ++ (grouped (symbols l) ++ symbols l') := by
  have hclear : EndsClear (.mark '(' :: (l ++ [.mark ')'])) :=
    endsClear_concat (x := .mark ')') (by decide +kernel) (.mark '(' :: l)
  have hassoc : Lexeme.mark '(' :: (l ++ .mark ')' :: l') =
      .mark '(' :: (l ++ [.mark ')']) ++ l' := by simp
  rw [symbols_break (by decide +kernel), hassoc, symbols_append hclear, symbols_group]

theorem IsClear.isConjunct_grouped {l : List Symbol} (h : IsClear nowhere l) : IsConjunct (grouped l) :=
  ⟨h.group, by simp [grouped]⟩

theorem Emission.IsGroup.isConjunct (h : x.IsGroup params) : IsConjunct (symbols (x.lexemes params)) := by
  obtain ⟨l, hl, hdepth⟩ := h
  rw [hl, symbols_group]
  exact IsClear.isConjunct_grouped ((depthAlong_symbols 0 l).trans hdepth)

theorem symbols_separator (l l' : List Lexeme) {c : Char} (hc : isBlank c = true) {s : String}
    (hs : EndsClear (marks s)) :
    symbols (l ++ .mark c :: (marks s ++ l')) = symbols l ++ (symbols (marks s) ++ symbols l') := by
  rw [symbols_blank hc, symbols_append hs]

def Shown (params : List Param) (x : Emission) (l : List Symbol) : Prop :=
  x.failure = none ∧ symbols (x.lexemes params) = l

theorem symbols_conjunction {parts : List Emission} {conjuncts : List (List Symbol)}
    (h : List.Forall₂ (Shown params) parts conjuncts) :
    Shown params (separated " AND " parts) (conjunction conjuncts) := by
  induction h with
  | nil => exact ⟨rfl, rfl⟩
  | @cons x c parts conjuncts hx hrest ih =>
    cases hrest with
    | nil => exact hx
    | @cons y d parts conjuncts hy hrest =>
      have hword : (x ++ word " AND ").failure = none := failure_append.2 ⟨hx.1, rfl⟩
      refine ⟨failure_append.2 ⟨hword, ih.1⟩, ?_⟩
      show symbols ((x ++ word " AND " ++ separated " AND " (y :: parts)).lexemes params) = _
      rw [lexemes_append hword, lexemes_append hx.1, lexemes_word, conjunction_cons_cons, ← ih.2,
        ← hx.2, List.append_assoc]
      exact symbols_separator _ _ (c := ' ') rfl (s := "AND ") (by decide +kernel)

theorem column_eq {t : Target} {aliases : AliasMap} {c : ColumnRef}
    (hf : ((t.scope aliases).column c).failure = none) :
    ∃ source, aliases.get? c.model = some source ∧
      (t.scope aliases).column c = name source ++ word "." ++ name c.field.name := by
  simp only [Target.scope, Scope.column] at hf ⊢
  cases hsource : aliases.get? c.model with
  | none => simp [hsource] at hf
  | some source => exact ⟨source, rfl, rfl⟩

theorem shown_equality (params : List Param) {t : Target} {aliases : AliasMap} {pair : ColumnRef × ColumnRef}
    (hf : ((t.scope aliases).equality pair).failure = none) :
    ∃ l, aliases.pairSymbols? pair = some l ∧ Shown params ((t.scope aliases).equality pair) l ∧
      IsConjunct l := by
  obtain ⟨hl, hr⟩ := failure_append.1 hf
  obtain ⟨left, hleft, hlcolumn⟩ := column_eq (failure_append.1 hl).1
  obtain ⟨right, hright, hrcolumn⟩ := column_eq hr
  refine ⟨_, by simp [AliasMap.pairSymbols?, AliasMap.columnSymbols?, hleft, hright]; rfl,
    ⟨hf, ?_⟩, ?_⟩
  · rw [Scope.equality, hlcolumn, hrcolumn]
    rfl
  · exact ⟨rfl, by simp⟩

/-- What a rendering adds to a text has the symbols of its lexemes, unless it begins a comment. -/
theorem Emission.Spells.exists_text {start : Start} {trace : Trace} (h : x.Spells start (some .loose) trace)
    (hf : x.failure = none) (hintro : trace.introduces = false) (params : List Param) (w : Writer) :
    ∃ text, (writePieces params w x.pieces).text = w.text ++ text ∧
      readSymbols? text = some (symbols (x.lexemes params)) := by
  obtain ⟨last, -, hrun⟩ := h.harmless .loose rfl hf params {} rfl
  exact Emission.exists_text hrun (by simp [Survey.past, Start.introduces, hintro]) w

theorem Emission.Spells.symbols? {start : Start} {trace : Trace} (h : x.Spells start (some .loose) trace)
    (hf : x.failure = none) (hintro : trace.introduces = false) :
    x.symbols? params = some (symbols (x.lexemes params)) := by
  obtain ⟨text, htext, hread⟩ := h.exists_text hf hintro params {}
  rw [Emission.symbols?, htext, String.empty_append, hread]

theorem introduces_of_join {traces : List Trace} (h : (Trace.join traces).introduces = false) :
    ∀ t ∈ traces, t.introduces = false := by
  induction traces with
  | nil => simp
  | cons t rest ih =>
    rw [Trace.join, Trace.introduces_append, Bool.or_eq_false_iff] at h
    exact List.forall_mem_cons.2 ⟨h.1, ih h.2⟩

theorem mapM_eq_some_of_forall₂ {α β : Type} {f : α → Option β} {as : List α} {bs : List β}
    (h : List.Forall₂ (fun a b => f a = some b) as bs) : as.mapM f = some bs := by
  induction h with
  | nil => rfl
  | cons hab _ ih =>
    rw [List.mapM_cons, hab, ih]
    rfl

theorem shown_extra (params : List Param) {t : Target} {aliases : AliasMap} {x : Expr}
    (hf : (x.predicate (t.scope aliases)).failure = none)
    (hintro : (x.trace (t.scope aliases)).introduces = false) :
    ∃ l, (x.predicate (t.scope aliases)).symbols? params = some l ∧
      Shown params (x.predicate (t.scope aliases)) l ∧ IsConjunct l :=
  ⟨_, (x.predicate_spells _).symbols? hf hintro, ⟨hf, rfl⟩, (Expr.predicate_isGroup hf params).isConjunct⟩

/-- The pairs of a join and what else it says are its conjuncts, in this order. -/
theorem shown_joinParts (params : List Param) {t : Target} {aliases : AliasMap} {c : JoinCondition}
    (hf : ∀ x ∈ (t.scope aliases).joinParts c, x.failure = none)
    (hintro : ((t.scope aliases).joinTrace c).introduces = false) :
    ∃ conjuncts, t.joinConjuncts? params aliases c = some conjuncts ∧
      List.Forall₂ (Shown params) ((t.scope aliases).joinParts c) conjuncts ∧
      ∀ l ∈ conjuncts, IsConjunct l := by
  obtain ⟨pairs, hpairs⟩ := exists_forall₂ fun pair (hpair : pair ∈ c.pairs) =>
    shown_equality params (hf _ (List.mem_append_left _ (List.mem_map_of_mem hpair)))
  obtain ⟨extra, hextra⟩ := exists_forall₂ fun x (hx : x ∈ c.extra.toList) => by
    have hpart := List.mem_map_of_mem (f := fun x => x.predicate (t.scope aliases)) hx
    have htrace := List.mem_map_of_mem (f := Expr.trace (t.scope aliases)) hx
    rw [← Option.toList_map] at hpart htrace
    exact shown_extra params (hf _ (List.mem_append_right _ hpart))
      (introduces_of_join hintro _ (List.mem_append_right _ htrace))
  refine ⟨pairs ++ extra, ?_, ?_, ?_⟩
  · rw [Target.joinConjuncts?, mapM_eq_some_of_forall₂ (hpairs.imp fun _ _ h => h.1),
      mapM_eq_some_of_forall₂ (hextra.imp fun _ _ h => h.1)]
    rfl
  · rw [Scope.joinParts, Option.toList_map]
    exact List.rel_append (List.forall₂_map_left_iff.2 (hpairs.imp fun _ _ h => h.2.1))
      (List.forall₂_map_left_iff.2 (hextra.imp fun _ _ h => h.2.1))
  · intro l hl
    rcases List.mem_append.1 hl with hl | hl
    · obtain ⟨_, _, -, -, h⟩ := mem_of_forall₂ hpairs hl
      exact h
    · obtain ⟨_, _, -, -, h⟩ := mem_of_forall₂ hextra hl
      exact h

end Parts

/-! ### Joins -/

/-- A rendering is written as one that is surveyed to its end and has the symbols of a tree. -/
def Reads (params : List Param) (x : Emission) (introduces : Bool) (tree : JoinTree) : Prop :=
  ∃ y trace, x.WritesAs y ∧ y.Spells .anywhere (some .loose) trace ∧ trace.introduces = introduces ∧
    symbols (y.lexemes params) = tree.symbols ∧ tree.WellFormed

namespace Reads

variable {x y : Emission} {params : List Param} {a b : Bool} {left right tree : JoinTree}
  {scope : Scope} {kind : JoinKind} {c : JoinCondition} {conjuncts : List (List Symbol)}

theorem exists_text (h : Reads params x false tree) (hf : x.failure = none) (w : Writer) :
    ∃ text, (writePieces params w x.pieces).text = w.text ++ text ∧ readSource? text = some tree := by
  obtain ⟨y, trace, hwrites, hspells, hintro, hsymbols, htree⟩ := h
  obtain ⟨text, htext, hread⟩ :=
    hspells.exists_text (hwrites.failure_eq ▸ hf) hintro params w
  refine ⟨text, by rw [hwrites.write_eq, htext], ?_⟩
  rw [readSource?, hread, hsymbols]
  exact JoinTree.readJoins?_symbols htree (Nat.lt_succ_self _)

theorem symbols? (h : Reads params x false tree) (hf : x.failure = none) :
    x.symbols? params = some tree.symbols := by
  obtain ⟨y, trace, hwrites, hspells, hintro, hsymbols, -⟩ := h
  rw [Emission.symbols?, hwrites.write_eq, ← hsymbols]
  exact hspells.symbols? (hwrites.failure_eq ▸ hf) hintro

theorem symbols_sql (kind : JoinKind) :
    symbols (marks kind.sql) = [.word kind.keyword, .word "JOIN"] := by
  cases kind <;> decide +kernel

theorem conditionError?_eq_none :
    kind.conditionError? c = none ↔ (kind = .cross ↔ c.isSome = false) := by
  cases kind <;> cases hc : c.isSome <;> simp [JoinKind.conditionError?, hc]

theorem joinParts_eq_nil : scope.joinParts c = [] ↔ c.isSome = false := by
  cases hextra : c.extra <;> simp [Scope.joinParts, JoinCondition.isSome, hextra]

theorem conjuncts_eq_nil (h : List.Forall₂ (Shown params) (scope.joinParts c) conjuncts) :
    conjuncts = [] ↔ c.isSome = false := by
  rw [← List.length_eq_zero_iff, ← h.length_eq, List.length_eq_zero_iff, joinParts_eq_nil]

/-- The condition of a join, behind its right operand. -/
theorem symbols_joinClause (h : List.Forall₂ (Shown params) (scope.joinParts c) conjuncts)
    (l : List Lexeme) :
    symbols (l ++ (scope.joinClause c).lexemes params) = symbols l ++ condition conjuncts := by
  unfold Scope.joinClause
  cases hc : c.isSome with
  | false => simp [nothing, lexemes, condition, (conjuncts_eq_nil h).2 hc]
  | true =>
    have hne : conjuncts ≠ [] := fun hnil => by simp [(conjuncts_eq_nil h).1 hnil] at hc
    obtain ⟨-, hconjunction⟩ := symbols_conjunction h
    rw [if_pos rfl, lexemes_append rfl, lexemes_word, condition, if_neg hne, ← hconjunction]
    exact symbols_separator _ _ (c := ' ') rfl (s := "ON ") (by decide +kernel)

theorem symbols_groupedIf (isJoin : Bool) (hf : x.failure = none) :
    symbols ((if isJoin then word "(" ++ x ++ word ")" else x).lexemes params) =
      groupedIf isJoin (symbols (x.lexemes params)) := by
  cases isJoin with
  | false => rfl
  | true =>
    show symbols ((word "(" ++ x ++ word ")").lexemes params) = _
    rw [lexemes_append (failure_append.2 ⟨rfl, hf⟩), lexemes_append rfl, lexemes_word, lexemes_word]
    exact symbols_group _

theorem join_renders {isJoin : Bool} (hf : (scope.join kind c x y isJoin).failure = none) :
    kind.conditionError? c = none ∧ x.failure = none ∧ y.failure = none ∧
      ∀ z ∈ scope.joinParts c, z.failure = none := by
  unfold Scope.join at hf
  cases herror : kind.conditionError? c with
  | some e =>
    rw [herror] at hf
    cases hf
  | none =>
    rw [herror] at hf
    dsimp only at hf
    simp only [failure_append] at hf
    obtain ⟨⟨⟨⟨⟨hx, -⟩, -⟩, -⟩, hright⟩, hclause⟩ := hf
    refine ⟨rfl, hx, ?_, ?_⟩
    · cases isJoin with
      | false => exact hright
      | true => exact (failure_append.1 (failure_append.1 hright).1).2
    · unfold Scope.joinClause at hclause
      split at hclause
      · exact failure_separated.1 (failure_append.1 hclause).2
      · next hc =>
        rw [joinParts_eq_nil.2 (by simpa using hc)]
        simp

theorem symbols_join {isJoin : Bool} (hf : (scope.join kind c x y isJoin).failure = none)
    (hparts : List.Forall₂ (Shown params) (scope.joinParts c) conjuncts) :
    symbols ((scope.join kind c x y isJoin).lexemes params) =
      symbols (x.lexemes params) ++ .word kind.keyword :: .word "JOIN" ::
        (groupedIf isJoin (symbols (y.lexemes params)) ++ condition conjuncts) := by
  obtain ⟨herror, hx, hy, -⟩ := join_renders hf
  have hline : Emission.lexemes line params = [.mark '\n'] := rfl
  have hblank : Emission.lexemes (word " ") params = [.mark ' '] := rfl
  have hsql := lexemes_word kind.sql params
  have hlexemes : ∀ z : Emission, z.failure = none →
      (x ++ line ++ word kind.sql ++ word " " ++ z ++ scope.joinClause c).lexemes params =
        x.lexemes params ++ .mark '\n' :: (marks kind.sql ++ .mark ' ' ::
          (z.lexemes params ++ (scope.joinClause c).lexemes params)) := by
    intro z hz
    simp [lexemes_append, failure_append, hx, hz, hline, hblank, hsql]
  have hright : (if isJoin then word "(" ++ y ++ word ")" else y).failure = none := by
    cases isJoin <;> simp [failure_append, hy]
  unfold Scope.join
  rw [herror]
  dsimp only
  rw [hlexemes _ hright, symbols_blank rfl, symbols_blank rfl, symbols_sql, symbols_joinClause hparts,
    symbols_groupedIf isJoin hy]
  rfl

theorem join (hf : (scope.join kind c x y right.isJoin).failure = none)
    (hx : Reads params x a left) (hy : Reads params y b right)
    (hparts : List.Forall₂ (Shown params) (scope.joinParts c) conjuncts)
    (hconjuncts : ∀ l ∈ conjuncts, IsConjunct l) :
    Reads params (scope.join kind c x y right.isJoin) (a || b || (scope.joinTrace c).introduces)
      (.join kind left right conjuncts) := by
  obtain ⟨x', t, hxwrites, hxspells, rfl, hxsymbols, hleft⟩ := hx
  obtain ⟨y', t', hywrites, hyspells, rfl, hysymbols, hright⟩ := hy
  have hwrites := hxwrites.join scope kind c right.isJoin hywrites
  refine ⟨_, _, hwrites, Spells.join scope kind c right.isJoin hxspells hyspells, rfl, ?_, ?_⟩
  · rw [hwrites.failure_eq] at hf
    rw [symbols_join hf hparts, hxsymbols, hysymbols, JoinTree.symbols]
  · obtain ⟨herror, -⟩ := join_renders hf
    exact ⟨hleft, hright, hconjuncts,
      (conditionError?_eq_none.1 herror).trans (conjuncts_eq_nil hparts).symm⟩

/-! ### Sources -/

theorem isSource_concat {l : List Symbol} (h : IsClear isJoinSymbol l) (n : String) :
    IsSource (l ++ [.quoted (.name n)]) :=
  ⟨h.append rfl, .name n, List.getLast?_concat⟩

/-- What is put in front of an alias. -/
theorem symbols_named (hf : x.failure = none) (n : String) :
    symbols ((x ++ word " " ++ name n).lexemes params) =
      symbols (x.lexemes params) ++ [.quoted (.name n)] := by
  rw [lexemes_append (failure_append.2 ⟨hf, rfl⟩), lexemes_append hf, lexemes_word, List.append_assoc]
  exact symbols_blank (c := ' ') rfl _ _

theorem nested_renders : (nested x).failure = none ↔ x.failure = none := by
  simp [nested, failure_append, piece]

theorem symbols_nested (hf : x.failure = none) :
    symbols ((nested x).lexemes params) = grouped (symbols (x.lexemes params)) := by
  have hopen : (word "(" ++ piece .indent ++ line).lexemes params = [.mark '(', .mark '\n'] := rfl
  have hbefore : (word "(" ++ piece .indent ++ line ++ x).failure = none := failure_append.2 ⟨rfl, hf⟩
  have hlexemes : (nested x).lexemes params =
      .mark '(' :: (([] ++ .mark '\n' :: (x.lexemes params ++ .mark '\n' :: [])) ++ [.mark ')']) := by
    have hclose : (piece .outdent ++ (line ++ word ")")).lexemes params = [.mark '\n', .mark ')'] := rfl
    rw [nested, append_assoc, append_assoc, lexemes_append hbefore, lexemes_append rfl, hopen, hclose]
    simp
  rw [hlexemes, symbols_group, symbols_blank rfl, symbols_blank rfl]
  have hnil : symbols [] = [] := rfl
  rw [hnil, List.nil_append, List.append_nil]

theorem aliased {aliases : AliasMap} {output : Model} (h : x.Respelled .anywhere a)
    (hintro : (aliasedTrace aliases output { introduces := a }).introduces = false)
    (hf : (Tsql.aliased aliases output x).failure = none) :
    ∃ l, Reads params (Tsql.aliased aliases output x) false (.source l) := by
  obtain ⟨y, t, hwrites, hspells, rfl⟩ := h
  obtain ⟨n, hn, hnested⟩ := failure_after hf
  have hy : y.failure = none := by
    rw [← hwrites.failure_eq]
    exact nested_renders.1 (failure_append.1 (failure_append.1 hnested).1).1
  refine ⟨grouped (symbols (y.lexemes params)) ++ [.quoted (.name n)], _, _,
    hwrites.aliased aliases output, Spells.aliased aliases output hspells,
    (Target.introduces_aliasedTrace output t).symm.trans hintro, ?_, ?_⟩
  · unfold Tsql.aliased
    rw [hn, ← symbols_nested hy]
    exact symbols_named (nested_renders.2 hy) n
  · exact isSource_concat (hspells.isClear hy params).group n

theorem named {n : String} {t : Trace} (h : x.Spells .anywhere (some .tight) t)
    (hintro : t.introduces = false) (hf : x.failure = none)
    (hclear : IsClear isJoinSymbol (symbols (x.lexemes params))) :
    Reads params (x ++ word " " ++ name n) false
      (.source (symbols (x.lexemes params) ++ [.quoted (.name n)])) :=
  ⟨_, _, .refl _, ((h.word " ").clause (Spells.name n)).closed (by decide),
    by simp [hintro, Trace.name], symbols_named hf n, isSource_concat hclear n⟩

theorem isClear_tableName {t : Target} {m : Model} (hf : (t.tableName m).failure = none) :
    IsClear isJoinSymbol (symbols ((t.tableName m).lexemes params)) := by
  unfold Target.tableName at hf ⊢
  cases hsource : m.source with
  | table => cases hschema : m.schema <;> rfl
  | tempTable =>
    rw [hsource] at hf
    obtain ⟨n, hn, -⟩ := failure_after hf
    rw [hn]
    rfl
  | jsonRowset | derived =>
    rw [hsource] at hf
    cases hf

theorem rowset {t : Target} {columns : List Column} {p : Param} {n : String}
    (h : t.HasClosedTypeNames columns) (hf : (t.rowsetColumns columns).failure = none) :
    ∃ l, Reads params (word "OPENJSON(" ++ piece (.placeholder p) ++ word ") WITH (" ++
      t.rowsetColumns columns ++ word ") " ++ name n) false (.source l) := by
  obtain ⟨y, trace, hwrites, hspells, hintro⟩ := Target.rowsetColumns_respelled h
  have hy : y.failure = none := hwrites.failure_eq ▸ hf
  have hparam : (piece (.placeholder p)).Spells .anywhere (some .loose) {} :=
    (Spells.placeholder p).closed rfl
  refine ⟨[.word "OPENJSON"] ++ (grouped (symbols (Emission.lexemes (piece (.placeholder p)) params)) ++
    ([.word "WITH"] ++ grouped (symbols (y.lexemes params)))) ++ [.quoted (.name n)], _, _,
    (((WritesAs.refl _).append hwrites).append (.refl _)).append (.refl _),
    ((((((Spells.ofWord "OPENJSON(").silent (Spells.placeholder p)).word ") WITH (").value
      hspells).word ") ").clause (Spells.name n)).closed (by decide),
    by simp [hintro, Trace.name], ?_, ?_⟩
  · have hlexemes : (word "OPENJSON(" ++ piece (.placeholder p) ++ word ") WITH (" ++ y ++ word ") " ++
        name n).lexemes params = marks "OPENJSON" ++ .mark '(' ::
          (Emission.lexemes (piece (.placeholder p)) params ++ .mark ')' ::
            (marks " WITH " ++ .mark '(' :: (y.lexemes params ++ .mark ')' ::
              [.mark ' ', .token (.name n)]))) := by
      have hbefore : (word "OPENJSON(" ++ piece (.placeholder p) ++ word ") WITH (").failure = none := rfl
      have hmiddle : (word "OPENJSON(" ++ piece (.placeholder p) ++ word ") WITH (" ++ y).failure = none :=
        failure_append.2 ⟨hbefore, hy⟩
      have hafter : (word ") " ++ name n).lexemes params = [.mark ')', .mark ' ', .token (.name n)] := rfl
      have hfirst : marks "OPENJSON(" = marks "OPENJSON" ++ [.mark '('] := by decide
      have hwith : marks ") WITH (" = .mark ')' :: (marks " WITH " ++ [.mark '(']) := by decide
      rw [append_assoc, lexemes_append hmiddle, lexemes_append hbefore, lexemes_append rfl,
        lexemes_append rfl, hafter, lexemes_word, lexemes_word, hfirst, hwith]
      simp
    have hopenjson : symbols (marks "OPENJSON") = [.word "OPENJSON"] := by decide +kernel
    have hwith : symbols (marks " WITH ") = [.word "WITH"] := by decide +kernel
    have hname : symbols [.mark ' ', .token (.name n)] = [.quoted (.name n)] := rfl
    rw [hlexemes, symbols_call, symbols_call, hopenjson, hwith, hname]
    simp [JoinTree.symbols]
  · refine isSource_concat ?_ n
    have hopenjson : IsClear isJoinSymbol [.word "OPENJSON"] := by decide +kernel
    have hwith : IsClear isJoinSymbol [.word "WITH"] := by decide +kernel
    exact hopenjson.append ((hparam.isClear rfl params).group.append
      (hwith.append (hspells.isClear hy params).group))

theorem tableSource {t : Target} {aliases : AliasMap} {m : Model}
    (h : ∀ p, m.source = .jsonRowset p → t.HasClosedTypeNames m.columns)
    (hf : (t.tableSource aliases m).failure = none) :
    ∃ l, Reads params (t.tableSource aliases m) false (.source l) := by
  unfold Target.tableSource at hf ⊢
  obtain ⟨n, hn, hf⟩ := failure_after hf
  rw [hn]
  show ∃ l, Reads params (match m.source with | _ => _) false (.source l)
  cases hsource : m.source with
  | table =>
    rw [hsource] at hf
    have hname := (failure_append.1 (failure_append.1 hf).1).1
    exact ⟨_, named (Spells.tableName t m) (Target.introduces_tableTrace m) hname
      (isClear_tableName hname)⟩
  | tempTable =>
    rw [hsource] at hf
    have hname := (failure_append.1 (failure_append.1 hf).1).1
    exact ⟨_, named (Spells.tableName t m) (Target.introduces_tableTrace m) hname
      (isClear_tableName hname)⟩
  | jsonRowset p =>
    rw [hsource] at hf
    exact rowset (h p hsource) (failure_append.1 (failure_append.1 (failure_append.1 hf).1).1).2
  | derived =>
    rw [hsource] at hf
    cases hf

end Reads

/-! ### Reading back -/

namespace Target

variable {t : Target} {aliases : AliasMap} {params : List Param} {s : Statement}

theorem reads_leaf (params : List Param) (hs : s.isJoin = false) (hf : (t.source aliases s).failure = none)
    (htypes : t.HasClosedRowsets s.tables) (hintro : (t.sourceTrace aliases s).introduces = false) :
    ∃ l, Reads params (t.source aliases s) false (.source l) := by
  cases s with
  | table m =>
    rw [source] at hf ⊢
    exact Reads.tableSource (htypes m (List.mem_singleton_self m)) hf
  | select body inner =>
    cases inner with
    | none =>
      rw [sourceTrace, ← introduces_aliasedTrace] at hintro
      rw [source] at hf ⊢
      exact Reads.aliased (.sourceless _ false body) hintro hf
    | some inner =>
      have hinner : (t.source aliases inner).Respelled .anywhere (t.sourceTrace aliases inner).introduces :=
        source_respelled htypes
      rw [sourceTrace, ← introduces_aliasedTrace, ← introduces_selectTrace] at hintro
      rw [source] at hf ⊢
      exact Reads.aliased (hinner.select _ false body) hintro hf
  | union output left right kind =>
    obtain ⟨hl, hr⟩ := HasClosedRowsets.of_append htypes
    rw [sourceTrace, ← introduces_aliasedTrace, Trace.introduces_append] at hintro
    rw [source] at hf ⊢
    exact Reads.aliased ((query_respelled false hl).unionOf kind (query_respelled false hr)) hintro hf
  | join => cases hs

theorem reads_of_leaf (hs : s.isJoin = false) (hf : (t.source aliases s).failure = none)
    (htypes : t.HasClosedRowsets s.tables) (hintro : (t.sourceTrace aliases s).introduces = false) :
    ∃ tree, t.joinTree? params aliases s = some tree ∧ tree.isJoin = s.isJoin ∧
      Reads params (t.source aliases s) false tree := by
  obtain ⟨l, hreads⟩ := reads_leaf params hs hf htypes hintro
  refine ⟨.source l, ?_, hs.symm, hreads⟩
  cases s with
  | join => cases hs
  | _ => simp [joinTree?, hreads.symbols? hf, JoinTree.symbols]

theorem source_reads {s : Statement} (hf : (t.source aliases s).failure = none)
    (htypes : t.HasClosedRowsets s.tables) (hintro : (t.sourceTrace aliases s).introduces = false) :
    ∃ tree, t.joinTree? params aliases s = some tree ∧ tree.isJoin = s.isJoin ∧
      Reads params (t.source aliases s) false tree := by
  match s with
  | .join left right kind c =>
    obtain ⟨hltypes, hrtypes⟩ := HasClosedRowsets.of_append htypes
    rw [sourceTrace, Trace.introduces_append, Trace.introduces_append, Bool.or_eq_false_iff,
      Bool.or_eq_false_iff] at hintro
    obtain ⟨⟨hlintro, hrintro⟩, hcintro⟩ := hintro
    rw [source] at hf
    obtain ⟨-, hlf, hrf, hparts⟩ := Reads.join_renders hf
    obtain ⟨left', hleft, -, hlreads⟩ := source_reads hlf hltypes hlintro
    obtain ⟨right', hright, hisJoin, hrreads⟩ := source_reads hrf hrtypes hrintro
    obtain ⟨conjuncts, hconjuncts, hshown, hall⟩ := shown_joinParts params hparts hcintro
    -- The parentheses depend on the statement in the rendering and on the tree in the grammar.
    refine ⟨.join kind left' right' conjuncts, ?_, rfl, ?_⟩
    · simp [joinTree?, hleft, hright, hconjuncts]
    · rw [← hisJoin] at hf
      rw [source, ← hisJoin]
      simpa [hcintro] using Reads.join hf hlreads hrreads hshown hall
  | .table m => exact reads_of_leaf rfl hf htypes hintro
  | .select body inner => exact reads_of_leaf rfl hf htypes hintro
  | .union output left right kind => exact reads_of_leaf rfl hf htypes hintro

/-- The text of a row source is read as the joins of its statement, wherever it stands. -/
theorem readSource?_source (hf : (t.source aliases s).failure = none)
    (htypes : t.HasClosedRowsets s.tables) (hintro : (t.sourceTrace aliases s).introduces = false) :
    ∃ tree, t.joinTree? params aliases s = some tree ∧
      ∀ w : Writer, ∃ text,
        (writePieces params w (t.source aliases s).pieces).text = w.text ++ text ∧
          readSource? text = some tree := by
  obtain ⟨tree, htree, -, hreads⟩ := source_reads hf htypes hintro
  exact ⟨tree, htree, hreads.exists_text hf⟩

end Target

def purchases : Model :=
  { Model.empty ⟨2⟩ "Purchase" .table with
    columns :=
      [{ id := ⟨2⟩, name := "Buyer", type := .int32 }, { id := ⟨3⟩, name := "Total", type := .int32 }] }

def buyers : Model :=
  { Model.empty ⟨3⟩ "Buyer" .table with columns := [{ id := ⟨4⟩, name := "Id", type := .int32 }] }

/-- Every label with every purchase, and with its buyer if it cost anything. -/
def labelledPurchases : Statement :=
  .join (.table labelledRows)
    (.join (.table purchases) (.table buyers) .left
      { pairs := [(⟨⟨2⟩, ⟨⟨2⟩, "Buyer", .int32⟩⟩, ⟨⟨3⟩, ⟨⟨4⟩, "Id", .int32⟩⟩)]
        extra := some
          (.binary .greaterThan (purchases.ref ⟨⟨3⟩, "Total", .int32⟩) (.ofValue (.int32 0))) })
    .cross {}

def labelledPurchaseNames : AliasMap := ⟨[(⟨1⟩, "@rows"), (⟨2⟩, "Purchase"), (⟨3⟩, "Buyer")]⟩

def labelledPurchasesText : String :=
  "OPENJSON(@p1) WITH ([Label] dbo.Label) [@rows]\nCROSS JOIN ([Purchase] [Purchase]\n" ++
    "LEFT JOIN [Buyer] [Buyer] ON [Purchase].[Buyer] = [Buyer].[Id] AND ([Purchase].[Total] > 0))"

theorem Target.readSource?_source_nested :
    ((Target.labelled "dbo.Label").source labelledPurchaseNames labelledPurchases).failure = none ∧
      (Target.labelled "dbo.Label").HasClosedRowsets labelledPurchases.tables ∧
      ((Target.labelled "dbo.Label").sourceTrace labelledPurchaseNames labelledPurchases).introduces = false ∧
      ∃ tree, (Target.labelled "dbo.Label").joinTree? [⟨⟨1⟩, .string⟩] labelledPurchaseNames
          labelledPurchases = some tree ∧
        readSource? labelledPurchasesText = some tree := by
  have hf : ((Target.labelled "dbo.Label").source labelledPurchaseNames
      labelledPurchases).failure = none := by
    decide +kernel
  have hintro : ((Target.labelled "dbo.Label").sourceTrace labelledPurchaseNames
      labelledPurchases).introduces = false := by
    decide +kernel
  have htypes : (Target.labelled "dbo.Label").HasClosedRowsets labelledPurchases.tables := by
    intro m hm p hp c hc n hn
    have hname : isSelfContained "dbo.Label" = true := by decide +kernel
    rcases hm with _ | ⟨_, _ | ⟨_, _ | ⟨_, ⟨⟩⟩⟩⟩ <;> cases hp
    obtain rfl := List.mem_singleton.1 hc
    cases hn
    exact hname
  obtain ⟨tree, htree, htext⟩ := readSource?_source hf htypes hintro
  obtain ⟨text, hwritten, hread⟩ := htext {}
  have hexpected : (writePieces [⟨⟨1⟩, .string⟩] {} ((Target.labelled "dbo.Label").source
      labelledPurchaseNames labelledPurchases).pieces).text = "" ++ labelledPurchasesText := by
    decide +kernel
  rw [hexpected, String.append_right_inj] at hwritten
  exact ⟨hf, htypes, hintro, tree, htree, hwritten ▸ hread⟩

/-- The name of a type that is none: it closes the columns of its rowset. -/
def joiningType : String := "INT) [r] CROSS JOIN OPENJSON(@p1) WITH ([Label] INT"

/-- A type name is written as it is, so that a single source may be read as a join. -/
theorem Target.readSource?_source_typeName :
    ((Target.labelled joiningType).source ⟨[(⟨1⟩, "@rows")]⟩ (.table labelledRows)).sqlText =
        .ok ⟨"OPENJSON(@p1) WITH ([Label] INT) [r] CROSS JOIN OPENJSON(@p1) WITH ([Label] INT) [@rows]",
          [⟨⟨1⟩, .string⟩]⟩ ∧
      ((Target.labelled joiningType).joinTree? [⟨⟨1⟩, .string⟩] ⟨[(⟨1⟩, "@rows")]⟩
        (.table labelledRows)).map JoinTree.isJoin = some false ∧
      (readSource? ("OPENJSON(@p1) WITH ([Label] INT) [r] CROSS JOIN " ++
        "OPENJSON(@p1) WITH ([Label] INT) [@rows]")).map JoinTree.isJoin = some true := by
  decide +kernel

end Tsql
