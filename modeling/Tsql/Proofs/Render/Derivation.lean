import Tsql.Proofs.Render.ExprSpelling
import Tsql.Proofs.Render.Grammar

/-!
# Expressions derive in the grammar

`Emission.Lays` is a rendering written as one text, wherever its first line stands.
`Expr.rendered_derives` is that an expression which renders as a value has the text of a value of the
grammar, and one that renders as a condition that of a predicate, and that either derivation has the
operators of the expression, in their order.
-/

namespace Tsql

open Text Emission

/-! ### Texts of several lines -/

namespace Writer

variable {w : Writer} {s t : String}

theorem write_write (w : Writer) (s t : String) : (w.write s).write t = w.write (s ++ t) := by
  by_cases hs : s = ""
  · simp [write, hs]
  by_cases ht : t = ""
  · simp [write, ht]
  have hst : s ++ t ≠ "" := by simp [String.append_eq_empty_iff, hs]
  cases hw : w.atLineStart <;> simp [write, hs, ht, hst, hw, String.append_assoc]

theorem text_write_start (s : String) : (({} : Writer).write s).text = s := by
  by_cases hs : s = "" <;> simp [write, hs]

theorem level_write (w : Writer) (s : String) : (w.write s).level = w.level := by
  unfold write
  split_ifs <;> rfl

theorem atLineStart_write (h : s ≠ "" ∨ w.atLineStart = false) :
    (w.write s).atLineStart = false := by
  unfold write
  split_ifs with hs hw
  · exact h.resolve_left (not_not.2 hs)
  · rfl
  · simpa using hw

/-- The first text of a line stands behind the end of the line before and the margin. -/
theorem newLine_write (hw : w.atLineStart = false) (hs : s ≠ "") :
    w.newLine.write s = w.write (lineBreak w.level ++ s) := by
  simp [write, newLine, hs, hw, lineBreak, String.append_assoc]

/-- Inside a line the level is of no account. -/
theorem outdent_write_indent (hw : w.atLineStart = false) (s : String) :
    (w.indent.write s).outdent = w.write s := by
  by_cases hs : s = ""
  · simp [write, hs, indent, outdent]
  · simp [write, hs, hw, indent, outdent]

end Writer

theorem writePieces_append (params : List Param) (w : Writer) (a b : List Piece) :
    writePieces params w (a ++ b) = writePieces params (writePieces params w a) b := by
  simp [writePieces]

namespace Emission

variable {x y z : Emission} {params : List Param} {level : Nat} {s t : String}

/-- At a level the rendering is written as one text, which may be the first of its line. -/
structure Lays (x : Emission) (params : List Param) (level : Nat) (s : String) : Prop where
  failure_eq : x.failure = none
  write : ∀ w : Writer, w.level = level → writePieces params w x.pieces = w.write s

/-- At a level the rendering is written as one text, which may begin with the end of a line. -/
structure Continues (x : Emission) (params : List Param) (level : Nat) (s : String) : Prop where
  failure_eq : x.failure = none
  write : ∀ w : Writer, w.level = level → w.atLineStart = false →
    writePieces params w x.pieces = w.write s

theorem Lays.continues (h : x.Lays params level s) : x.Continues params level s :=
  ⟨h.failure_eq, fun w hw _ => h.write w hw⟩

namespace Lays

theorem append (hx : x.Lays params level s) (hy : y.Lays params level t) :
    (x ++ y).Lays params level (s ++ t) := by
  refine ⟨failure_append.2 ⟨hx.failure_eq, hy.failure_eq⟩, fun w hw => ?_⟩
  rw [pieces_append hx.failure_eq, writePieces_append, hx.write w hw,
    hy.write _ (by rw [w.level_write, hw]), Writer.write_write]

theorem nothing : Emission.nothing.Lays params level "" :=
  ⟨rfl, fun w _ => by simp [writePieces, Emission.nothing, Writer.write]⟩

theorem word (s : String) : (Emission.word s).Lays params level s := ⟨rfl, fun _ _ => rfl⟩

theorem name (s : String) : (Emission.name s).Lays params level (quoteIdentifier s) :=
  ⟨rfl, fun _ _ => rfl⟩

theorem literal (l : Literal) : (piece (.literal l)).Lays params level l.sql :=
  ⟨rfl, fun _ _ => rfl⟩

theorem placeholder (p : Param) :
    (piece (.placeholder p)).Lays params level (placeholderName (paramNumber params p)) :=
  ⟨rfl, fun _ _ => rfl⟩

theorem of_eq (h : x.Lays params level s) (hs : s = t) : x.Lays params level t := hs ▸ h

theorem enclosed (before after : String) (hx : x.Lays params level s) :
    (Emission.word before ++ x ++ Emission.word after).Lays params level (before ++ s ++ after) :=
  ((word before).append hx).append (word after)

theorem infixed (token : String) (hx : x.Lays params level s) (hy : y.Lays params level t) :
    (Tsql.infixed token x y).Lays params level
      ("(" ++ s ++ " " ++ token ++ " " ++ t ++ ")") :=
  ((((((word "(").append hx).append (word " ")).append (word token)).append (word " ")).append
    hy).append (word ")")

theorem separated (separator : String) {items : List Emission} {texts : List String}
    (h : List.Forall₂ (fun x s => x.Lays params level s) items texts) :
    (Emission.separated separator items).Lays params level (separator.intercalate texts) := by
  induction h with
  | nil => exact nothing
  | cons hx hrest ih =>
    cases hrest with
    | nil => exact hx.of_eq (by simp)
    | cons hy hrest =>
      rw [String.intercalate_cons_cons]
      exact (hx.append (word _)).append ih

theorem listed {items : List Emission} {texts : List String}
    (h : List.Forall₂ (fun x s => x.Lays params level s) items texts) :
    (Emission.listed items).Lays params level (", ".intercalate texts) := separated ", " h

theorem names (items : List String) :
    (Emission.names items).Lays params level (", ".intercalate (items.map quoteIdentifier)) := by
  refine listed ?_
  rw [List.forall₂_map_left_iff, List.forall₂_map_right_iff]
  exact List.forall₂_same.2 fun s _ => name s

end Lays

namespace Continues

theorem append (hx : x.Continues params level s) (hy : y.Continues params level t) :
    (x ++ y).Continues params level (s ++ t) := by
  refine ⟨failure_append.2 ⟨hx.failure_eq, hy.failure_eq⟩, fun w hw hline => ?_⟩
  rw [pieces_append hx.failure_eq, writePieces_append, hx.write w hw hline,
    hy.write _ (by rw [w.level_write, hw]) (Writer.atLineStart_write (.inr hline)),
    Writer.write_write]

theorem lineWord (hs : s ≠ "") : (line ++ word s).Continues params level (lineBreak level ++ s) :=
  ⟨rfl, fun w hw hline => by
    obtain rfl := hw
    exact Writer.newLine_write hline hs⟩

theorem branchOf (hx : x.Lays params level s) (hy : y.Lays params level t) :
    (Tsql.branchOf x y).Continues params level
      (lineBreak level ++ "WHEN " ++ s ++ " THEN " ++ t) :=
  (((lineWord (by decide)).append hx.continues).append (Lays.word _).continues).append hy.continues

end Continues

theorem Lays.caseOf (hx : x.Lays params level s) (hbody : (y ++ z).Continues params (level + 1) t)
    {branchCount : Nat} (hpos : branchCount ≠ 0) :
    (Tsql.caseOf x y z branchCount).Lays params level
      ("CASE" ++ s ++ t ++ lineBreak level ++ "END") := by
  have hhead : (Emission.word "CASE" ++ x).Lays params level ("CASE" ++ s) := (Lays.word _).append hx
  obtain ⟨hy, hz⟩ := failure_append.1 hbody.failure_eq
  have hf : (Tsql.caseOf x y z branchCount).failure = none := by
    simp [Tsql.caseOf, hpos, failure_append, hx.failure_eq, hy, hz, Emission.word, line, piece]
  have hp : (Tsql.caseOf x y z branchCount).pieces = (Emission.word "CASE" ++ x).pieces ++
      (.indent :: ((y ++ z).pieces ++ [.outdent, .line, .word "END"])) := by
    simp [Tsql.caseOf, hpos, pieces_append, failure_append, hx.failure_eq, hy, hz, Emission.word,
      line, piece]
  refine ⟨hf, fun w hw => ?_⟩
  have hline : (w.write ("CASE" ++ s)).atLineStart = false :=
    Writer.atLineStart_write (.inl (by simp [String.append_eq_empty_iff]))
  have hlevel : (w.write ("CASE" ++ s)).indent.level = level + 1 := by
    rw [Writer.indent, w.level_write, hw]
  have hlast (v : Writer) : writePieces params v [.outdent, .line, .word "END"] =
      v.outdent.newLine.write "END" := rfl
  rw [hp, writePieces_append, hhead.write w hw]
  show writePieces params (w.write ("CASE" ++ s)).indent _ = _
  rw [writePieces_append, hbody.write _ hlevel hline, hlast, Writer.outdent_write_indent hline,
    Writer.newLine_write (Writer.atLineStart_write (.inr hline)) (by decide), Writer.level_write,
    Writer.level_write, hw, Writer.write_write, Writer.write_write]
  congr 1
  simp only [String.append_assoc]

end Emission

/-! ### Operators -/

namespace Arithmetic

variable (op : Arithmetic)

theorem token_kind : op.kind.token = op.symbol := by cases op <;> rfl

theorem isPredicate_kind : op.kind.isPredicate = false := by cases op <;> rfl

theorem isLogical_kind : op.kind.isLogical = false := by cases op <;> rfl

end Arithmetic

namespace Comparison

variable (op : Comparison)

theorem token_kind : op.kind.token = op.symbol := by cases op <;> rfl

theorem isPredicate_kind : op.kind.isPredicate = true := by cases op <;> rfl

theorem isLogical_kind : op.kind.isLogical = false := by cases op <;> rfl

end Comparison

namespace Connective

variable (op : Connective)

theorem token_kind : op.kind.token = op.symbol := by cases op <;> rfl

theorem isPredicate_kind : op.kind.isPredicate = true := by cases op <;> rfl

theorem isLogical_kind : op.kind.isLogical = true := by cases op <;> rfl

end Connective

/-- Each operator of expressions is one of the three kinds that the language has. -/
theorem BinaryKind.exists_operator (kind : BinaryKind) :
    (∃ op : Arithmetic, op.kind = kind) ∨ (∃ op : Comparison, op.kind = kind) ∨
      ∃ op : Connective, op.kind = kind := by
  cases kind with
  | add => exact .inl ⟨.plus, rfl⟩
  | subtract => exact .inl ⟨.minus, rfl⟩
  | multiply => exact .inl ⟨.times, rfl⟩
  | divide => exact .inl ⟨.quotient, rfl⟩
  | modulo => exact .inl ⟨.remainder, rfl⟩
  | bitwiseAnd => exact .inl ⟨.bitAnd, rfl⟩
  | bitwiseOr => exact .inl ⟨.bitOr, rfl⟩
  | bitwiseXor => exact .inl ⟨.bitXor, rfl⟩
  | equal => exact .inr (.inl ⟨.equal, rfl⟩)
  | notEqual => exact .inr (.inl ⟨.unequal, rfl⟩)
  | greaterThan => exact .inr (.inl ⟨.greater, rfl⟩)
  | greaterThanOrEqual => exact .inr (.inl ⟨.greaterOrEqual, rfl⟩)
  | lessThan => exact .inr (.inl ⟨.less, rfl⟩)
  | lessThanOrEqual => exact .inr (.inl ⟨.lessOrEqual, rfl⟩)
  | and => exact .inr (.inr ⟨.and, rfl⟩)
  | or => exact .inr (.inr ⟨.or, rfl⟩)

/-! ### Derivations -/

/-- A rendering has the text of a derivation in the grammar, with some operators. -/
def Emission.Derives (x : Emission) (p : Phrase) (operators : List OperatorTree) : Prop :=
  ∃ d : Term p, d.operators = operators ∧
    ∀ params level, x.Lays params level (d.text params level)

/-- The category of a text that is or is not a condition. -/
def Context.natural (isPredicate : Bool) : Context := if isPredicate then .predicate else .value

namespace Emission.Derives

variable {x y : Emission} {a b : List OperatorTree}

theorem inContext (context : Context) {isPredicate : Bool}
    (h : x.Derives (Context.natural isPredicate).phrase a) :
    (inContext context isPredicate x).Derives context.phrase a := by
  obtain ⟨d, hd, htext⟩ := h
  cases context <;> cases isPredicate
  · exact ⟨d, hd, htext⟩
  · exact ⟨.bit d, hd, fun params level => (htext params level).enclosed _ _⟩
  · exact ⟨.isTrue d, hd, fun params level => (htext params level).enclosed _ _⟩
  · exact ⟨d, hd, htext⟩

theorem infixed (kind : BinaryKind)
    (hx : x.Derives (if kind.isLogical then Context.predicate else .value).phrase a)
    (hy : y.Derives (if kind.isLogical then Context.predicate else .value).phrase b) :
    (infixed kind.token x y).Derives (Context.natural kind.isPredicate).phrase
      [.node (.binary kind) (a ++ b)] := by
  obtain ⟨op, rfl⟩ | ⟨op, rfl⟩ | ⟨op, rfl⟩ := kind.exists_operator
  · rw [op.isLogical_kind] at hx hy
    obtain ⟨d, rfl, hd⟩ : x.Derives .value a := hx
    obtain ⟨e, rfl, he⟩ : y.Derives .value b := hy
    rw [op.isPredicate_kind, op.token_kind]
    exact ⟨.arithmetic op d e, rfl, fun params level => (hd params level).infixed _ (he params level)⟩
  · rw [op.isLogical_kind] at hx hy
    obtain ⟨d, rfl, hd⟩ : x.Derives .value a := hx
    obtain ⟨e, rfl, he⟩ : y.Derives .value b := hy
    rw [op.isPredicate_kind, op.token_kind]
    exact ⟨.comparison op d e, rfl, fun params level => (hd params level).infixed _ (he params level)⟩
  · rw [op.isLogical_kind] at hx hy
    obtain ⟨d, rfl, hd⟩ : x.Derives .predicate a := hx
    obtain ⟨e, rfl, he⟩ : y.Derives .predicate b := hy
    rw [op.isPredicate_kind, op.token_kind]
    exact ⟨.junction op d e, rfl, fun params level => (hd params level).infixed _ (he params level)⟩

theorem enclosed {p q : Phrase} {op : Operation} {before behind : String} (f : Term p → Term q)
    (hop : ∀ d, (f d).operators = [.node op d.operators])
    (htext : ∀ params level d,
      (f d).text params level = before ++ d.text params level ++ behind)
    (hx : x.Derives p a) : (word before ++ x ++ word behind).Derives q [.node op a] := by
  obtain ⟨d, rfl, hd⟩ := hx
  refine ⟨f d, hop d, fun params level => ?_⟩
  exact ((hd params level).enclosed _ _).of_eq (htext params level d).symm

/-- The text has the second operand first. -/
theorem contains (hx : x.Derives .value a) (hy : y.Derives .value b) :
    (word "(CHARINDEX(" ++ y ++ word ", " ++ x ++ word ") > 0)").Derives .predicate
      [.node (.function .contains) (a ++ b)] := by
  obtain ⟨d, rfl, hd⟩ := hx
  obtain ⟨e, rfl, he⟩ := hy
  exact ⟨.contains e d, rfl, fun params level =>
    (((he params level).enclosed _ _).append (hd params level)).append (.word _)⟩

theorem ifNull (hx : x.Derives .value a) (hy : y.Derives .value b) :
    (word "ISNULL(" ++ x ++ word ", " ++ y ++ word ")").Derives .value
      [.node (.function .ifNull) (a ++ b)] := by
  obtain ⟨d, rfl, hd⟩ := hx
  obtain ⟨e, rfl, he⟩ := hy
  refine ⟨.call .isNull (.operand d (.operand e .none)), ?_, fun params level => ?_⟩
  · show [OperatorTree.node (.function .ifNull) (d.operators ++ (e.operators ++ []))] = _
    rw [List.append_nil]
  refine ((((hd params level).enclosed _ _).append (he params level)).append (.word _)).of_eq ?_
  show _ = "ISNULL(" ++ (d.text params level ++ ", " ++ e.text params level) ++ ")"
  simp only [String.append_assoc]

theorem xmlValue {key : String} {path : Expr} {result : ValueType}
    (h : (xmlValueCall key x path result).failure = none) :
    ∃ p type, constantPath? path = some p ∧ defaultType result = .ok type ∧ x.failure = none ∧
      ∀ a, x.Derives .value a →
        (xmlValueCall key x path result).Derives .value [.node (.xmlValue p type) a] := by
  unfold xmlValueCall at *
  cases hp : constantPath? path with
  | none =>
    rw [hp] at h
    cases h
  | some p =>
    rw [hp] at h
    obtain ⟨type, htype, h⟩ := failure_after h
    refine ⟨p, type, rfl, htype, ?_, fun a ⟨d, hop, hd⟩ => ?_⟩
    · simp only [failure_append] at h
      exact h.1.1.1.1.1
    · rw [htype]
      exact ⟨.xmlValue d p type, by rw [Term.operators, hop], fun params level =>
        (((((hd params level).append (.word _)).append (.literal _)).append (.word _)).append
          (.literal _)).append (.word _)⟩

theorem cast (type : SqlType) (hx : x.Derives .value a) :
    (word "CAST(" ++ x ++ word " AS " ++ word type.sql ++ word ")").Derives .value
      [.node (.cast type) a] := by
  obtain ⟨d, rfl, hd⟩ := hx
  exact ⟨.cast d type, rfl, fun params level =>
    (((hd params level).enclosed _ _).append (.word _)).append (.word _)⟩

theorem column {scope : Scope} {c : ColumnRef} (h : (scope.column c).failure = none) :
    ∃ op, scope.columnOperation? c = some op ∧ (scope.column c).Derives .value [.node op []] := by
  unfold Scope.column Scope.columnOperation? at *
  cases haliases : scope.aliases with
  | none => exact ⟨_, rfl, .column none c.field.name, rfl, fun _ _ => .name _⟩
  | some aliases =>
    rw [haliases] at h
    dsimp only at h ⊢
    cases hsource : aliases.get? c.model with
    | none =>
      rw [hsource] at h
      cases h
    | some source =>
      exact ⟨_, rfl, .column (some source) c.field.name, rfl, fun _ _ =>
        ((Lays.name _).append (.word _)).append (.name _)⟩

theorem constant {t : ValueType} {v : Value} (h : (Emission.constant t v).failure = none) :
    ∃ op, constantOperation? t v = some op ∧
      (Emission.constant t v).Derives .value [.node op []] := by
  obtain ⟨l, hl, -⟩ := failure_after h
  unfold Emission.constant constantOperation?
  rw [hl]
  exact ⟨.literal l, rfl, .literal l, rfl, fun _ _ => .literal l⟩

theorem param {scope : Scope} {p : Param} (h : (scope.param p).failure = none) :
    ∃ op, scope.paramOperation? p = some op ∧ (scope.param p).Derives .value [.node op []] := by
  unfold Scope.param Scope.paramOperation? at *
  cases hb : scope.inlined with
  | none => exact ⟨_, rfl, .placeholder p, rfl, fun _ _ => .placeholder p⟩
  | some bindings =>
    rw [hb] at h
    exact constant h

theorem operands_cons {t : OperatorTree} (hx : x.Derives .value [t]) {items : List Emission}
    {trees : List OperatorTree}
    (h : List.Forall₂ (fun x t => x.Derives .value [t]) items trees) :
    ∃ (d : Term .value) (rest : Term .operands), (Term.operand d rest).operators = t :: trees ∧
      ∀ params level, (listed (x :: items)).Lays params level
        ((Term.operand d rest).text params level) := by
  induction h generalizing x t with
  | nil =>
    obtain ⟨d, hop, hd⟩ := hx
    exact ⟨d, .none, by rw [Term.operators, hop]; rfl, hd⟩
  | cons hy _ ih =>
    obtain ⟨d, hop, hd⟩ := hx
    obtain ⟨e, rest, hops, hrest⟩ := ih hy
    exact ⟨d, .operand e rest, by rw [Term.operators, hop, hops]; rfl, fun params level =>
      ((hd params level).append (.word _)).append (hrest params level)⟩

theorem operands {items : List Emission} {trees : List OperatorTree}
    (h : List.Forall₂ (fun x t => x.Derives .value [t]) items trees) :
    (listed items).Derives .operands trees := by
  cases h with
  | nil => exact ⟨.none, rfl, fun _ _ => .nothing⟩
  | cons hx hrest =>
    obtain ⟨d, rest, hops, htext⟩ := operands_cons hx hrest
    exact ⟨.operand d rest, hops, htext⟩

end Emission.Derives

/-- An expression that renders in a category derives in it, with its own operators. -/
def Expr.DerivesIn (scope : Scope) (c : Context) (x : Expr) : Prop :=
  (inContext c x.isPredicate (x.node scope)).failure = none →
    ∃ t, x.operators? scope = some t ∧
      (inContext c x.isPredicate (x.node scope)).Derives c.phrase [t]

theorem failure_inContext {context : Context} {isPredicate : Bool} {x : Emission} :
    (inContext context isPredicate x).failure = none ↔ x.failure = none := by
  cases context <;> cases isPredicate <;>
    simp [inContext, failure_append, Emission.word, Emission.piece]

theorem failure_separated {separator : String} {items : List Emission} :
    (separated separator items).failure = none ↔ ∀ x ∈ items, x.failure = none := by
  induction items with
  | nil => simp [separated, nothing]
  | cons x rest ih =>
    cases rest with
    | nil => simp [separated]
    | cons y rest =>
      simp only [separated, failure_append] at ih ⊢
      simp [ih, Emission.word, Emission.piece]

theorem failure_listed {items : List Emission} :
    (listed items).failure = none ↔ ∀ x ∈ items, x.failure = none := failure_separated

namespace Emission.Derives

variable {scope : Scope} {args : List Expr} {x : Emission}

theorem exists_operands (h : ∀ x ∈ args, x.DerivesIn scope .value)
    (hf : (listed (args.map (Expr.value scope))).failure = none) :
    ∃ trees, (args.map (Expr.operators? scope)).mapM id = some trees ∧
      (listed (args.map (Expr.value scope))).Derives .operands trees := by
  have hall : ∃ trees, (args.map (Expr.operators? scope)).mapM id = some trees ∧
      List.Forall₂ (fun x t => x.Derives .value [t]) (args.map (Expr.value scope)) trees := by
    replace hf : ∀ x ∈ args, (x.value scope).failure = none := by
      simpa [failure_listed] using hf
    induction args with
    | nil => exact ⟨[], rfl, .nil⟩
    | cons x rest ih =>
      obtain ⟨t, ht, hx⟩ := h x (by simp) (hf x (by simp))
      obtain ⟨trees, htrees, hrest⟩ :=
        ih (fun y hy => h y (by simp [hy])) (fun y hy => hf y (by simp [hy]))
      refine ⟨t :: trees, ?_, .cons hx hrest⟩
      rw [List.map_cons, List.mapM_cons, ht, htrees]
      rfl
  obtain ⟨trees, htrees, hall⟩ := hall
  exact ⟨trees, htrees, operands hall⟩

theorem call (f : SqlFunction) (h : ∀ y ∈ args, y.DerivesIn scope .value)
    (hf : (listed (args.map (Expr.value scope))).failure = none)
    (htext : ∀ params level s, (listed (args.map (Expr.value scope))).Lays params level s →
      x.Lays params level (f.opening ++ s ++ f.closing)) :
    ∃ t, ((args.map (Expr.operators? scope)).mapM id).map (.node (.function f.builtin)) = some t ∧
      x.Derives .value [t] := by
  obtain ⟨trees, htrees, d, rfl, hd⟩ := exists_operands h hf
  exact ⟨_, by rw [htrees]; rfl, .call f d, rfl, fun params level => htext _ _ _ (hd params level)⟩

theorem callOf (f : SqlFunction) {function : String} (h : ∀ y ∈ args, y.DerivesIn scope .value)
    (hf : (Tsql.callOf function (args.map (Expr.value scope))).failure = none)
    (hopening : function ++ "(" = f.opening) (hclosing : ")" = f.closing) :
    ∃ t, ((args.map (Expr.operators? scope)).mapM id).map (.node (.function f.builtin)) = some t ∧
      (Tsql.callOf function (args.map (Expr.value scope))).Derives .value [t] := by
  refine call f h (failure_append.1 (failure_append.1 hf).1).2 fun params level s hs => ?_
  rw [← hopening, ← hclosing]
  exact (((Lays.word _).append (.word _)).append hs).append (.word _)

theorem windowed (f : SqlFunction) {function : String} (h : ∀ y ∈ args, y.DerivesIn scope .value)
    (hf : (Tsql.callOf function (args.map (Expr.value scope)) ++ word " " ++
      word wholeWindow).failure = none)
    (hopening : function ++ "(" = f.opening) (hclosing : ") " ++ wholeWindow = f.closing) :
    ∃ t, ((args.map (Expr.operators? scope)).mapM id).map (.node (.function f.builtin)) = some t ∧
      (Tsql.callOf function (args.map (Expr.value scope)) ++ word " " ++ word wholeWindow).Derives
        .value [t] := by
  obtain ⟨hf, -⟩ := failure_append.1 (failure_append.1 hf).1
  refine call f h (failure_append.1 (failure_append.1 hf).1).2 fun params level s hs => ?_
  rw [← hopening, ← hclosing]
  refine Lays.of_eq (((((((Lays.word function).append (.word "(")).append hs).append
    (.word ")"))).append (.word " ")).append (.word wholeWindow)) ?_
  simp [String.append_assoc]

theorem constantCall (f : SqlFunction) {s : String} (hs : f.opening ++ "" ++ f.closing = s) :
    (word s).Derives .value [.node (.function f.builtin) []] :=
  ⟨.call f .none, rfl, fun _ _ => (Lays.word s).of_eq hs.symm⟩

theorem isPredicate_call {key : String} {b : Builtin} (hb : Builtin.ofName? key = some b)
    (args : List Expr) (result : ValueType) : (Expr.call key args result).isPredicate =
      (b == .isNull || b == .isNotNull || b == .contains) := by
  have hkey : b.name = key := by simpa using List.find?_some hb
  subst hkey
  cases b <;> rfl

theorem mapM_one {y : Option OperatorTree} {t : OperatorTree} (hy : y = some t)
    {f : List OperatorTree → OperatorTree} : ([y].mapM id).map f = some (f [t]) := by
  rw [hy]
  rfl

theorem mapM_two {y z : Option OperatorTree} {t u : OperatorTree} (hy : y = some t)
    (hz : z = some u) {f : List OperatorTree → OperatorTree} :
    ([y, z].mapM id).map f = some (f [t, u]) := by
  rw [hy, hz]
  rfl

theorem function (h : ∀ x ∈ args, x.DerivesIn scope .value) (key : String) (result : ValueType)
    (hf : (scope.function key args (args.map (Expr.value scope)) result).failure = none) :
    ∃ t, callOperators? key args (args.map (Expr.operators? scope)) result = some t ∧
      (scope.function key args (args.map (Expr.value scope)) result).Derives
        (Context.natural (Expr.call key args result).isPredicate).phrase [t] := by
  unfold Scope.function callOperators? at *
  cases hb : Builtin.ofName? key with
  | none =>
    rw [hb] at hf
    cases hf
  | some b =>
    rw [hb] at hf
    rw [isPredicate_call hb]
    -- By the number of operands: every other function fails in each case.
    rcases args with _ | ⟨x, _ | ⟨y, _ | ⟨z, rest⟩⟩⟩
    · cases b with
      | now => exact ⟨_, rfl, constantCall .getDate (by decide)⟩
      | utcNow => exact ⟨_, rfl, constantCall .getUtcDate (by decide)⟩
      | newGuid => exact ⟨_, rfl, constantCall .newId (by decide)⟩
      | countRows => exact ⟨_, rfl, constantCall .countRows (by decide)⟩
      | _ => cases hf
    · cases b with
      | isNull =>
        obtain ⟨t, ht, hx⟩ := h x (by simp) (failure_append.1 (failure_append.1 hf).1).2
        exact ⟨_, mapM_one ht, enclosed .isNull (fun _ => rfl) (fun _ _ _ => rfl) hx⟩
      | isNotNull =>
        obtain ⟨t, ht, hx⟩ := h x (by simp) (failure_append.1 (failure_append.1 hf).1).2
        exact ⟨_, mapM_one ht, enclosed .isNotNull (fun _ => rfl) (fun _ _ _ => rfl) hx⟩
      | average => exact callOf .avg h hf (by decide) rfl
      | count => exact callOf .count h hf (by decide) rfl
      | max => exact callOf .max h hf (by decide) rfl
      | min => exact callOf .min h hf (by decide) rfl
      | sum => exact callOf .sum h hf (by decide) rfl
      | first => exact windowed .firstValue h hf (by decide) rfl
      | last => exact windowed .lastValue h hf (by decide) rfl
      | trim =>
        change (ite _ _ _ : Emission).failure = none at hf
        show ∃ t, _ ∧ (ite _ _ _ : Emission).Derives _ _
        split_ifs at hf ⊢
        · exact callOf .trim h hf (by decide) rfl
        · exact call .leftAndRightTrim h (failure_append.1 (failure_append.1 hf).1).2
            fun _ _ _ hs => hs.enclosed _ _
      | _ => cases hf
    · cases b with
      | ifNull =>
        obtain ⟨hfx, hfy⟩ := failure_append.1 (failure_append.1 hf).1
        obtain ⟨t, ht, hx⟩ := h x (by simp) (failure_append.1 (failure_append.1 hfx).1).2
        obtain ⟨u, hu, hy⟩ := h y (by simp) hfy
        exact ⟨_, mapM_two ht hu, ifNull hx hy⟩
      | coalesce => exact callOf .coalesce h hf (by decide) rfl
      | contains =>
        obtain ⟨hfy, hfx⟩ := failure_append.1 (failure_append.1 hf).1
        obtain ⟨t, ht, hx⟩ := h x (by simp) hfx
        obtain ⟨u, hu, hy⟩ := h y (by simp) (failure_append.1 (failure_append.1 hfy).1).2
        exact ⟨_, mapM_two ht hu, contains hx hy⟩
      | xmlValue =>
        obtain ⟨p, type, hp, htype, hfx, hderives⟩ := xmlValue hf
        obtain ⟨t, ht, hx⟩ := h x (by simp) hfx
        refine ⟨_, ?_, hderives _ hx⟩
        show (defaultType result).toOption.bind (fun type => (constantPath? y).bind fun p =>
          (x.operators? scope).bind fun t => some (OperatorTree.node (.xmlValue p type) [t])) = _
        rw [htype, hp, ht]
        rfl
      | stringAgg =>
        change (stringAggCall _ _ _).failure = none at hf
        show ∃ t, _ ∧ (stringAggCall _ _ _).Derives _ _
        unfold stringAggCall at hf ⊢
        split_ifs at hf ⊢
        · exact callOf .stringAgg h hf (by decide) rfl
        · cases hf
      | _ => cases hf
    · cases b with
      | coalesce =>
        change (ite _ _ _ : Emission).failure = none at hf
        show ∃ t, _ ∧ (ite _ _ _ : Emission).Derives _ _
        split_ifs at hf ⊢
        · exact callOf .coalesce h hf (by decide) rfl
        · cases hf
      | _ => cases hf

end Emission.Derives

/-! ### Branches -/

/-- A rendering has the text of a derivation, which may begin with the end of a line. -/
def Emission.Extends (x : Emission) (p : Phrase) (operators : List OperatorTree) : Prop :=
  ∃ d : Term p, d.operators = operators ∧
    ∀ params level, x.Continues params level (d.text params level)

def Context.branches (c : Context) (whens : List (Expr × Expr)) : Phrase :=
  if whens.isEmpty then .tail c else .branches c

theorem Context.branches_of_length {c : Context} {whens : List (Expr × Expr)}
    (h : whens.length ≠ 0) : c.branches whens = .branches c := by
  cases whens with
  | nil => exact absurd rfl h
  | cons when rest => rfl

theorem failure_caseOf {on branches otherwise : Emission} {branchCount : Nat}
    (h : (caseOf on branches otherwise branchCount).failure = none) : branchCount ≠ 0 ∧
      on.failure = none ∧ branches.failure = none ∧ otherwise.failure = none := by
  unfold caseOf at h
  split_ifs at h with hpos
  · cases h
  · simp only [failure_append] at h
    exact ⟨hpos, h.1.1.1.1.1.1.2, h.1.1.1.1.2, h.1.1.1.2⟩

namespace Emission.Extends

variable {x y z : Emission} {a b ops : List OperatorTree} {c : Context}

theorem toTail {whens : List (Expr × Expr)} (h : x.Extends (c.branches whens) ops) :
    x.Extends (.tail c) ops := by
  cases whens with
  | nil => exact h
  | cons when rest =>
    obtain ⟨d, hop, hd⟩ := h
    exact ⟨.more d, hop, hd⟩

theorem branch (hx : x.Derives c.phrase a) (hy : y.Derives .value b) (hz : z.Extends (.tail c) ops) :
    (branchOf x y ++ z).Extends (.branches c) (.node .branch (a ++ b) :: ops) := by
  obtain ⟨d, rfl, hd⟩ := hx
  obtain ⟨e, rfl, he⟩ := hy
  obtain ⟨f, rfl, hf⟩ := hz
  exact ⟨.branch d e f, rfl, fun params level =>
    (Continues.branchOf (hd params level) (he params level)).append (hf params level)⟩

theorem otherwise (hx : x.Derives .value a) :
    (line ++ word "ELSE " ++ x).Extends (.tail c) [.node .otherwise a] := by
  obtain ⟨d, rfl, hd⟩ := hx
  exact ⟨.otherwise d, rfl, fun params level =>
    (Continues.lineWord (by decide)).append (hd params level).continues⟩

end Emission.Extends

namespace Emission.Derives

variable {x y z : Emission} {a ops : List OperatorTree} {branchCount : Nat}

theorem searchedCase (h : (y ++ z).Extends (.branches .predicate) ops) (hpos : branchCount ≠ 0) :
    (caseOf nothing y z branchCount).Derives .value [.node (.case false) ops] := by
  obtain ⟨d, rfl, hd⟩ := h
  refine ⟨.searchedCase d, rfl, fun params level => ?_⟩
  exact (Lays.nothing.caseOf (hd params (level + 1)) hpos).of_eq rfl

theorem simpleCase (hx : x.Derives .value a) (h : (y ++ z).Extends (.branches .value) ops)
    (hpos : branchCount ≠ 0) :
    (caseOf (word " " ++ x) y z branchCount).Derives .value [.node (.case true) (a ++ ops)] := by
  obtain ⟨d, rfl, hd⟩ := hx
  obtain ⟨e, rfl, he⟩ := h
  refine ⟨.simpleCase d e, rfl, fun params level => ?_⟩
  refine (((Lays.word " ").append (hd params level)).caseOf (he params (level + 1)) hpos).of_eq ?_
  rw [← String.append_assoc]
  rfl

end Emission.Derives

/-! ### Trees -/

/-- An expression that renders derives in its own category, with its operators. -/
def Expr.NodeDerives (scope : Scope) (x : Expr) : Prop :=
  (x.node scope).failure = none → ∃ t, x.operators? scope = some t ∧
    (x.node scope).Derives (Context.natural x.isPredicate).phrase [t]

theorem Expr.NodeDerives.derivesIn {scope : Scope} {x : Expr} (hx : x.NodeDerives scope)
    (c : Context) : x.DerivesIn scope c := by
  intro h
  obtain ⟨t, ht, hx⟩ := hx (failure_inContext.1 h)
  exact ⟨t, ht, hx.inContext c⟩

theorem argOperators_eq_map (scope : Scope) (args : List Expr) :
    argOperators scope args = args.map (Expr.operators? scope) := by
  induction args with
  | nil => rfl
  | cons x r ih => rw [argOperators, ih, List.map_cons]

mutual

theorem Expr.node_derives (scope : Scope) (x : Expr) : x.NodeDerives scope := by
  unfold Expr.NodeDerives
  match x with
  | .binary kind l r =>
    rw [Expr.node, Expr.operators?, Expr.isPredicate]
    intro h
    dsimp only [infixed] at h
    simp only [failure_append] at h
    obtain ⟨t, ht, hl⟩ := (l.node_derives scope).derivesIn _ h.1.1.1.1.1.2
    obtain ⟨u, hu, hr⟩ := (r.node_derives scope).derivesIn _ h.1.2
    exact ⟨_, by rw [ht, hu]; rfl, Derives.infixed kind hl hr⟩
  | .unary .negate x =>
    rw [Expr.node, Expr.operators?]
    intro h
    obtain ⟨t, ht, hx⟩ := (x.node_derives scope).derivesIn .value
      (failure_append.1 (failure_append.1 h).1).2
    exact ⟨_, by rw [ht]; rfl, Derives.enclosed .negated (fun _ => rfl) (fun _ _ _ => rfl) hx⟩
  | .unary .not x =>
    rw [Expr.node, Expr.operators?]
    intro h
    obtain ⟨t, ht, hx⟩ := (x.node_derives scope).derivesIn .predicate
      (failure_append.1 (failure_append.1 h).1).2
    exact ⟨_, by rw [ht]; rfl, Derives.enclosed .negation (fun _ => rfl) (fun _ _ _ => rfl) hx⟩
  | .unary .onesComplement x =>
    rw [Expr.node, Expr.operators?]
    intro h
    obtain ⟨t, ht, hx⟩ := (x.node_derives scope).derivesIn .value
      (failure_append.1 (failure_append.1 h).1).2
    exact ⟨_, by rw [ht]; rfl, Derives.enclosed .complemented (fun _ => rfl) (fun _ _ _ => rfl) hx⟩
  | .case none whens otherwise =>
    rw [Expr.node, Expr.operators?, onText, onOperators?]
    intro h
    obtain ⟨hpos, -, hwhens, hother⟩ := failure_caseOf h
    obtain ⟨others, hothers, hz⟩ := else_derives scope .predicate otherwise hother
    obtain ⟨trees, htrees, hbody⟩ := whens_derive scope .predicate whens hz hwhens
    rw [Context.branches_of_length hpos] at hbody
    exact ⟨_, by rw [htrees, hothers]; rfl, Derives.searchedCase hbody hpos⟩
  | .case (some on) whens otherwise =>
    rw [Expr.node, Expr.operators?, onText, onOperators?]
    intro h
    obtain ⟨hpos, hon, hwhens, hother⟩ := failure_caseOf h
    obtain ⟨t, ht, hx⟩ := (on.node_derives scope).derivesIn .value (failure_append.1 hon).2
    obtain ⟨others, hothers, hz⟩ := else_derives scope .value otherwise hother
    obtain ⟨trees, htrees, hbody⟩ := whens_derive scope .value whens hz hwhens
    rw [Context.branches_of_length hpos] at hbody
    exact ⟨_, by rw [ht, htrees, hothers]; rfl, Derives.simpleCase hx hbody hpos⟩
  | .cast x target =>
    rw [Expr.node, Expr.operators?]
    intro h
    obtain ⟨type, htype, h⟩ := failure_after h
    simp only [failure_append] at h
    obtain ⟨t, ht, hx⟩ := (x.node_derives scope).derivesIn .value h.1.1.1.2
    rw [htype]
    exact ⟨_, by rw [ht]; rfl, Derives.cast type hx⟩
  | .column c =>
    rw [Expr.node, Expr.operators?]
    intro h
    obtain ⟨op, hop, hc⟩ := Derives.column h
    exact ⟨_, by rw [hop]; rfl, hc⟩
  | .constant v t =>
    rw [Expr.node, Expr.operators?]
    intro h
    obtain ⟨op, hop, hc⟩ := Derives.constant h
    exact ⟨_, by rw [hop]; rfl, hc⟩
  | .param p =>
    rw [Expr.node, Expr.operators?]
    intro h
    obtain ⟨op, hop, hc⟩ := Derives.param h
    exact ⟨_, by rw [hop]; rfl, hc⟩
  | .call key args result =>
    rw [Expr.node, Expr.operators?, argTexts_eq_map, argOperators_eq_map]
    exact Derives.function (args_derive scope args) key result

theorem whens_derive (scope : Scope) (c : Context) (whens : List (Expr × Expr)) {z : Emission}
    {ops : List OperatorTree} (hz : z.Extends (.tail c) ops)
    (h : (whensText scope c whens).failure = none) :
    ∃ trees, whensOperators? scope whens = some trees ∧
      (whensText scope c whens ++ z).Extends (c.branches whens) (trees ++ ops) := by
  match whens with
  | [] =>
    rw [whensText]
    exact ⟨[], rfl, hz⟩
  | (x, y) :: rest =>
    rw [whensText] at h ⊢
    rw [whensOperators?]
    obtain ⟨hbranch, hrest⟩ := failure_append.1 h
    dsimp only [branchOf] at hbranch
    simp only [failure_append] at hbranch
    obtain ⟨t, ht, hx⟩ := (x.node_derives scope).derivesIn c hbranch.1.1.2
    obtain ⟨u, hu, hy⟩ := (y.node_derives scope).derivesIn .value hbranch.2
    obtain ⟨trees, htrees, hbody⟩ := whens_derive scope c rest hz hrest
    rw [append_assoc]
    exact ⟨.node .branch [t, u] :: trees, by rw [ht, hu, htrees]; rfl,
      Extends.branch hx hy hbody.toTail⟩

theorem else_derives (scope : Scope) (c : Context) (otherwise : Option Expr)
    (h : (elseText scope otherwise).failure = none) :
    ∃ trees, elseOperators? scope otherwise = some trees ∧
      (elseText scope otherwise).Extends (.tail c) trees := by
  match otherwise with
  | none => exact ⟨[], rfl, .done, rfl, fun _ _ => Lays.nothing.continues⟩
  | some x =>
    rw [elseText] at h ⊢
    rw [elseOperators?]
    obtain ⟨t, ht, hx⟩ := (x.node_derives scope).derivesIn .value (failure_append.1 h).2
    exact ⟨_, by rw [ht]; rfl, Extends.otherwise hx⟩

theorem args_derive (scope : Scope) (args : List Expr) :
    ∀ x ∈ args, x.DerivesIn scope .value := by
  match args with
  | [] =>
    intro x hx
    cases hx
  | y :: rest =>
    have hy := (y.node_derives scope).derivesIn .value
    intro x hx
    rcases List.mem_cons.1 hx with rfl | hx
    · exact hy
    · exact args_derive scope rest x hx

end

namespace Expr

theorem derivesIn (scope : Scope) (c : Context) (x : Expr) : x.DerivesIn scope c :=
  (x.node_derives scope).derivesIn c

/-- An expression that renders as a value is written as a value of the grammar, one that renders as a
condition as a predicate. The operators of the derivation are those of the expression. -/
theorem rendered_derives (scope : Scope) (x : Expr) :
    ((x.value scope).failure = none → ∃ (d : Term .value) (t : OperatorTree),
      x.operators? scope = some t ∧ d.operators = [t] ∧ ∀ params (w : Writer),
        writePieces params w (x.value scope).pieces = w.write (d.text params w.level)) ∧
    ((x.predicate scope).failure = none → ∃ (d : Term .predicate) (t : OperatorTree),
      x.operators? scope = some t ∧ d.operators = [t] ∧ ∀ params (w : Writer),
        writePieces params w (x.predicate scope).pieces = w.write (d.text params w.level)) := by
  constructor
  · intro h
    obtain ⟨t, ht, d, hop, hd⟩ := x.derivesIn scope .value h
    exact ⟨d, t, ht, hop, fun params w => (hd params w.level).write w rfl⟩
  · intro h
    obtain ⟨t, ht, d, hop, hd⟩ := x.derivesIn scope .predicate h
    exact ⟨d, t, ht, hop, fun params w => (hd params w.level).write w rfl⟩

/-- An order that is open, which a column says, and holds the text `x` somewhere. -/
def openOrder : Expr :=
  .binary .and (.column ⟨⟨1⟩, ⟨1⟩, "IsOpen", .boolean⟩)
    (contains (.column ⟨⟨1⟩, ⟨2⟩, "Label", .string⟩) (ofValue (.string "x")))

theorem rendered_derives_openOrder :
    (openOrder.value { version := .sql13 }).failure = none ∧
      ∃ d : Term .value,
        d.operators = [.node (.binary .and) [.node (.column none "IsOpen") [],
          .node (.function .contains) [.node (.column none "Label") [],
            .node (.literal (.string true "x")) []]]] ∧
        d.text [] 0 = "CAST(CASE WHEN (([IsOpen] = 1) AND (CHARINDEX(N'x', [Label]) > 0))" ++
          " THEN 1 ELSE 0 END AS BIT)" := by
  have hrenders : (openOrder.value { version := .sql13 }).failure = none := by decide +kernel
  obtain ⟨d, t, ht, hd, htext⟩ := (rendered_derives _ openOrder).1 hrenders
  obtain rfl := Option.some.inj ht
  refine ⟨hrenders, d, hd, ?_⟩
  rw [← Writer.text_write_start (d.text [] 0)]
  exact (congrArg Writer.text (htext [] {})).symm.trans (by decide +kernel)

end Expr

end Tsql
