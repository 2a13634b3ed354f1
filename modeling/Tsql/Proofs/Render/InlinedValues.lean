import Tsql.Proofs.Render.Layout
import Tsql.Proofs.Render.PlainWords
import Tsql.Proofs.Render.TableLayout

/-!
# Values in place of parameters

Where parameters are replaced by their values, an expression is rendered as if it had constants in their
place: `Emission.Inlines` relates such a rendering to the one of `Expr.bound`, and `Expr.node_inlines` goes
through the tree. What decides by the form of an operand, the category of a text and the path of an XML
value, decides alike for both. The pieces have no placeholder and no `@` outside of names and strings
(`Piece.isInline`), so the text has no variable. `Target.rendered_inlined` says this of expressions and of the
expressions in a table definition.
-/

namespace Tsql

open Text Emission

/-! ### Substitution -/

mutual

/-- An expression with the values of its parameters as constants. -/
def Expr.bound (b : Bindings) : Expr → Expr
  | .binary kind l r => .binary kind (l.bound b) (r.bound b)
  | .unary kind x => .unary kind (x.bound b)
  | .case on whens otherwise => .case (boundOption b on) (boundWhens b whens) (boundOption b otherwise)
  | .cast x target => .cast (x.bound b) target
  | .column c => .column c
  | .constant v t => .constant v t
  | .param p => .constant (b.get p.id) p.type
  | .call key args result => .call key (boundArgs b args) result

def boundOption (b : Bindings) : Option Expr → Option Expr
  | none => none
  | some x => some (x.bound b)

def boundWhens (b : Bindings) : List (Expr × Expr) → List (Expr × Expr)
  | [] => []
  | (x, y) :: r => (x.bound b, y.bound b) :: boundWhens b r

def boundArgs (b : Bindings) : List Expr → List Expr
  | [] => []
  | x :: r => x.bound b :: boundArgs b r

end

section

variable (b : Bindings)

@[simp] theorem Expr.isPredicate_bound (x : Expr) : (x.bound b).isPredicate = x.isPredicate := by
  cases x <;> rfl

theorem boundOption_eq_map (x : Option Expr) : boundOption b x = x.map (Expr.bound b) := by
  cases x <;> rfl

theorem boundArgs_eq_map (args : List Expr) : boundArgs b args = args.map (Expr.bound b) := by
  induction args with
  | nil => rfl
  | cons x r ih => rw [boundArgs, ih, List.map_cons]

theorem length_boundWhens (whens : List (Expr × Expr)) : (boundWhens b whens).length = whens.length := by
  induction whens with
  | nil => rfl
  | cons branch r ih => rw [boundWhens, List.length_cons, ih, List.length_cons]

/-- A constant path stays, so a path that is found stays the same. -/
theorem constantPath?_bound {x : Expr} {p : String} (h : constantPath? x = some p) :
    constantPath? (x.bound b) = some p := by
  cases x with
  | constant v t => exact h
  | _ => cases h

end

/-- An expression in the category that its surroundings ask for. -/
def Context.rendering (context : Context) (scope : Scope) (x : Expr) : Emission :=
  inContext context x.isPredicate (x.node scope)

/-! ### Pieces without variables -/

def Piece.isInline : Piece → Bool
  | .word s | .literal (.word s) => !s.toList.contains '@'
  | .placeholder _ => false
  | _ => true

theorem isInline_of_isPlain {s : String} (h : IsPlain s) : (Piece.word s).isInline = true := by
  simp only [Piece.isInline, Bool.not_eq_true', List.contains_eq_mem, decide_eq_false_iff_not]
  intro hmem
  exact absurd (h '@' hmem) (by decide)

/-- All pieces of a rendering without error have a property. -/
def Emission.Consisting (P : Piece → Prop) (x : Emission) : Prop := x.failure = none → ∀ p ∈ x.pieces, P p

namespace Emission.Consisting

variable {P Q : Piece → Prop} {x y : Emission}

theorem piece {p : Piece} (h : P p) : (piece p).Consisting P := by
  intro _ q hq
  rwa [List.mem_singleton.1 hq]

theorem nothing : Emission.nothing.Consisting P := fun _ => nofun

theorem fail (e : Error) : (Emission.fail e).Consisting P := nofun

theorem append (hx : x.Consisting P) (hy : y.Consisting P) : (x ++ y).Consisting P := by
  intro hf p hp
  obtain ⟨hfx, hfy⟩ := failure_append.1 hf
  exact (mem_pieces_append hp).elim (hx hfx p) (hy hfy p)

theorem mono (h : x.Consisting P) (hPQ : ∀ p, P p → Q p) : x.Consisting Q :=
  fun hf p hp => hPQ p (h hf p hp)

theorem after {α : Type} {r : Result α} {f : α → Emission} (h : ∀ a, r = .ok a → (f a).Consisting P) :
    (Emission.after r f).Consisting P := by
  cases r with
  | ok a => exact h a rfl
  | error e => exact fail e

theorem separated {separator : String} (hs : P (.word separator)) {items : List Emission}
    (h : ∀ x ∈ items, x.Consisting P) : (Emission.separated separator items).Consisting P := by
  induction items with
  | nil => exact nothing
  | cons x rest ih =>
    have hx := h x (by simp)
    have hrest := ih fun y hy => h y (by simp [hy])
    cases rest with
    | nil => exact hx
    | cons y rest => exact (hx.append (piece hs)).append hrest

end Emission.Consisting

/-! ### Two renderings of an expression -/

/-- A rendering without variables that another one is equal to, unless it fails. -/
structure Emission.Inlines (x y : Emission) : Prop where
  eq : x.failure = none → y = x
  consisting : x.Consisting fun p => p.isInline = true

namespace Emission.Inlines

variable {x x' y y' z z' : Emission}

theorem refl (h : x.Consisting fun p => p.isInline = true) : x.Inlines x := ⟨fun _ => rfl, h⟩

theorem piece {p : Piece} (h : p.isInline = true) : (piece p).Inlines (piece p) := refl (.piece h)

theorem word {s : String} (h : (Piece.word s).isInline = true) : (Emission.word s).Inlines (.word s) := piece h

theorem name (s : String) : (Emission.name s).Inlines (.name s) := piece rfl

theorem national (s : String) : (Emission.national s).Inlines (.national s) := piece rfl

theorem line : Emission.line.Inlines .line := piece rfl

theorem nothing : Emission.nothing.Inlines .nothing := refl .nothing

theorem fail (e : Error) (y : Emission) : (Emission.fail e).Inlines y := ⟨nofun, .fail e⟩

theorem append (hx : x.Inlines x') (hy : y.Inlines y') : (x ++ y).Inlines (x' ++ y') := by
  refine ⟨fun hf => ?_, hx.consisting.append hy.consisting⟩
  obtain ⟨hfx, hfy⟩ := failure_append.1 hf
  rw [hx.eq hfx, hy.eq hfy]

theorem enclosed {before behind : String} (hbefore : (Piece.word before).isInline = true)
    (hbehind : (Piece.word behind).isInline = true) (hx : x.Inlines x') :
    (Emission.word before ++ x ++ Emission.word behind).Inlines
      (Emission.word before ++ x' ++ Emission.word behind) :=
  ((word hbefore).append hx).append (word hbehind)

theorem after {α : Type} (r : Result α) {f f' : α → Emission} (h : ∀ a, r = .ok a → (f a).Inlines (f' a)) :
    (Emission.after r f).Inlines (Emission.after r f') := by
  cases r with
  | ok a => exact h a rfl
  | error e => exact fail e _

theorem listed {xs ys : List Emission} (h : List.Forall₂ Inlines xs ys) :
    (Emission.listed xs).Inlines (Emission.listed ys) := by
  induction h with
  | nil => exact nothing
  | cons hx hrest ih =>
    cases hrest with
    | nil => exact hx
    | cons hy hrest => exact (hx.append (word (by decide))).append ih

theorem inContext (context : Context) (isPredicate : Bool) (hx : x.Inlines x') :
    (inContext context isPredicate x).Inlines (inContext context isPredicate x') := by
  cases context <;> cases isPredicate
  · exact hx
  · exact hx.enclosed (by decide) (by decide)
  · exact hx.enclosed (by decide) (by decide)
  · exact hx

theorem typeWord {t : ValueType} {type : SqlType} (h : defaultType t = .ok type) :
    (Emission.word type.sql).Inlines (.word type.sql) := word (isInline_of_isPlain (isPlain_defaultType h))

theorem constant (t : ValueType) (v : Value) : (Emission.constant t v).Inlines (.constant t v) := by
  refine refl (.after fun l hl => .piece ?_)
  obtain ⟨type, -, hl⟩ := Result.bind_eq_ok hl
  obtain ⟨_, -, hl⟩ := Result.bind_eq_ok hl
  cases l with
  | string unicode s => rfl
  | word s => exact isInline_of_isPlain (isPlain_storedLiteral hl)

theorem callOf {function : String} (hf : (Piece.word function).isInline = true) {xs ys : List Emission}
    (h : List.Forall₂ Inlines xs ys) : (callOf function xs).Inlines (callOf function ys) :=
  (((word hf).append (word (by decide))).append (listed h)).append (word (by decide))

theorem infixed (kind : BinaryKind) (hx : x.Inlines x') (hy : y.Inlines y') :
    (infixed kind.token x y).Inlines (infixed kind.token x' y') := by
  have htoken : (Piece.word kind.token).isInline = true := by cases kind <;> decide
  exact ((((((word (by decide)).append hx).append (word (by decide))).append (word htoken)).append
    (word (by decide))).append hy).append (word (by decide))

theorem branchOf (hx : x.Inlines x') (hy : y.Inlines y') : (branchOf x y).Inlines (branchOf x' y') :=
  (((line.append (word (by decide))).append hx).append (word (by decide))).append hy

theorem caseOf (branchCount : Nat) (hx : x.Inlines x') (hy : y.Inlines y') (hz : z.Inlines z') :
    (caseOf x y z branchCount).Inlines (caseOf x' y' z' branchCount) := by
  unfold Tsql.caseOf
  split
  · exact fail _ _
  · exact ((((((((word (by decide)).append hx).append (piece rfl)).append hy).append hz).append
      (piece rfl)).append line).append (word (by decide)))

/-- A path that is found is the same for both; where there is none the rendering fails. -/
theorem xmlValueCall (key : String) (b : Bindings) (path : Expr) (result : ValueType) (hx : x.Inlines x') :
    (xmlValueCall key x path result).Inlines (xmlValueCall key x' (path.bound b) result) := by
  unfold Tsql.xmlValueCall
  cases hp : constantPath? path with
  | none => exact fail _ _
  | some p =>
    rw [constantPath?_bound b hp]
    refine after _ fun t _ => ?_
    exact ((((hx.append (word (by decide))).append (national p)).append (word (by decide))).append
      (national t.sql)).append (word (by decide))

end Emission.Inlines

/-! ### Trees -/

def Scope.withValues (s : Scope) (b : Bindings) : Scope := { s with inlined := some b }

def Scope.withPlaceholders (s : Scope) : Scope := { s with inlined := none }

section

variable {s : Scope} {b : Bindings}

theorem Scope.column_inlines (c : ColumnRef) :
    ((s.withValues b).column c).Inlines (s.withPlaceholders.column c) := by
  unfold column withValues withPlaceholders
  cases s.aliases with
  | none => exact .name _
  | some aliases =>
    dsimp only
    cases aliases.get? c.model with
    | none => exact .fail _ _
    | some source => exact ((Inlines.name source).append (.word (by decide))).append (.name _)

theorem isInline_wholeWindow : (Piece.word wholeWindow).isInline = true := by
  rw [Piece.isInline, wholeWindow, String.toList_ofList]
  decide

theorem Scope.function_inlines {args : List Expr}
    (hargs : ∀ x ∈ args, (x.value (s.withValues b)).Inlines ((x.bound b).value s.withPlaceholders)) (key : String)
    (result : ValueType) :
    ((s.withValues b).function key args (args.map (Expr.value (s.withValues b))) result).Inlines
      (s.withPlaceholders.function key (args.map (Expr.bound b))
        ((args.map (Expr.bound b)).map (Expr.value s.withPlaceholders)) result) := by
  have heach : List.Forall₂ Inlines (args.map (Expr.value (s.withValues b)))
      ((args.map (Expr.bound b)).map (Expr.value s.withPlaceholders)) := by
    rw [List.map_map, List.forall₂_map_left_iff, List.forall₂_map_right_iff]
    exact List.forall₂_same.2 hargs
  have hcall {function : String} (hf : (Piece.word function).isInline = true) := Inlines.callOf hf heach
  unfold function
  cases Builtin.ofName? key with
  | none => exact .fail _ _
  | some f =>
    -- By the number of operands: every other function fails in each case.
    rcases args with _ | ⟨x, _ | ⟨y, _ | ⟨z, rest⟩⟩⟩
    · cases f with
      | now | utcNow | newGuid | countRows => exact .word (by decide)
      | _ => exact .fail _ _
    · have hx := hargs x (by simp)
      cases f with
      | isNull | isNotNull => exact hx.enclosed (by decide) (by decide)
      | average | count | max | min | sum => exact hcall (by decide)
      | first | last =>
        exact ((hcall (by decide)).append (.word (by decide))).append (.word isInline_wholeWindow)
      | trim =>
        show Inlines (ite (s.version.has2017Functions = true) _ _)
          (ite (s.version.has2017Functions = true) _ _)
        split
        · exact hcall (by decide)
        · exact hx.enclosed (by decide) (by decide)
      | _ => exact .fail _ _
    · have hx := hargs x (by simp)
      have hy := hargs y (by simp)
      cases f with
      | ifNull =>
        exact ((((Inlines.word (by decide)).append hx).append (.word (by decide))).append hy).append
          (.word (by decide))
      | coalesce => exact hcall (by decide)
      | contains =>
        exact ((((Inlines.word (by decide)).append hy).append (.word (by decide))).append hx).append
          (.word (by decide))
      | xmlValue => exact hx.xmlValueCall key b y result
      | stringAgg =>
        show Inlines (ite (s.version.has2017Functions = true) _ _)
          (ite (s.version.has2017Functions = true) _ _)
        split
        · exact hcall (by decide)
        · exact .fail _ _
      | _ => exact .fail _ _
    · cases f with
      | coalesce =>
        show Inlines (ite _ _ _) (ite _ _ _)
        rw [if_pos (by simp), if_pos (by simp)]
        exact hcall (by decide)
      | _ => exact .fail _ _

mutual

/-- The rendering with the values of parameters is that of the expression with constants in their place. -/
theorem Expr.node_inlines (x : Expr) : (x.node (s.withValues b)).Inlines ((x.bound b).node s.withPlaceholders) := by
  match x with
  | .binary kind l r =>
    rw [Expr.bound, Expr.node, Expr.node, l.isPredicate_bound, r.isPredicate_bound]
    exact .infixed kind (.inContext _ _ (Expr.node_inlines l)) (.inContext _ _ (Expr.node_inlines r))
  | .unary .negate x =>
    rw [Expr.bound, Expr.node, Expr.node, x.isPredicate_bound]
    exact ((Expr.node_inlines x).inContext _ _).enclosed (by decide) (by decide)
  | .unary .not x =>
    rw [Expr.bound, Expr.node, Expr.node, x.isPredicate_bound]
    exact ((Expr.node_inlines x).inContext _ _).enclosed (by decide) (by decide)
  | .unary .onesComplement x =>
    rw [Expr.bound, Expr.node, Expr.node, x.isPredicate_bound]
    exact ((Expr.node_inlines x).inContext _ _).enclosed (by decide) (by decide)
  | .case on whens otherwise =>
    rw [Expr.bound, Expr.node, Expr.node, whenContext, whenContext, boundOption_eq_map, Option.isSome_map,
      ← boundOption_eq_map, length_boundWhens]
    exact .caseOf _ (onText_inlines on) (whensText_inlines _ whens) (elseText_inlines otherwise)
  | .cast x target =>
    rw [Expr.bound, Expr.node, Expr.node, x.isPredicate_bound]
    refine .after _ fun t ht => ?_
    exact ((((Inlines.word (by decide)).append ((Expr.node_inlines x).inContext _ _)).append
      (.word (by decide))).append (.typeWord ht)).append (.word (by decide))
  | .column c => exact Scope.column_inlines c
  | .constant v t => exact .constant t v
  | .param p =>
    rw [Expr.bound, Expr.node, Expr.node]
    exact .constant _ _
  | .call key args result =>
    rw [Expr.bound, Expr.node, Expr.node, argTexts_eq_map, argTexts_eq_map, boundArgs_eq_map]
    exact Scope.function_inlines (args_inlines args) key result

theorem onText_inlines (on : Option Expr) :
    (onText (s.withValues b) on).Inlines (onText s.withPlaceholders (boundOption b on)) := by
  match on with
  | none => exact .nothing
  | some x =>
    rw [boundOption, onText, onText, x.isPredicate_bound]
    exact (Inlines.word (by decide)).append ((Expr.node_inlines x).inContext _ _)

theorem whensText_inlines (context : Context) (whens : List (Expr × Expr)) :
    (whensText (s.withValues b) context whens).Inlines
      (whensText s.withPlaceholders context (boundWhens b whens)) := by
  match whens with
  | [] => exact .nothing
  | (x, y) :: rest =>
    rw [boundWhens, whensText, whensText, x.isPredicate_bound, y.isPredicate_bound]
    exact (((Expr.node_inlines x).inContext _ _).branchOf ((Expr.node_inlines y).inContext _ _)).append
      (whensText_inlines context rest)

theorem elseText_inlines (otherwise : Option Expr) :
    (elseText (s.withValues b) otherwise).Inlines (elseText s.withPlaceholders (boundOption b otherwise)) := by
  match otherwise with
  | none => exact .nothing
  | some x =>
    rw [boundOption, elseText, elseText, x.isPredicate_bound]
    exact (Inlines.line.append (.word (by decide))).append ((Expr.node_inlines x).inContext _ _)

theorem args_inlines (args : List Expr) :
    ∀ x ∈ args, (x.value (s.withValues b)).Inlines ((x.bound b).value s.withPlaceholders) := by
  match args with
  | [] =>
    intro x hx
    cases hx
  | y :: rest =>
    have hy := (Expr.node_inlines y).inContext .value y.isPredicate
    intro x hx
    rcases List.mem_cons.1 hx with rfl | hx
    · rw [Expr.value, Expr.value, x.isPredicate_bound]
      exact hy
    · exact args_inlines rest x hx

end

theorem Context.rendering_inlines (context : Context) (x : Expr) :
    (context.rendering (s.withValues b) x).Inlines (context.rendering s.withPlaceholders (x.bound b)) := by
  rw [rendering, rendering, x.isPredicate_bound]
  exact (Expr.node_inlines x).inContext _ _

end

/-! ### Texts -/

/-- A text does not have a character outside of its tokens. -/
def Text.Avoids (c : Char) (s : String) : Prop := ∃ l, scan s.toList = some l ∧ Lexeme.mark c ∉ l

theorem param?_of_isInline {p : Piece} (h : p.isInline = true) : p.param? = none := by
  cases p with
  | placeholder => cases h
  | _ => rfl

theorem mark_notMem_lexemes (params : List Param) {p : Piece} (h : p.isInline = true) :
    Lexeme.mark '@' ∉ p.lexemes params := by
  have hword {s : String} (hs : (!s.toList.contains '@') = true) : Lexeme.mark '@' ∉ marks s := by
    intro hmem
    obtain ⟨c, hc, hmark⟩ := List.mem_map.1 hmem
    obtain rfl : c = '@' := by simpa using hmark
    simp [hc] at hs
  cases p with
  | word s => exact hword h
  | literal l =>
    cases l with
    | word s => exact hword h
    | string unicode s => cases unicode <;> simp [Piece.lexemes]
  | placeholder => cases h
  | name | line | indent | outdent => simp [Piece.lexemes]

section

variable {pieces : List Piece} (h : ∀ p ∈ pieces, p.param? = none)

include h

theorem numbering_eq_known (known : List Param) : Piece.numbering known pieces = known := by
  rw [Piece.numbering_eq, List.filterMap_eq_nil_iff.2 h]
  rfl

theorem writePieces_eq_of_param? (params params' : List Param) (w : Writer) :
    writePieces params w pieces = writePieces params' w pieces := by
  induction pieces generalizing w with
  | nil => rfl
  | cons p rest ih =>
    have hp : p.write params w = p.write params' w := by
      cases p with
      | placeholder q => exact absurd (h (.placeholder q) (by simp)) (by simp [Piece.param?])
      | _ => rfl
    show writePieces params (p.write params w) rest = writePieces params' (p.write params' w) rest
    rw [hp]
    exact ih (fun q hq => h q (by simp [hq])) _

end

theorem Emission.Lays.written_nil {x : Emission} {s : String} (hx : x.Lays [] 0 s)
    (h : ∀ p ∈ x.pieces, p.param? = none) : x.written [] = ⟨s, [], none⟩ := by
  rw [written, numbering_eq_known h, hx.writePieces_start, hx.failure_eq]

theorem sqlText_of_written {x : Emission} {s : String} {params : List Param}
    (h : x.written [] = ⟨s, params, none⟩) : x.sqlText = .ok ⟨s, params⟩ := by
  rw [sqlText, h]

/-- A survey of an expression's text. -/
theorem Context.exists_survey {context : Context} {scope : Scope} {x : Expr}
    (hf : (context.rendering scope x).failure = none) (params : List Param) :
    ∃ t, Survey.run {} ((context.rendering scope x).lexemes params) = some t := by
  cases context with
  | value =>
    obtain ⟨last, -, hrun⟩ := (x.value_spells scope).harmless .loose rfl hf params {} rfl
    exact ⟨_, hrun⟩
  | predicate =>
    obtain ⟨last, -, hrun⟩ := (x.predicate_spells scope).harmless .loose rfl hf params {} rfl
    exact ⟨_, hrun⟩

/-- The text of an expression with values in place of parameters has no variable. -/
theorem Context.avoids_rendering {context : Context} {s : Scope} {b : Bindings} {x : Expr}
    (hf : (context.rendering (s.withValues b) x).failure = none) (params : List Param) :
    Avoids '@' (writePieces params {} (context.rendering (s.withValues b) x).pieces).text := by
  obtain ⟨t, ht⟩ := context.exists_survey hf params
  obtain ⟨l, hscan, hmem⟩ := Emission.exists_scan_written ht
  refine ⟨l, hscan, fun hmark => ?_⟩
  obtain ⟨p, hp, hmark⟩ := List.mem_flatMap.1 ((hmem _ hmark).resolve_left (by simp))
  exact mark_notMem_lexemes params ((context.rendering_inlines x).consisting hf p hp) hmark

theorem Context.written_eq {context : Context} {s : Scope} {b : Bindings} {x : Expr}
    (hf : (context.rendering (s.withValues b) x).failure = none) :
    ∃ text, Avoids '@' text ∧ ∀ known,
      (context.rendering (s.withValues b) x).written known = ⟨text, known, none⟩ ∧
      (context.rendering s.withPlaceholders (x.bound b)).written known = ⟨text, known, none⟩ := by
  have hinlines := context.rendering_inlines (s := s) (b := b) x
  have hparam : ∀ p ∈ (context.rendering (s.withValues b) x).pieces, p.param? = none :=
    fun p hp => param?_of_isInline (hinlines.consisting hf p hp)
  have hwritten (known : List Param) : (context.rendering (s.withValues b) x).written known =
      ⟨(writePieces [] {} (context.rendering (s.withValues b) x).pieces).text, known, none⟩ := by
    rw [Emission.written, numbering_eq_known hparam, writePieces_eq_of_param? hparam known [], hf]
  refine ⟨_, context.avoids_rendering hf [], fun known => ⟨hwritten known, ?_⟩⟩
  rw [hinlines.eq hf, hwritten]

/-! ### Expressions in a definition -/

/-- An expression between two texts. -/
structure Embedded where
  opening : String
  context : Context
  expr : Expr
  closing : String

/-- The expression of a column: its computation, or else its default. A temporary table stores its computed
columns. -/
def Column.embedded (isTemp : Bool) (c : Column) : List Embedded :=
  match c.computation, isTemp with
  | some x, false => [⟨" AS (", .value, x, ")"⟩]
  | _, _ => c.default.toList.map fun x => ⟨" DEFAULT(", .value, x, ")"⟩

def Constraint.embedded (c : Constraint) : List Embedded :=
  match c.body with
  | .check x => [⟨"CHECK ", .predicate, x, ""⟩]
  | _ => []

def Model.embedded (m : Model) (isTemp : Bool) : List Embedded :=
  m.columns.flatMap (Column.embedded isTemp) ++ m.constraints.flatMap Constraint.embedded

/-- A text has an expression in it, with what stands around it. -/
def Embedded.StandsIn (e : Embedded) (scope : Scope) (params : List Param) (s : String) : Prop :=
  ∃ before part behind, s = before ++ e.opening ++ part ++ e.closing ++ behind ∧
    (e.context.rendering scope e.expr).Lays params 0 part

section

variable {t : Target} {b : Bindings} {m : Model} {isTemp : Bool} {scope : Scope} {params : List Param}
  {e : Embedded} {s : String}

theorem Embedded.StandsIn.within (h : e.StandsIn scope params s) (before behind : String) :
    e.StandsIn scope params (before ++ s ++ behind) := by
  obtain ⟨first, part, last, rfl, hpart⟩ := h
  exact ⟨before ++ first, part, last ++ behind, by simp only [String.append_assoc], hpart⟩

theorem standsIn_storedColumn {c : Column} {x : Expr} (hx : c.default = some x)
    (h : (t.storedColumn scope c).Lays params 0 s) :
    Embedded.StandsIn ⟨" DEFAULT(", .value, x, ")"⟩ scope params s := by
  obtain ⟨type, default, hdefault, hstored⟩ := Lays.exists_storedColumn h.failure_eq params 0
  rw [hx] at hdefault
  obtain ⟨part, hpart⟩ := Lays.exists_inContext (c := .value)
    (failure_append.1 (failure_append.1 hdefault.failure_eq).1).2 params 0
  obtain rfl := hdefault.unique (hpart.enclosed " DEFAULT(" ")")
  obtain rfl := h.unique hstored
  exact ⟨quoteIdentifier c.name ++ " " ++ type.sql ++ (if c.nullable then " NULL" else " NOT NULL"), part,
    identityText c.identity, by simp only [storedColumnText, String.append_assoc], hpart⟩

theorem standsIn_columnDefinition {c : Column} (he : e ∈ c.embedded isTemp)
    (h : (t.columnDefinition scope isTemp c).Lays params 0 s) : e.StandsIn scope params s := by
  have hstored (he : e ∈ c.default.toList.map fun x => ⟨" DEFAULT(", .value, x, ")"⟩)
      (h : (t.storedColumn scope c).Lays params 0 s) : e.StandsIn scope params s := by
    obtain ⟨x, hx, rfl⟩ := List.mem_map.1 he
    exact standsIn_storedColumn (Option.mem_toList.1 hx) h
  rw [Target.columnDefinition.eq_def] at h
  rw [Column.embedded.eq_def] at he
  cases hc : c.computation with
  | none =>
    rw [hc] at h he
    exact hstored he h
  | some x =>
    rw [hc] at h he
    cases isTemp with
    | true => exact hstored he h
    | false =>
      obtain rfl := List.mem_singleton.1 he
      obtain ⟨part, hpart⟩ := Lays.exists_inContext (c := .value)
        (failure_append.1 (failure_append.1 h.failure_eq).1).2 params 0
      obtain rfl := h.unique ((((Lays.name c.name).append (.word " AS (")).append hpart).append (.word ")"))
      exact ⟨_, part, "", by rw [String.append_empty], hpart⟩

theorem standsIn_constraintDefinition {c : Constraint} (he : e ∈ c.embedded) :
    ∃ x, constraintDefinition? scope isTemp c = some x ∧
      ∀ s, x.Lays params 0 s → e.StandsIn scope params s := by
  unfold Constraint.embedded at he
  cases hc : c.body with
  | check condition =>
    rw [hc] at he
    obtain rfl := List.mem_singleton.1 he
    refine ⟨constraintHead c.name? isTemp ++ word "CHECK " ++ condition.predicate scope,
      by simp only [constraintDefinition?, hc], fun s h => ?_⟩
    obtain ⟨part, hpart⟩ := Lays.exists_inContext (c := .predicate) (failure_append.1 h.failure_eq).2
      params 0
    obtain rfl := h.unique (((Lays.constraintHead c.name? isTemp).append (.word "CHECK ")).append hpart)
    exact ⟨_, part, "", by rw [String.append_empty, String.append_empty], hpart⟩
  | _ =>
    rw [hc] at he
    cases he

/-- Every expression of a model stands in one of the parts of its definition. -/
theorem exists_standsIn_tableParts (he : e ∈ m.embedded isTemp) :
    ∃ x ∈ t.tableParts b m isTemp, ∀ s, x.Lays params 0 s → e.StandsIn (t.inlineScope b) params s := by
  rcases List.mem_append.1 he with he | he
  · obtain ⟨c, hc, he⟩ := List.mem_flatMap.1 he
    refine ⟨t.columnDefinition (t.inlineScope b) isTemp c, ?_, fun s h => standsIn_columnDefinition he h⟩
    simp only [Target.tableParts, List.mem_append, List.mem_map]
    exact .inl (.inl (.inl ⟨c, hc, rfl⟩))
  · obtain ⟨c, hc, he⟩ := List.mem_flatMap.1 he
    obtain ⟨x, hx, hstands⟩ := standsIn_constraintDefinition he
    refine ⟨x, ?_, hstands⟩
    simp only [Target.tableParts, List.mem_append, List.mem_filterMap]
    exact .inl (.inr ⟨c, hc, hx⟩)

end

theorem exists_intercalate_of_mem (separator : String) {s : String} {items : List String} (h : s ∈ items) :
    ∃ before behind, separator.intercalate items = before ++ s ++ behind := by
  induction items with
  | nil => cases h
  | cons first rest ih =>
    cases rest with
    | nil =>
      obtain rfl := List.mem_singleton.1 h
      exact ⟨"", "", by simp⟩
    | cons second rest =>
      rw [String.intercalate_cons_cons]
      rcases List.mem_cons.1 h with rfl | h
      · exact ⟨"", separator ++ separator.intercalate (second :: rest), by
          simp only [String.empty_append, String.append_assoc]⟩
      · obtain ⟨before, behind, hrest⟩ := ih h
        exact ⟨first ++ separator ++ before, behind, by rw [hrest]; simp only [String.append_assoc]⟩

theorem Embedded.StandsIn.definitionText {e : Embedded} {scope : Scope} {params : List Param} {s : String}
    (h : e.StandsIn scope params s) {table : String} {items calls : List String} (hs : s ∈ items) :
    e.StandsIn scope params (definitionText table items calls) := by
  obtain ⟨before, behind, hitems⟩ := exists_intercalate_of_mem ",\n    " hs
  have hwithin := h.within ("CREATE TABLE " ++ table ++ " (\n    " ++ before)
    (behind ++ "\n);" ++ String.join (calls.map ("\n" ++ ·)))
  unfold Tsql.definitionText
  rw [hitems]
  simpa only [String.append_assoc] using hwithin

/-! ### Definitions without parameters -/

def Emission.Unbound (x : Emission) : Prop := x.Consisting fun p => p.param? = none

namespace Emission.Unbound

variable {t : Target} {b : Bindings}

theorem word (s : String) : (Emission.word s).Unbound := .piece rfl

theorem name (s : String) : (Emission.name s).Unbound := .piece rfl

theorem national (s : String) : (Emission.national s).Unbound := .piece rfl

theorem separated (separator : String) {items : List Emission} (h : ∀ x ∈ items, x.Unbound) :
    (Emission.separated separator items).Unbound :=
  Consisting.separated (P := fun p => p.param? = none) rfl h

theorem names (items : List String) : (Emission.names items).Unbound := by
  refine separated _ fun x hx => ?_
  obtain ⟨s, -, rfl⟩ := List.mem_map.1 hx
  exact name s

theorem expr (context : Context) (x : Expr) : (context.rendering (t.inlineScope b) x).Unbound :=
  (context.rendering_inlines (s := { version := t.version }) x).consisting.mono
    fun _ => param?_of_isInline

theorem qualified (schema : Option String) (table : String) : (Tsql.qualified schema table).Unbound := by
  cases schema with
  | none => exact name _
  | some s => exact ((name s).append (word ".")).append (name table)

theorem keyList (columns : KeyColumns) : (Tsql.keyList columns).Unbound := by
  refine ((word " (").append (separated _ fun x hx => ?_)).append (word ")")
  obtain ⟨⟨f, direction⟩, -, rfl⟩ := List.mem_map.1 hx
  refine (name f.name).append ?_
  cases direction with
  | unspecified => exact .nothing
  | ascending => exact word _
  | descending => exact word _

theorem constraintHead (constraintName : Option String) (isTemp : Bool) :
    (Tsql.constraintHead constraintName isTemp).Unbound := by
  unfold Tsql.constraintHead
  cases constraintName with
  | none => exact .nothing
  | some s =>
    dsimp only
    split
    · exact .nothing
    · exact ((word _).append (name s)).append (word _)

theorem storedColumn (c : Column) : (t.storedColumn (t.inlineScope b) c).Unbound := by
  refine .after fun type _ => ?_
  have hdefault : (defaultClause (t.inlineScope b) c.default).Unbound := by
    cases c.default with
    | none => exact .nothing
    | some x => exact ((word _).append (expr .value x)).append (word _)
  have hidentity : (identityClause c.identity).Unbound := by
    cases c.identity with
    | none => exact .nothing
    | some spec => exact word _
  exact (((((name _).append (word _)).append (word _)).append (word _)).append hdefault).append hidentity

theorem columnDefinition (isTemp : Bool) (c : Column) :
    (t.columnDefinition (t.inlineScope b) isTemp c).Unbound := by
  rw [Target.columnDefinition.eq_def]
  cases c.computation with
  | none => exact storedColumn c
  | some x =>
    cases isTemp with
    | true => exact storedColumn c
    | false => exact (((name _).append (word _)).append (expr .value x)).append (word _)

theorem constraintDefinition {isTemp : Bool} {c : Constraint} {x : Emission}
    (hx : constraintDefinition? (t.inlineScope b) isTemp c = some x) : x.Unbound := by
  have hhead := constraintHead c.name? isTemp
  unfold constraintDefinition? at hx
  cases hc : c.body with
  | unique columns clustered =>
    simp only [hc, Option.some.injEq] at hx
    subst hx
    exact ((hhead.append (word _)).append (word _)).append (keyList columns)
  | check condition =>
    simp only [hc, Option.some.injEq] at hx
    subst hx
    exact (hhead.append (word _)).append (expr .predicate condition)
  | foreignKey key =>
    cases isTemp with
    | true => simp [hc] at hx
    | false =>
      simp only [hc, Option.some.injEq] at hx
      subst hx
      exact hhead.append ((((((((((word _).append (names _)).append (word _)).append
        (qualified _ _)).append (word _)).append (names _)).append (word _)).append (word _)).append
        (word _)).append (word _))

theorem indexDefinition (i : Index) : (Tsql.indexDefinition i).Unbound := by
  have hunique : (if i.unique then Emission.word "UNIQUE " else .nothing).Unbound := by
    split
    · exact word _
    · exact .nothing
  exact (((((word _).append (name _)).append (word _)).append hunique).append (word _)).append (keyList _)

theorem tableParts (m : Model) (isTemp : Bool) : ∀ x ∈ t.tableParts b m isTemp, x.Unbound := by
  intro x hx
  simp only [Target.tableParts, List.mem_append, List.mem_map, List.mem_filterMap, Option.mem_toList,
    Option.map_eq_some_iff] at hx
  obtain ((⟨c, -, rfl⟩ | ⟨key, -, rfl⟩) | ⟨c, -, hc⟩) | ⟨i, -, rfl⟩ := hx
  · exact columnDefinition isTemp c
  · exact (((constraintHead _ _).append (word _)).append (word _)).append (keyList _)
  · exact constraintDefinition hc
  · exact indexDefinition i

theorem describe (m : Model) (d : Description) : (m.describe d).Unbound := by
  have hpart : (describedPart d.part).Unbound := by
    cases d.part with
    | none => exact .nothing
    | some p => exact (((word _).append (national _)).append (word _)).append (national _)
  exact (((((((((((((word _).append (national _)).append (word _)).append (national _)).append
    (word _)).append (national _)).append (word _)).append (national _)).append (word _)).append
    (national _)).append (word _)).append (national _)).append hpart).append (word _)

theorem describeAll (m : Model) (ds : List Description) {x : Emission} (hx : x.Unbound) :
    (ds.foldl (fun acc d => acc ++ Emission.word "\n" ++ m.describe d) x).Unbound := by
  induction ds generalizing x with
  | nil => exact hx
  | cons d rest ih => exact ih ((hx.append (word _)).append (describe m d))

theorem createTable (m : Model) (isTemp : Bool) : (t.createTable b m isTemp).Unbound := by
  have hname : (t.definedName m isTemp).Unbound := by
    unfold Target.definedName
    split
    · exact .after fun s _ => name s
    · exact qualified _ _
  have hcolumns : (if m.columns.isEmpty then
      Emission.fail (.invalidStatement s!"table '{m.name}' has no columns") else .nothing).Unbound := by
    split
    · exact .fail _
    · exact .nothing
  have hcalls : (if isTemp then Emission.nothing else m.describeAll).Unbound := by
    split
    · exact .nothing
    · exact describeAll m _ .nothing
  exact ((((((word _).append hname).append hcolumns).append (word _)).append
    (separated _ (tableParts m isTemp))).append (word _)).append hcalls

end Emission.Unbound

/-! ### Main result -/

/-- An expression that renders with the values of its parameters is written without a variable, and as the
same expression with constants in place of its parameters, which brings in no parameter. So the definition of a
table has no parameters, and each default, computation and check in it stands in its text as its own rendering
without a variable. -/
theorem Target.rendered_inlined :
    (∀ (version : Version) (aliases : Option AliasMap) (b : Bindings) (context : Context) (x : Expr),
      (context.rendering { version, aliases, inlined := some b } x).failure = none →
        ∃ text, Avoids '@' text ∧ ∀ known,
          (context.rendering { version, aliases, inlined := some b } x).written known = ⟨text, known, none⟩ ∧
          (context.rendering { version, aliases } (x.bound b)).written known = ⟨text, known, none⟩) ∧
    ∀ (t : Target) (b : Bindings) (m : Model) (isTemp : Bool) (text : SqlText),
      (t.createTable b m isTemp).sqlText = .ok text → text.params = [] ∧
        ∀ e ∈ m.embedded isTemp, ∃ before part behind,
          text.sql = before ++ e.opening ++ part ++ e.closing ++ behind ∧ Avoids '@' part ∧
          (e.context.rendering (t.inlineScope b) e.expr).written [] = ⟨part, [], none⟩ := by
  constructor
  · intro version aliases b context x hf
    exact Context.written_eq (s := { version, aliases }) hf
  · intro t b m isTemp text htext
    have hf := failure_of_sqlText htext
    obtain ⟨table, items, -, hitems, hlays⟩ := createTable_lays hf []
    have hwritten := hlays.written_nil (Emission.Unbound.createTable m isTemp hf)
    obtain rfl := Except.ok.inj ((sqlText_of_written hwritten).symm.trans htext)
    refine ⟨rfl, fun e he => ?_⟩
    obtain ⟨x, hx, hstands⟩ := exists_standsIn_tableParts (t := t) (b := b) he
    obtain ⟨s, hs, hlaid⟩ := mem_of_forall₂ hitems.flip hx
    obtain ⟨before, part, behind, hsql, hpart⟩ := (hstands s hlaid).definitionText hs
    have havoids := Context.avoids_rendering (s := { version := t.version }) (b := b) hpart.failure_eq []
    exact ⟨before, part, behind, hsql, hpart.writePieces_start ▸ havoids,
      hpart.written_nil (Emission.Unbound.expr _ _ hpart.failure_eq)⟩

def greeting : Expr := .param ⟨⟨7⟩, .string⟩

def greetings : Bindings := ⟨[(⟨7⟩, .string "it's @home")]⟩

def greets : Expr := .contains (.column ⟨⟨1⟩, ⟨1⟩, "Label", .string⟩) greeting

def greetedNotes : Model :=
  { id := ⟨1⟩, name := "Note", aliasStem := "Note"
    columns := [{ id := ⟨1⟩, name := "Label", type := .string, default := some greeting }]
    constraints := [⟨"", .check greets, none⟩] }

def greetedNotesSql : String :=
  "CREATE TABLE [Note] (\n    [Label] NVARCHAR(MAX) NOT NULL DEFAULT(N'it''s @home'),\n"
    ++ "    CHECK (CHARINDEX(N'it''s @home', [Label]) > 0)\n);"

theorem Target.rendered_inlined_greeting :
    Avoids '@' "(CHARINDEX(N'it''s @home', [Label]) > 0)" ∧
      (Context.predicate.rendering { version := .sql13 } (greets.bound greetings)).written [] =
        ⟨"(CHARINDEX(N'it''s @home', [Label]) > 0)", [], none⟩ ∧
      ({ version := .sql13 : Target }.createTable greetings greetedNotes false).sqlText =
        .ok ⟨greetedNotesSql, []⟩ ∧
      ∃ before part behind, greetedNotesSql = before ++ " DEFAULT(" ++ part ++ ")" ++ behind ∧
        Avoids '@' part := by
  obtain ⟨hexpr, htable⟩ := rendered_inlined
  have hinline : (Context.predicate.rendering { version := .sql13, inlined := some greetings } greets).written
      [] = ⟨"(CHARINDEX(N'it''s @home', [Label]) > 0)", [], none⟩ := by decide +kernel
  obtain ⟨text, havoids, hwritten⟩ := hexpr .sql13 none greetings .predicate greets
    (congrArg Written.failure hinline)
  obtain rfl := congrArg Written.text ((hwritten []).1.symm.trans hinline)
  have hsql : ({ version := .sql13 : Target }.createTable greetings greetedNotes false).sqlText =
      .ok ⟨greetedNotesSql, []⟩ := by decide +kernel
  obtain ⟨before, part, behind, hstands, hpart, -⟩ := (htable _ greetings greetedNotes false _ hsql).2
    ⟨" DEFAULT(", .value, greeting, ")"⟩ (by simp [Model.embedded, Column.embedded, greetedNotes])
  exact ⟨havoids, (hwritten []).2, hsql, before, part, behind, hstands, hpart⟩

end Tsql
