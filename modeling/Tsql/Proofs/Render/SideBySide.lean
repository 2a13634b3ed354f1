import Tsql.Proofs.Render.ExprSpelling
import Tsql.Proofs.Render.Renaming
import Tsql.Proofs.Result

/-!
# Two renderings side by side

A command is rendered twice, the second time under other identities or for another version. What relates
the two renderings is a relation that goes through sequences: `Emission.Lockstep`. It is indexed by the
operands of those calls of `Trim` that stand in the text, since these are the only calls that a version
renders differently. `SideBySide` adds what the relation has to say of the two calls that consult the
version. `SideBySide.node` is that two renderings of an expression are related then; the operands are
`Expr.trims`.
-/

namespace Tsql

open Text Emission

/-! ### The walk -/

/-- The operands of `Trim` in a call: its own and those of its operands. -/
def callTrims (key : String) (args : List Expr) (trims : List (List Expr)) : List Expr :=
  match Builtin.ofName? key, args, trims with
  | some .contains, _, [haystack, needle] => needle ++ haystack
  | some .xmlValue, _, [x, _] => x
  | some .trim, [x], [inner] => x :: inner
  | _, _, trims => trims.flatten

mutual

/-- The operands of `Trim` in an expression, in the order of its text. -/
def Expr.trims : Expr → List Expr
  | .binary _ l r => l.trims ++ r.trims
  | .unary _ x => x.trims
  | .case on whens otherwise => optionTrims on ++ whensTrims whens ++ optionTrims otherwise
  | .cast x _ => x.trims
  | .column _ => []
  | .constant _ _ => []
  | .param _ => []
  | .call key args _ => callTrims key args (argTrims args)

def optionTrims : Option Expr → List Expr
  | none => []
  | some x => x.trims

def whensTrims : List (Expr × Expr) → List Expr
  | [] => []
  | (x, y) :: r => x.trims ++ y.trims ++ whensTrims r

def argTrims : List Expr → List (List Expr)
  | [] => []
  | x :: r => x.trims :: argTrims r

end

theorem argTrims_eq_map (args : List Expr) : argTrims args = args.map Expr.trims := by
  induction args with
  | nil => rfl
  | cons x r ih => rw [argTrims, ih, List.map_cons]

def trimCall (version : Version) (x : Emission) : Emission :=
  if version.has2017Functions then callOf "TRIM" [x] else word "LTRIM(RTRIM(" ++ x ++ word "))"

/-! ### Relations that go through sequences -/

/-- A relation of renderings, given the operands of `Trim` in them, that goes through sequences. Errors
are related where they are of one kind. -/
structure Emission.Lockstep (σ : Renaming) (R : List Expr → Emission → Emission → Prop) : Prop where
  nothing : R [] nothing nothing
  piece (p : Piece) : R [] (piece p) (piece (p.rename σ))
  fail (as : List Expr) {e e' : Error} (h : e.kind = e'.kind) : R as (fail e) (fail e')
  append {as bs : List Expr} {x x' y y' : Emission} (hx : R as x x') (hy : R bs y y') :
    R (as ++ bs) (x ++ y) (x' ++ y')

/-- Renderings of several parts, related one by one. -/
inductive Emission.Each (R : List Expr → Emission → Emission → Prop) :
    List Expr → List Emission → List Emission → Prop where
  | nil : Each R [] [] []
  | cons {as bs : List Expr} {x x' : Emission} {xs xs' : List Emission} (hx : R as x x')
      (hrest : Each R bs xs xs') : Each R (as ++ bs) (x :: xs) (x' :: xs')

variable {σ : Renaming} {R : List Expr → Emission → Emission → Prop} {as bs : List Expr}
  {x x' y y' z z' : Emission}

namespace Emission.Each

theorem map {α : Type} {xs : List α} {t : α → List Expr} {f f' : α → Emission}
    (h : ∀ a ∈ xs, R (t a) (f a) (f' a)) : Each R (xs.flatMap t) (xs.map f) (xs.map f') := by
  induction xs with
  | nil => exact .nil
  | cons a rest ih =>
    rw [List.flatMap_cons]
    exact .cons (h a (by simp)) (ih fun b hb => h b (by simp [hb]))

theorem single (hx : R as x x') : Each R as [x] [x'] := by
  simpa using cons hx nil

/-- Parts without operands of `Trim`. -/
theorem map_nil {α : Type} {xs : List α} {f f' : α → Emission} (h : ∀ a ∈ xs, R [] (f a) (f' a)) :
    Each R [] (xs.map f) (xs.map f') := by
  have hmap := map (t := fun _ => []) h
  rwa [List.flatMap_eq_nil_iff.2 fun _ _ => rfl] at hmap

theorem append {xs xs' ys ys' : List Emission} (hx : Each R as xs xs') (hy : Each R bs ys ys') :
    Each R (as ++ bs) (xs ++ ys) (xs' ++ ys') := by
  induction hx with
  | nil => exact hy
  | cons hx _ ih =>
    rw [List.append_assoc]
    exact .cons hx ih

end Emission.Each

namespace Emission.Lockstep

variable (h : Lockstep σ R)

include h

theorem word (s : String) : R [] (word s) (word s) := h.piece (.word s)

theorem name (s : String) : R [] (name s) (name s) := h.piece (.name s)

theorem line : R [] line line := h.piece .line

theorem national (s : String) : R [] (national s) (national s) := h.piece _

/-- A part without operands of `Trim` behind another. -/
theorem follow (hx : R as x x') (hy : R [] y y') : R as (x ++ y) (x' ++ y') := by
  simpa using h.append hx hy

theorem enclosed (before after : String) (hx : R as x x') :
    R as (Emission.word before ++ x ++ Emission.word after)
      (Emission.word before ++ x' ++ Emission.word after) :=
  h.follow (h.append (h.word before) hx) (h.word after)

theorem after {α β : Type} {g : α → β} {r : Result α} {r' : Result β} (hr : Result.Agrees g r r')
    {f : α → Emission} {f' : β → Emission} (hf : ∀ a, r = .ok a → R as (f a) (f' (g a))) :
    R as (after r f) (after r' f') := by
  cases hr with
  | ok a => exact hf a rfl
  | error he => exact h.fail as he

theorem afterSame {α : Type} (r : Result α) {f f' : α → Emission} (hf : ∀ a, R as (f a) (f' a)) :
    R as (Emission.after r f) (Emission.after r f') := by
  cases r with
  | ok a => exact hf a
  | error e => exact h.fail as rfl

theorem separated (separator : String) {xs xs' : List Emission} (hx : Each R as xs xs') :
    R as (separated separator xs) (separated separator xs') := by
  induction hx with
  | nil => exact h.nothing
  | cons hx hrest ih =>
    cases hrest with
    | nil =>
      rw [List.append_nil]
      exact hx
    | cons hy hrest => exact h.append (h.follow hx (h.word separator)) ih

theorem listed {xs xs' : List Emission} (hx : Each R as xs xs') : R as (listed xs) (listed xs') :=
  h.separated ", " hx

theorem names (items : List String) : R [] (names items) (names items) :=
  h.listed (.map_nil fun s _ => h.name s)

theorem clause (keyword : String) (hx : R as x x') :
    R as (clause keyword x) (clause keyword x') :=
  h.append (h.append h.line (h.word keyword)) hx

/-! ### Parts of expressions -/

theorem inContext (context : Context) (isPredicate : Bool) (hx : R as x x') :
    R as (inContext context isPredicate x) (inContext context isPredicate x') := by
  cases context <;> cases isPredicate
  · exact hx
  · exact h.enclosed _ _ hx
  · exact h.enclosed _ _ hx
  · exact hx

theorem constant (t : ValueType) (v : Value) : R [] (constant t v) (constant t v) :=
  h.afterSame _ fun _ => h.piece _

theorem callOf (function : String) {xs xs' : List Emission} (hx : Each R as xs xs') :
    R as (callOf function xs) (callOf function xs') :=
  h.follow (h.append (h.append (h.word function) (h.word "(")) (h.listed hx)) (h.word ")")

theorem infixed (token : String) (hx : R as x x') (hy : R bs y y') :
    R (as ++ bs) (infixed token x y) (infixed token x' y') := by
  have hleft := h.follow (h.follow (h.follow (h.append (h.word "(") hx) (h.word " ")) (h.word token))
    (h.word " ")
  exact h.follow (h.append hleft hy) (h.word ")")

theorem branchOf (hx : R as x x') (hy : R bs y y') :
    R (as ++ bs) (branchOf x y) (branchOf x' y') :=
  h.append (h.follow (h.append (h.append h.line (h.word "WHEN ")) hx) (h.word " THEN ")) hy

theorem caseOf {cs : List Expr} (branchCount : Nat) (hx : R as x x') (hy : R bs y y') (hz : R cs z z') :
    R (as ++ bs ++ cs) (caseOf x y z branchCount) (caseOf x' y' z' branchCount) := by
  unfold Tsql.caseOf
  split
  · exact h.fail _ rfl
  have hbody := h.append (h.append (h.follow (h.append (h.word "CASE") hx) (h.piece .indent)) hy) hz
  exact h.follow (h.follow (h.follow hbody (h.piece .outdent)) h.line) (h.word "END")

theorem arityError (as : List Expr) (key expected : String) (got got' : Nat) :
    R as (arityError key expected got) (arityError key expected got') := h.fail as rfl

theorem xmlValueCall (key : String) (path : Expr) (result : ValueType) (hx : R as x x') :
    R as (xmlValueCall key x path result) (xmlValueCall key x' (path.rename σ) result) := by
  unfold Tsql.xmlValueCall
  rw [constantPath?_rename]
  split
  · exact h.fail as rfl
  · next p _ =>
    refine h.afterSame _ fun t => ?_
    exact h.follow (h.follow (h.follow (h.follow (h.follow hx (h.word ".value(")) (h.national p))
      (h.word ", ")) (h.national t.sql)) (h.word ")")

end Emission.Lockstep

/-! ### Expressions -/

/-- A relation that goes through sequences and says the same of what two scopes render differently: the
calls that consult the version. -/
structure SideBySide (σ : Renaming) (s s' : Scope) (R : List Expr → Emission → Emission → Prop) : Prop
    extends Emission.Lockstep σ R where
  aliases_eq : s'.aliases = s.aliases.map (AliasMap.rename σ)
  inlined_eq : s'.inlined = s.inlined.map (Bindings.rename σ)
  trim {as : List Expr} {x : Expr} {y : Emission} (hx : R as (x.value s) y) :
    R (x :: as) (trimCall s.version (x.value s)) (trimCall s'.version y)
  stringAgg {as : List Expr} (key : String) {xs xs' : List Emission} (hx : Each R as xs xs') :
    R as (stringAggCall s.version key xs) (stringAggCall s'.version key xs')

namespace SideBySide

variable {s s' : Scope} (h : SideBySide σ s s' R)

include h

theorem column (c : ColumnRef) : R [] (s.column c) (s'.column (c.rename σ)) := by
  unfold Scope.column
  rw [h.aliases_eq]
  cases s.aliases with
  | none => exact h.name _
  | some aliases =>
    dsimp only [Option.map_some]
    rw [show (c.rename σ).model = σ.model c.model from rfl, aliases.get?_rename]
    cases aliases.get? c.model with
    | none => exact h.fail _ rfl
    | some source => exact h.follow (h.follow (h.name source) (h.word ".")) (h.name _)

theorem param (p : Param) : R [] (s.param p) (s'.param (p.rename σ)) := by
  unfold Scope.param
  rw [h.inlined_eq]
  cases s.inlined with
  | none => exact h.piece (.placeholder p)
  | some bindings =>
    dsimp only [Option.map_some]
    rw [show (p.rename σ).id = σ.param p.id from rfl, bindings.get_rename]
    exact h.constant _ _

theorem function {args : List Expr}
    (hargs : ∀ a ∈ args, R a.trims (a.value s) ((a.rename σ).value s')) (key : String)
    (result : ValueType) :
    R (callTrims key args (args.map Expr.trims))
      (s.function key args (args.map (Expr.value s)) result)
      (s'.function key (args.map (Expr.rename σ))
        ((args.map (Expr.rename σ)).map (Expr.value s')) result) := by
  have heach : Each R (args.map Expr.trims).flatten (args.map (Expr.value s))
      ((args.map (Expr.rename σ)).map (Expr.value s')) := by
    rw [List.map_map, ← List.flatMap_def]
    exact .map hargs
  have hcall := fun name => h.callOf name heach
  unfold Scope.function callTrims
  cases Builtin.ofName? key with
  | none => exact h.fail _ rfl
  | some b =>
    -- By the number of operands: every other function fails in each case.
    rcases args with _ | ⟨x, _ | ⟨y, _ | ⟨z, rest⟩⟩⟩
    · cases b with
      | now => exact h.word _
      | utcNow => exact h.word _
      | newGuid => exact h.word _
      | countRows => exact h.word _
      | coalesce => exact h.arityError _ _ _ _ _
      | _ => exact h.arityError _ _ _ _ _
    · have hx := hargs x (by simp)
      have hx' : R [x.trims].flatten (x.value s) ((x.rename σ).value s') := by
        rw [List.flatten_singleton]
        exact hx
      cases b with
      | isNull => exact h.enclosed _ _ hx'
      | isNotNull => exact h.enclosed _ _ hx'
      | average => exact hcall _
      | count => exact hcall _
      | max => exact hcall _
      | min => exact hcall _
      | sum => exact hcall _
      | first => exact h.follow (h.follow (hcall _) (h.word " ")) (h.word wholeWindow)
      | last => exact h.follow (h.follow (hcall _) (h.word " ")) (h.word wholeWindow)
      | trim => exact h.trim hx
      | coalesce => exact h.arityError _ _ _ _ _
      | _ => exact h.arityError _ _ _ _ _
    · have hx := hargs x (by simp)
      have hy := hargs y (by simp)
      cases b with
      | ifNull =>
        have hxy := h.append (h.follow (h.append (h.word "ISNULL(") hx) (h.word ", ")) hy
        simpa using h.follow hxy (h.word ")")
      | coalesce => exact hcall _
      | contains =>
        have hyx := h.append (h.follow (h.append (h.word "(CHARINDEX(") hy) (h.word ", ")) hx
        exact h.follow hyx (h.word ") > 0)")
      | xmlValue => exact h.xmlValueCall key y result hx
      | stringAgg => exact h.stringAgg key heach
      | _ => exact h.arityError _ _ _ _ _
    · cases b with
      | coalesce =>
        show R (List.map _ _).flatten (ite _ _ _) (ite _ _ _)
        rw [if_pos (by simp), if_pos (by simp)]
        exact hcall _
      | _ => exact h.arityError _ _ _ _ _

mutual

theorem node (x : Expr) : R x.trims (x.node s) ((x.rename σ).node s') := by
  match x with
  | .binary kind l r =>
    rw [Expr.rename, Expr.node, Expr.node, Expr.trims, l.isPredicate_rename, r.isPredicate_rename]
    exact h.infixed _ (h.inContext _ _ (node l)) (h.inContext _ _ (node r))
  | .unary .negate x =>
    rw [Expr.rename, Expr.node, Expr.node, Expr.trims, x.isPredicate_rename]
    exact h.enclosed _ _ (h.inContext _ _ (node x))
  | .unary .not x =>
    rw [Expr.rename, Expr.node, Expr.node, Expr.trims, x.isPredicate_rename]
    exact h.enclosed _ _ (h.inContext _ _ (node x))
  | .unary .onesComplement x =>
    rw [Expr.rename, Expr.node, Expr.node, Expr.trims, x.isPredicate_rename]
    exact h.enclosed _ _ (h.inContext _ _ (node x))
  | .case on whens otherwise =>
    rw [Expr.rename, Expr.node, Expr.node, Expr.trims, renameOption_eq_map, whenContext, whenContext,
      Option.isSome_map, ← renameOption_eq_map, length_renameWhens]
    exact h.caseOf _ (onText_related on) (whensText_related _ whens) (elseText_related otherwise)
  | .cast x target =>
    rw [Expr.rename, Expr.node, Expr.node, Expr.trims, x.isPredicate_rename]
    refine h.afterSame _ fun t => ?_
    exact h.follow (h.follow (h.enclosed _ _ (h.inContext _ _ (node x))) (h.word _)) (h.word _)
  | .column c => exact h.column c
  | .constant v t => exact h.constant t v
  | .param p => exact h.param p
  | .call key args result =>
    rw [Expr.rename, Expr.node, Expr.node, Expr.trims, argTexts_eq_map, argTexts_eq_map,
      argTrims_eq_map, renameArgs_eq_map]
    exact h.function (args_related args) key result

theorem onText_related (on : Option Expr) :
    R (optionTrims on) (onText s on) (onText s' (renameOption σ on)) := by
  match on with
  | none => exact h.nothing
  | some x =>
    rw [renameOption, onText, onText, optionTrims, x.isPredicate_rename]
    exact h.append (h.word " ") (h.inContext _ _ (node x))

theorem whensText_related (context : Context) (whens : List (Expr × Expr)) :
    R (whensTrims whens) (whensText s context whens) (whensText s' context (renameWhens σ whens)) := by
  match whens with
  | [] => exact h.nothing
  | (x, y) :: rest =>
    rw [renameWhens, whensText, whensText, whensTrims, x.isPredicate_rename, y.isPredicate_rename]
    exact h.append (h.branchOf (h.inContext _ _ (node x)) (h.inContext _ _ (node y)))
      (whensText_related context rest)

theorem elseText_related (otherwise : Option Expr) :
    R (optionTrims otherwise) (elseText s otherwise) (elseText s' (renameOption σ otherwise)) := by
  match otherwise with
  | none => exact h.nothing
  | some x =>
    rw [renameOption, elseText, elseText, optionTrims, x.isPredicate_rename]
    exact h.append (h.append h.line (h.word "ELSE ")) (h.inContext _ _ (node x))

theorem args_related (args : List Expr) :
    ∀ a ∈ args, R a.trims (a.value s) ((a.rename σ).value s') := by
  match args with
  | [] =>
    intro a ha
    cases ha
  | y :: rest =>
    have hy := h.inContext .value y.isPredicate (node y)
    intro a ha
    rcases List.mem_cons.1 ha with rfl | ha
    · rw [Expr.value, Expr.value, a.isPredicate_rename]
      exact hy
    · exact args_related rest a ha

end

theorem value (x : Expr) : R x.trims (x.value s) ((x.rename σ).value s') := by
  rw [Expr.value, Expr.value, x.isPredicate_rename]
  exact h.inContext _ _ (h.node x)

theorem predicate (x : Expr) : R x.trims (x.predicate s) ((x.rename σ).predicate s') := by
  rw [Expr.predicate, Expr.predicate, x.isPredicate_rename]
  exact h.inContext _ _ (h.node x)

end SideBySide

end Tsql
