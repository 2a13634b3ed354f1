import Tsql.Proofs.Render.ExprSpelling
import Tsql.Proofs.Render.PlainWords

/-!
# Outlines of expressions

`Expr.params` is a walk of an expression that lists its parameters in the order of its text: the second
operand of `Contains` stands first, the path of `XmlValue` is written as a constant. Unless parameters are
replaced by their values, an expression shows what the walk finds and no row sources. What it fails with is
`Scope.Allows`: a source without alias is never named, a column only where its model has no alias.
-/

namespace Tsql

open Text Emission

/-! ### Errors -/

def Error.lastChar? : Error → Option Char
  | .invalidStatement d => d.toList.getLast?
  | _ => none

/-- The error about a column whose model has no alias. -/
def ColumnRef.foreignError (c : ColumnRef) : Error :=
  .invalidStatement (s!"column '{c.field.name}' refers to a model"
    ++ s!" (id {natText c.model.number}) that is not part of the statement")

def Model.missingError (m : Model) : Error :=
  .invalidStatement s!"model '{m.name}' (id {natText m.id.number}) has no alias in this statement"

/-- Of the errors that end in a `t`, as those about missing aliases do, only those about columns of models
without alias. -/
def Scope.Allows (scope : Scope) (err : Error) : Prop :=
  err.lastChar? = some 't' → ∃ (c : ColumnRef) (aliases : AliasMap),
    scope.aliases = some aliases ∧ aliases.get? c.model = none ∧ err = c.foreignError

theorem Error.lastChar?_append (s : String) {tail : String} {c : Char}
    (h : tail.toList.getLast? = some c) : (Error.invalidStatement (s ++ tail)).lastChar? = some c := by
  rw [lastChar?, String.toList_append, List.getLast?_append, h]
  rfl

theorem Error.lastChar?_natText (s : String) (n : Nat) :
    (Error.invalidStatement (s ++ natText n)).lastChar? ≠ some 't' := by
  have hlast : ∃ d < 10, (natText n).toList.getLast? = some (digitChar d) := by
    rw [natText, String.toList_ofList, List.getLast?_eq_getLast_of_ne_nil (digits_ne_nil n)]
    obtain ⟨d, hd, he⟩ := exists_of_mem_digits (List.getLast_mem (digits_ne_nil n))
    exact ⟨d, hd, by rw [he]⟩
  obtain ⟨d, hd, hlast⟩ := hlast
  rw [lastChar?_append s hlast]
  intro h
  have hdigit : ∀ d < 10, digitChar d ≠ 't' := by decide
  exact hdigit d hd (Option.some.inj h)

namespace Scope

variable {scope : Scope} {err : Error}

theorem allows_of_ne (h : err.lastChar? ≠ some 't') : scope.Allows err := fun ht => absurd ht h

theorem allows_append (s : String) {tail : String} {c : Char} (h : tail.toList.getLast? = some c)
    (hc : c ≠ 't') : scope.Allows (.invalidStatement (s ++ tail)) :=
  allows_of_ne fun ht => hc (Option.some.inj ((Error.lastChar?_append s h).symm.trans ht))

theorem allows_defaultType {t : ValueType} (h : defaultType t = .error err) : scope.Allows err := by
  cases t with
  | custom name =>
    cases h
    exact nofun
  | _ => cases h

theorem allows_typedLiteral {t : ValueType} {v : Value} (h : typedLiteral t v = .error err) :
    scope.Allows err := by
  unfold typedLiteral at h
  cases ht : defaultType t with
  | error e =>
    rw [ht] at h
    cases h
    exact allows_defaultType ht
  | ok type =>
    rw [ht] at h
    replace h : literal type v = .error err := h
    unfold literal at h
    cases hs : ensureStorable type v with
    | error e =>
      rw [hs] at h
      cases h
      unfold ensureStorable at hs
      split at hs
      · cases hs
      · split at hs
        · cases hs
        · cases hs
          exact nofun
    | ok u =>
      rw [hs] at h
      replace h : storedLiteral type v = .error err := h
      have hfloat : ∀ {l : Layout} {x : Floating l}, floatLiteral x = .error err →
          scope.Allows err := by
        intro l x h
        unfold floatLiteral at h
        split at h
        · cases h
        · cases h
          exact nofun
      cases v with
      | single x => exact hfloat h
      | double x => exact hfloat h
      | _ => cases h

end Scope

/-! ### The walk -/

def Outline.ofParams (ps : List Param) : Outline := { params := ps }

theorem Outline.ofParams_append (ps qs : List Param) :
    ofParams ps ++ ofParams qs = ofParams (ps ++ qs) := rfl

theorem Outline.join_ofParams (pss : List (List Param)) :
    join (pss.map ofParams) = ofParams pss.flatten := by
  induction pss with
  | nil => rfl
  | cons ps rest ih => rw [List.map_cons, join, ih, ofParams_append, List.flatten_cons]

/-- The parameters of a call, given those of its operands. -/
def callParams (key : String) (args : List (List Param)) : List Param :=
  match Builtin.ofName? key, args with
  | some .contains, [haystack, needle] => needle ++ haystack
  | some .xmlValue, [x, _] => x
  | _, args => args.flatten

mutual

/-- The parameters of an expression, in the order of its text. -/
def Expr.params : Expr → List Param
  | .binary _ l r => l.params ++ r.params
  | .unary _ x => x.params
  | .case on whens otherwise => optionParams on ++ whensParams whens ++ optionParams otherwise
  | .cast x _ => x.params
  | .column _ => []
  | .constant _ _ => []
  | .param p => [p]
  | .call key args _ => callParams key (argParams args)

def optionParams : Option Expr → List Param
  | none => []
  | some x => x.params

def whensParams : List (Expr × Expr) → List Param
  | [] => []
  | (x, y) :: r => x.params ++ y.params ++ whensParams r

def argParams : List Expr → List (List Param)
  | [] => []
  | x :: r => x.params :: argParams r

end

theorem argParams_eq_map (args : List Expr) : argParams args = args.map Expr.params := by
  induction args with
  | nil => rfl
  | cons x r ih => rw [argParams, ih, List.map_cons]

/-! ### Parts of expressions -/

namespace Emission.Shows

variable {x y z : Emission} {P : Error → Prop} {scope : Scope} {a b c : Outline}

theorem inContext (context : Context) (isPredicate : Bool) (hx : x.Shows P .clear (some .loose) a) :
    (Tsql.inContext context isPredicate x).Shows P .clear (some .loose) a := by
  have hcondition : (Emission.word "(" ++ x ++ Emission.word " = 1)").Shows P .clear (some .loose) a :=
    (((ofWord "(").part hx).word " = 1)").loosen (by decide)
  have hvalue : (Emission.word "CAST(CASE WHEN " ++ x
      ++ Emission.word " THEN 1 ELSE 0 END AS BIT)").Shows P .clear (some .loose) a :=
    (((ofWord "CAST(CASE WHEN ").part hx).word " THEN 1 ELSE 0 END AS BIT)").loosen (by decide)
  cases context <;> cases isPredicate
  · exact hx
  · exact hvalue
  · exact hcondition
  · exact hx

theorem infixed (kind : BinaryKind) (hx : x.Shows P .clear (some .loose) a)
    (hy : y.Shows P .clear (some .loose) b) :
    (Tsql.infixed kind.token x y).Shows P .clear (some .loose) (a ++ b) :=
  (((((((ofWord "(").part hx).word " ").word kind.token).word " ").part hy).word ")").loosen
    (by cases kind <;> decide)

theorem callOf {function : String} (hf : (Ending.clear.word function).isSome = true)
    {items : List Expr} {f : Expr → Emission} {g : Expr → Outline}
    (h : ∀ i ∈ items, (f i).Shows P .clear (some .loose) (g i)) :
    (Tsql.callOf function (items.map f)).Shows P .clear (some .closed) (Outline.join (items.map g)) :=
  (((((ofWord function).loosen hf).word "(").part (listed h)).word ")").at_edge (by decide)

theorem branchOf (hx : x.Shows P .clear (some .loose) a) (hy : y.Shows P .clear (some .loose) b) :
    (Tsql.branchOf x y).Shows P .loose (some .loose) (a ++ b) :=
  ((((line.word "WHEN ").part hx).word " THEN ").part hy).loosen (by decide)

theorem caseOf (hx : x.Shows scope.Allows .letters (some .loose) a)
    (hy : y.Shows scope.Allows .loose (some .loose) b)
    (hz : z.Shows scope.Allows .loose (some .loose) c) (branchCount : Nat) :
    (Tsql.caseOf x y z branchCount).Shows scope.Allows .clear (some .loose) (a ++ b ++ c) := by
  unfold Tsql.caseOf
  split
  · exact fail (Scope.allows_of_ne (by decide))
  · exact ((((((((ofWord "CASE").part hx).silent indent).part hy).part hz).silent
      outdent).silent line).word "END").loosen (by decide)

theorem column (scope : Scope) (c : ColumnRef) :
    (scope.column c).Shows scope.Allows .clear (some .loose) {} := by
  unfold Scope.column
  cases ha : scope.aliases with
  | none => exact (name _).loosen rfl
  | some aliases =>
    dsimp only
    cases hc : aliases.get? c.model with
    | none => exact fail fun _ => ⟨c, aliases, ha, hc, rfl⟩
    | some source => exact (((name source).word ".").silent (name _)).loosen (by decide)

theorem constant (t : ValueType) (v : Value) :
    (Emission.constant t v).Shows scope.Allows .clear (some .loose) {} :=
  after (fun _ => Scope.allows_typedLiteral) fun _ => literal

theorem param (hs : scope.inlined = none) (p : Param) :
    (scope.param p).Shows P .clear (some .loose) (.ofParams [p]) := by
  rw [Scope.param, hs]
  exact placeholder p

theorem arityError (key expected : String) (got : Nat) :
    (Tsql.arityError key expected got).Shows scope.Allows .clear (some .loose) a :=
  fail (Scope.allows_of_ne (Error.lastChar?_natText _ got))

theorem xmlValueCall (hx : x.Shows scope.Allows .clear (some .loose) a) (key : String) (path : Expr)
    (result : ValueType) :
    (Tsql.xmlValueCall key x path result).Shows scope.Allows .clear (some .loose) a := by
  unfold Tsql.xmlValueCall
  cases constantPath? path with
  | none => exact fail (Scope.allows_append _ (c := 'h') (by decide) (by decide))
  | some p =>
    refine after (fun _ => Scope.allows_defaultType) fun type htype => ?_
    exact ((((hx.word ".value(").silent (quoted true p)).word ", ").silent
      (quoted true type.sql)).word ")" |>.loosen (by decide)

theorem windowed {start : Ending} (hx : x.Shows P start (some .closed) a) :
    (x ++ Emission.word " " ++ Emission.word wholeWindow).Shows P start (some .loose) a := by
  have hblank : Ending.closed.word " " = some .headed := by decide
  have hwindow : Ending.headed.word wholeWindow = some .clear := by
    rw [Ending.word, wholeWindow, String.toList_ofList]
    decide
  refine ((hx.word " ").word wholeWindow).loosen ?_
  rw [Option.bind_some, hblank, Option.bind_some, hwindow]
  rfl

theorem function {args : List Expr} (h : ∀ x ∈ args,
      (x.value scope).Shows scope.Allows .clear (some .loose) (.ofParams (x.params)))
    (key : String) (result : ValueType) :
    (scope.function key args (args.map (Expr.value scope)) result).Shows scope.Allows .clear
      (some .loose) (.ofParams (callParams key (args.map (Expr.params)))) := by
  have hcall : ∀ name : String, (Ending.clear.word name).isSome = true →
      (Tsql.callOf name (args.map (Expr.value scope))).Shows scope.Allows .clear (some .closed)
        (.ofParams (args.map (Expr.params)).flatten) := by
    intro name hname
    have hjoin := Outline.join_ofParams (args.map (Expr.params))
    rw [List.map_map] at hjoin
    rw [← hjoin]
    exact callOf hname h
  unfold Scope.function callParams
  cases hb : Builtin.ofName? key with
  | none => exact fail nofun
  | some b =>
    -- By the number of operands: every other function fails in each case.
    rcases args with _ | ⟨x, _ | ⟨y, _ | ⟨z, rest⟩⟩⟩
    · cases b with
      | now => exact (ofWord "GETDATE()").loosen (by decide)
      | utcNow => exact (ofWord "GETUTCDATE()").loosen (by decide)
      | newGuid => exact (ofWord "NEWID()").loosen (by decide)
      | countRows => exact (ofWord "COUNT(*)").loosen (by decide)
      | coalesce => exact arityError _ _ _
      | _ => exact arityError _ _ _
    · have hx : (x.value scope).Shows scope.Allows .clear (some .loose)
          (.ofParams [x.params].flatten) := by
        rw [List.flatten_singleton]
        exact h x (by simp)
      cases b with
      | isNull => exact (((ofWord "(").part hx).word " IS NULL)").loosen (by decide)
      | isNotNull => exact (((ofWord "(").part hx).word " IS NOT NULL)").loosen (by decide)
      | average => exact (hcall "AVG" (by decide)).loosen rfl
      | count => exact (hcall "COUNT" (by decide)).loosen rfl
      | max => exact (hcall "MAX" (by decide)).loosen rfl
      | min => exact (hcall "MIN" (by decide)).loosen rfl
      | sum => exact (hcall "SUM" (by decide)).loosen rfl
      | first => exact windowed (hcall "FIRST_VALUE" (by decide))
      | last => exact windowed (hcall "LAST_VALUE" (by decide))
      | trim =>
        show (ite _ _ _ : Emission).Shows _ _ _ _
        split
        · exact (hcall "TRIM" (by decide)).loosen rfl
        · exact (((ofWord "LTRIM(RTRIM(").part hx).word "))").loosen (by decide)
      | _ => exact arityError _ _ _
    · have hx := h x (by simp)
      have hy := h y (by simp)
      cases b with
      | ifNull =>
        show Shows _ _ _ _ (.ofParams [x.params, y.params].flatten)
        rw [List.flatten_cons, List.flatten_singleton]
        exact (((((ofWord "ISNULL(").part hx).word ", ").part hy).word ")").loosen (by decide)
      | coalesce => exact (hcall "COALESCE" (by decide)).loosen rfl
      | contains =>
        exact (((((ofWord "(CHARINDEX(").part hy).word ", ").part hx).word ") > 0)").loosen (by decide)
      | xmlValue => exact xmlValueCall hx key y result
      | stringAgg =>
        show (Tsql.stringAggCall _ _ _).Shows _ _ _ _
        unfold Tsql.stringAggCall
        split
        · exact (hcall "STRING_AGG" (by decide)).loosen rfl
        · exact fail nofun
      | _ => exact arityError _ _ _
    · cases b with
      | coalesce =>
        show (ite _ _ _ : Emission).Shows _ _ _ _
        split
        · exact (hcall "COALESCE" (by decide)).loosen rfl
        · exact arityError _ _ _
      | _ => exact arityError _ _ _

end Emission.Shows

/-! ### Trees -/

section

variable {scope : Scope}

mutual

theorem Expr.node_shows (hs : scope.inlined = none) (x : Expr) :
    (x.node scope).Shows scope.Allows .clear (some .loose) (.ofParams (x.params)) := by
  match x with
  | .binary kind l r =>
    rw [Expr.node, Expr.params]
    exact Shows.infixed kind (Shows.inContext _ _ (l.node_shows hs))
      (Shows.inContext _ _ (r.node_shows hs))
  | .unary .negate x =>
    have hx := Shows.inContext .value x.isPredicate (x.node_shows hs)
    rw [Expr.node, Expr.params]
    exact (((Shows.ofWord "(-").part hx).word ")").loosen (by decide)
  | .unary .not x =>
    have hx := Shows.inContext .predicate x.isPredicate (x.node_shows hs)
    rw [Expr.node, Expr.params]
    exact (((Shows.ofWord "(NOT ").part hx).word ")").loosen (by decide)
  | .unary .onesComplement x =>
    have hx := Shows.inContext .value x.isPredicate (x.node_shows hs)
    rw [Expr.node, Expr.params]
    exact (((Shows.ofWord "(~").part hx).word ")").loosen (by decide)
  | .case on whens otherwise =>
    rw [Expr.node, Expr.params]
    exact Shows.caseOf (onText_shows hs on) (whensText_shows hs _ whens)
      (elseText_shows hs otherwise) _
  | .cast x target =>
    have hx := Shows.inContext .value x.isPredicate (x.node_shows hs)
    rw [Expr.node, Expr.params]
    refine Shows.after (fun _ => Scope.allows_defaultType) fun type htype => ?_
    exact (((((Shows.ofWord "CAST(").part hx).word " AS ").silent
      (Shows.plain .clear rfl (isPlain_defaultType htype))).word ")").loosen (by decide)
  | .column c =>
    rw [Expr.node, Expr.params]
    exact Shows.column scope c
  | .constant v t =>
    rw [Expr.node, Expr.params]
    exact Shows.constant t v
  | .param p =>
    rw [Expr.node, Expr.params]
    exact Shows.param hs p
  | .call key args result =>
    rw [Expr.node, Expr.params, argTexts_eq_map, argParams_eq_map]
    exact Shows.function (args_show hs args) key result

theorem onText_shows (hs : scope.inlined = none) (on : Option Expr) :
    (onText scope on).Shows scope.Allows .letters (some .loose) (.ofParams (optionParams on)) := by
  match on with
  | none => exact Shows.nothing.loosen rfl
  | some x =>
    have hx := Shows.inContext .value x.isPredicate (x.node_shows hs)
    rw [onText, optionParams]
    exact ((Shows.ofWord " ").part hx).loosen (by decide)

theorem whensText_shows (hs : scope.inlined = none) (context : Context) (whens : List (Expr × Expr)) :
    (whensText scope context whens).Shows scope.Allows .loose (some .loose)
      (.ofParams (whensParams whens)) := by
  match whens with
  | [] => exact Shows.nothing
  | (x, y) :: rest =>
    have hx := Shows.inContext context x.isPredicate (x.node_shows hs)
    have hy := Shows.inContext .value y.isPredicate (y.node_shows hs)
    rw [whensText, whensParams]
    exact ((Shows.branchOf hx hy).part (whensText_shows hs context rest)).loosen (by decide)

theorem elseText_shows (hs : scope.inlined = none) (otherwise : Option Expr) :
    (elseText scope otherwise).Shows scope.Allows .loose (some .loose)
      (.ofParams (optionParams otherwise)) := by
  match otherwise with
  | none => exact Shows.nothing
  | some x =>
    have hx := Shows.inContext .value x.isPredicate (x.node_shows hs)
    rw [elseText, optionParams]
    exact ((Shows.line.word "ELSE ").part hx).loosen (by decide)

theorem args_show (hs : scope.inlined = none) (args : List Expr) : ∀ x ∈ args,
    (x.value scope).Shows scope.Allows .clear (some .loose) (.ofParams (x.params)) := by
  match args with
  | [] =>
    intro x hx
    cases hx
  | y :: rest =>
    have hy := Shows.inContext .value y.isPredicate (y.node_shows hs)
    intro x hx
    rcases List.mem_cons.1 hx with rfl | hx
    · exact hy
    · exact args_show hs rest x hx

end

namespace Expr

theorem value_shows (hs : scope.inlined = none) (x : Expr) :
    (x.value scope).Shows scope.Allows .clear (some .loose) (.ofParams (x.params)) :=
  Shows.inContext _ _ (x.node_shows hs)

theorem predicate_shows (hs : scope.inlined = none) (x : Expr) :
    (x.predicate scope).Shows scope.Allows .clear (some .loose) (.ofParams (x.params)) :=
  Shows.inContext _ _ (x.node_shows hs)

end Expr

end

end Tsql
