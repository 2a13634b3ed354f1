import Tsql.Proofs.Render.Words

/-!
# What expressions spell

`Expr.trace` is a walk of an expression, in the order of its text: the names of columns with their
aliases, the texts that literals quote, and whether a negation meets an operand whose text begins with
a minus sign. An expression spells what the walk finds, as a value and as a condition.
-/

namespace Tsql

open Text Emission

/-! ### The walk -/

namespace Scope

def columnTrace (scope : Scope) (c : ColumnRef) : Trace :=
  match scope.aliases with
  | none => .name c.field.name
  | some aliases => match aliases.get? c.model with
    | some source => .name source ++ .name c.field.name
    | none => {}

def paramTrace (scope : Scope) (p : Param) : Trace :=
  match scope.inlined with
  | some bindings => (bindings.get p.id).trace
  | none => {}

/-- A parameter is replaced by a negative number. -/
def paramIsSigned (scope : Scope) (p : Param) : Bool :=
  match scope.inlined with
  | some bindings => (bindings.get p.id).isSigned
  | none => false

end Scope

def xmlValueTrace (path : Expr) (result : ValueType) : Trace :=
  match constantPath? path with
  | some p => Trace.after (defaultType result) fun type => .string p ++ .string type.sql
  | none => {}

def callTrace (key : String) (args : List Expr) (traces : List Trace) (result : ValueType) : Trace :=
  match Builtin.ofName? key, args, traces with
  | some .contains, _, [haystack, needle] => needle ++ haystack
  | some .xmlValue, [_, path], [x, _] => x ++ xmlValueTrace path result
  | _, _, traces => Trace.join traces

mutual

def Expr.isSigned (scope : Scope) : Expr → Bool
  | .constant v _ => v.isSigned
  | .param p => scope.paramIsSigned p
  | .call key args _ => Builtin.ofName? key == some .xmlValue && firstIsSigned scope args
  | _ => false

def firstIsSigned (scope : Scope) : List Expr → Bool
  | [] => false
  | x :: _ => x.isSigned scope

end

mutual

def Expr.trace (scope : Scope) : Expr → Trace
  | .binary _ l r => l.trace scope ++ r.trace scope
  | .unary .negate x => { introduces := x.isSigned scope } ++ x.trace scope
  | .unary .not x => x.trace scope
  | .unary .onesComplement x => x.trace scope
  | .case on whens otherwise =>
    onTrace scope on ++ whensTrace scope whens ++ elseTrace scope otherwise
  | .cast x _ => x.trace scope
  | .column c => scope.columnTrace c
  | .constant v _ => v.trace
  | .param p => scope.paramTrace p
  | .call key args result => callTrace key args (argTraces scope args) result

def onTrace (scope : Scope) : Option Expr → Trace
  | none => {}
  | some x => x.trace scope

def whensTrace (scope : Scope) : List (Expr × Expr) → Trace
  | [] => {}
  | (x, y) :: r => x.trace scope ++ y.trace scope ++ whensTrace scope r

def elseTrace (scope : Scope) : Option Expr → Trace
  | none => {}
  | some x => x.trace scope

def argTraces (scope : Scope) : List Expr → List Trace
  | [] => []
  | x :: r => x.trace scope :: argTraces scope r

end

theorem argTraces_eq_map (scope : Scope) (args : List Expr) :
    argTraces scope args = args.map (Expr.trace scope) := by
  induction args with
  | nil => rfl
  | cons x r ih => rw [argTraces, ih, List.map_cons]

theorem argTexts_eq_map (scope : Scope) (args : List Expr) :
    argTexts scope args = args.map (Expr.value scope) := by
  induction args with
  | nil => rfl
  | cons x r ih =>
    rw [argTexts, ih, List.map_cons]
    rfl

/-- A condition does not begin with a minus sign. -/
theorem Expr.isSigned_of_isPredicate {scope : Scope} {x : Expr} (h : x.isPredicate = true) :
    x.isSigned scope = false := by
  cases x with
  | call key args result =>
    simp only [isPredicate, Bool.or_eq_true, beq_iff_eq] at h
    rcases h with (rfl | rfl) | rfl <;> rfl
  | constant v t => cases h
  | param p => cases h
  | _ => rfl

/-! ### Parts of expressions -/

namespace Emission.Spells

variable {x y : Emission} {a b : Trace} {minus : Bool}

theorem inValue {isPredicate : Bool} (hx : x.Spells (.signed minus) (some .loose) a)
    (hm : isPredicate = true → minus = false) :
    (inContext .value isPredicate x).Spells (.signed minus) (some .loose) a := by
  cases isPredicate with
  | false => exact hx
  | true =>
    rw [hm rfl]
    exact ((((ofWord "CAST(CASE WHEN ").value hx).word " THEN 1 ELSE 0 END AS BIT)").closed
      (by decide)).unsigned

theorem inPredicate {start : Start} (isPredicate : Bool) (hx : x.Spells start (some .loose) a) :
    (inContext .predicate isPredicate x).Spells .harmless (some .loose) a := by
  cases isPredicate with
  | false => exact ((((ofWord "(").value hx).word " = 1)").closed (by decide)).harmless
  | true => exact hx.harmless

theorem infixed (kind : BinaryKind) {start start' : Start} (hx : x.Spells start (some .loose) a)
    (hy : y.Spells start' (some .loose) b) :
    (Tsql.infixed kind.token x y).Spells .anywhere (some .loose) (a ++ b) :=
  (((((((ofWord "(").value hx).word " ").word kind.token).word " ").value hy).word ")").closed
    (by cases kind <;> decide)

theorem callOf {function : String} (hf : Edge.loose.word function = some .tight)
    {items : List Expr} {f : Expr → Emission} {g : Expr → Trace}
    (h : ∀ i ∈ items, (f i).Spells .harmless (some .loose) (g i)) :
    (Tsql.callOf function (items.map f)).Spells .anywhere (some .loose) (Trace.join (items.map g)) :=
  (((((ofWord function).at_edge hf).word "(").value (listed h)).word ")").closed (by decide)

theorem branchOf (hx : x.Spells .harmless (some .loose) a)
    {start : Start} (hy : y.Spells start (some .loose) b) :
    (Tsql.branchOf x y).Spells .anywhere (some .loose) (a ++ b) :=
  ((((line.word "WHEN ").value hx).word " THEN ").value hy).closed (by decide)

theorem caseOf {z : Emission} {c : Trace} (hx : x.Spells .anywhere (some .loose) a)
    (hy : y.Spells .anywhere (some .loose) b) (hz : z.Spells .anywhere (some .loose) c)
    (branchCount : Nat) :
    (Tsql.caseOf x y z branchCount).Spells .anywhere (some .loose) (a ++ b ++ c) := by
  unfold Tsql.caseOf
  split
  · exact fail _
  · exact ((((((((ofWord "CASE").clause hx).silent indent).clause hy).clause hz).silent
      outdent).silent line).word "END").closed (by decide)

theorem column (scope : Scope) (c : ColumnRef) :
    (scope.column c).Spells .anywhere (some .loose) (scope.columnTrace c) := by
  unfold Scope.column Scope.columnTrace
  cases scope.aliases with
  | none => exact (name _).loosen
  | some aliases =>
    dsimp only
    cases aliases.get? c.model with
    | none => exact fail _
    | some source => exact (((name source).word ".").clause (name _)).closed (by decide)

theorem constant (t : ValueType) (v : Value) :
    (Emission.constant t v).Spells (.signed v.isSigned) (some .loose) v.trace :=
  after fun _ => literal

theorem placeholder (p : Param) : (piece (.placeholder p)).Spells .anywhere (some .tight) {} := by
  intro e he _ params s _
  have hat : Edge.loose.word "@p" = some .tight := by decide
  have h := ((ofWord "@p").at_edge hat).appendText (natText (paramNumber params p))
  exact h e he rfl params s rfl

theorem param (scope : Scope) (p : Param) :
    (scope.param p).Spells (.signed (scope.paramIsSigned p)) (some .loose)
      (scope.paramTrace p) := by
  unfold Scope.param Scope.paramIsSigned Scope.paramTrace
  cases scope.inlined with
  | none => exact (placeholder p).loosen.unsigned
  | some bindings => exact constant _ _

theorem defaultType {t : ValueType} {type : SqlType} (h : Tsql.defaultType t = .ok type) :
    (Emission.word type.sql).Spells .anywhere (some .tight) {} := by
  refine sqlType ?_
  rintro n rfl
  cases t with
  | enum enumName storage =>
    have h := Except.ok.inj h
    cases storage <;> cases h
  | custom typeName => cases h
  | _ => cases h

theorem xmlValueCall {start : Start} (hx : x.Spells start (some .loose) a) (key : String)
    (path : Expr) (result : ValueType) :
    (Tsql.xmlValueCall key x path result).Spells start (some .loose)
      (a ++ xmlValueTrace path result) := by
  unfold Tsql.xmlValueCall xmlValueTrace
  cases constantPath? path with
  | none => exact fail _
  | some p =>
    refine after fun type htype => ?_
    rw [htype]
    have h := ((((hx.word ".value(").clause (national p)).word ", ").clause
      (national type.sql)).word ")"
    rw [Trace.append_assoc] at h
    exact h.closed (by decide)

theorem windowed {start : Start} (h : x.Spells start (some .loose) a) :
    (x ++ Emission.word " " ++ Emission.word wholeWindow).Spells start (some .loose) a := by
  have hblank : Edge.loose.word " " = some .tight := by decide
  have hwindow : Edge.tight.word wholeWindow = some .tight := by
    rw [Edge.word, wholeWindow, String.toList_ofList]
    decide
  refine ((h.word " ").word wholeWindow).closed ?_
  rw [Option.bind_some, hblank, Option.bind_some, hwindow]
  rfl

theorem function {scope : Scope} {args : List Expr}
    (h : ∀ x ∈ args, (x.value scope).Spells (.signed (x.isSigned scope)) (some .loose)
      (x.trace scope)) (key : String) (result : ValueType) :
    (scope.function key args (args.map (Expr.value scope)) result).Spells
      (.signed (Builtin.ofName? key == some .xmlValue && firstIsSigned scope args)) (some .loose)
      (callTrace key args (args.map (Expr.trace scope)) result) := by
  have hcall : ∀ name : String, Edge.loose.word name = some .tight →
      (Tsql.callOf name (args.map (Expr.value scope))).Spells .anywhere (some .loose)
        (Trace.join (args.map (Expr.trace scope))) :=
    fun _ hname => callOf hname fun x hx => (h x hx).harmless
  unfold Scope.function callTrace
  cases hb : Builtin.ofName? key with
  | none => exact fail _
  | some b =>
    -- By the number of operands: every other function fails in each case.
    rcases args with _ | ⟨x, _ | ⟨y, _ | ⟨z, rest⟩⟩⟩
    · cases b with
      | now => exact ((ofWord "GETDATE()").closed (by decide)).unsigned
      | utcNow => exact ((ofWord "GETUTCDATE()").closed (by decide)).unsigned
      | newGuid => exact ((ofWord "NEWID()").closed (by decide)).unsigned
      | countRows => exact ((ofWord "COUNT(*)").closed (by decide)).unsigned
      | _ => exact fail _
    · have hx : (x.value scope).Spells (.signed (x.isSigned scope)) (some .loose)
          (Trace.join [x.trace scope]) := by
        rw [Trace.join_singleton]
        exact h x (by simp)
      cases b with
      | isNull =>
        exact ((((ofWord "(").value hx).word " IS NULL)").closed (by decide)).unsigned
      | isNotNull =>
        exact ((((ofWord "(").value hx).word " IS NOT NULL)").closed (by decide)).unsigned
      | average => exact (hcall "AVG" (by decide)).unsigned
      | count => exact (hcall "COUNT" (by decide)).unsigned
      | max => exact (hcall "MAX" (by decide)).unsigned
      | min => exact (hcall "MIN" (by decide)).unsigned
      | sum => exact (hcall "SUM" (by decide)).unsigned
      | first => exact (windowed (hcall "FIRST_VALUE" (by decide))).unsigned
      | last => exact (windowed (hcall "LAST_VALUE" (by decide))).unsigned
      | trim =>
        refine unsigned ?_
        show (ite _ _ _ : Emission).Spells _ _ _
        split
        · exact hcall "TRIM" (by decide)
        · exact (((ofWord "LTRIM(RTRIM(").value hx).word "))").closed (by decide)
      | _ => exact fail _
    · have hx := h x (by simp)
      have hy := h y (by simp)
      cases b with
      | ifNull =>
        have hlast : (y.value scope).Spells (.signed (y.isSigned scope)) (some .loose)
            (Trace.join [y.trace scope]) := by
          rw [Trace.join_singleton]
          exact hy
        exact ((((((ofWord "ISNULL(").value hx).word ", ").value hlast).word ")").closed
          (by decide)).unsigned
      | coalesce => exact (hcall "COALESCE" (by decide)).unsigned
      | contains =>
        exact ((((((ofWord "(CHARINDEX(").value hy).word ", ").value hx).word ") > 0)").closed
          (by decide)).unsigned
      | xmlValue => exact xmlValueCall hx key y result
      | stringAgg =>
        refine unsigned ?_
        show (stringAggCall _ _ _).Spells _ _ _
        unfold stringAggCall
        split
        · exact hcall "STRING_AGG" (by decide)
        · exact fail _
      | _ => exact fail _
    · cases b with
      | coalesce =>
        refine unsigned ?_
        show (ite _ _ _ : Emission).Spells _ _ _
        split
        · exact hcall "COALESCE" (by decide)
        · exact fail _
      | _ => exact fail _

theorem inContext (context : Context) {isPredicate : Bool}
    (hx : x.Spells (.signed minus) (some .loose) a) (hm : isPredicate = true → minus = false) :
    (Tsql.inContext context isPredicate x).Spells .harmless (some .loose) a := by
  cases context with
  | value => exact (inValue hx hm).harmless
  | predicate => exact inPredicate isPredicate hx

end Emission.Spells

/-! ### Trees -/

mutual

theorem Expr.node_spells (scope : Scope) (x : Expr) :
    (x.node scope).Spells (.signed (x.isSigned scope)) (some .loose) (x.trace scope) := by
  match x with
  | .binary kind l r =>
    rw [Expr.node, Expr.trace]
    exact (Spells.infixed kind
      (Spells.inContext _ (l.node_spells scope) Expr.isSigned_of_isPredicate)
      (Spells.inContext _ (r.node_spells scope) Expr.isSigned_of_isPredicate)).unsigned
  | .unary .negate x =>
    have hx := Spells.inValue (x.node_spells scope) Expr.isSigned_of_isPredicate
    rw [Expr.node, Expr.trace]
    -- Nothing stands between the sign and the operand, which may begin with another sign.
    exact ((((Spells.ofWord "(-").negated hx).word ")").closed (by decide)).unsigned
  | .unary .not x =>
    have hx := Spells.inPredicate x.isPredicate (x.node_spells scope)
    rw [Expr.node, Expr.trace]
    exact ((((Spells.ofWord "(NOT ").value hx).word ")").closed (by decide)).unsigned
  | .unary .onesComplement x =>
    have hx := Spells.inValue (x.node_spells scope) Expr.isSigned_of_isPredicate
    rw [Expr.node, Expr.trace]
    exact ((((Spells.ofWord "(~").value hx).word ")").closed (by decide)).unsigned
  | .case on whens otherwise =>
    rw [Expr.node, Expr.trace]
    exact (Spells.caseOf (onText_spells scope on) (whensText_spells scope _ whens)
      (elseText_spells scope otherwise) _).unsigned
  | .cast x target =>
    have hx := Spells.inValue (x.node_spells scope) Expr.isSigned_of_isPredicate
    rw [Expr.node, Expr.trace]
    refine Spells.unsigned (Spells.after fun type htype => ?_)
    exact (((((Spells.ofWord "CAST(").value hx).word " AS ").silent
      (Spells.defaultType htype)).word ")").closed (by decide)
  | .column c =>
    rw [Expr.node, Expr.trace]
    exact (Spells.column scope c).unsigned
  | .constant v t =>
    rw [Expr.node, Expr.trace, Expr.isSigned]
    exact Spells.constant t v
  | .param p =>
    rw [Expr.node, Expr.trace, Expr.isSigned]
    exact Spells.param scope p
  | .call key args result =>
    rw [Expr.node, Expr.trace, Expr.isSigned, argTexts_eq_map, argTraces_eq_map]
    exact Spells.function (args_spell scope args) key result

theorem onText_spells (scope : Scope) (on : Option Expr) :
    (onText scope on).Spells .anywhere (some .loose) (onTrace scope on) := by
  match on with
  | none => exact Spells.nothing
  | some x =>
    have hx := Spells.inValue (x.node_spells scope) Expr.isSigned_of_isPredicate
    rw [onText, onTrace]
    exact ((Spells.ofWord " ").value hx).closed (by decide)

theorem whensText_spells (scope : Scope) (context : Context) (whens : List (Expr × Expr)) :
    (whensText scope context whens).Spells .anywhere (some .loose) (whensTrace scope whens) := by
  match whens with
  | [] => exact Spells.nothing
  | (x, y) :: rest =>
    have hx := Spells.inContext context (x.node_spells scope) Expr.isSigned_of_isPredicate
    have hy := Spells.inValue (y.node_spells scope) Expr.isSigned_of_isPredicate
    rw [whensText, whensTrace]
    exact ((Spells.branchOf hx hy).clause (whensText_spells scope context rest)).closed
      (by decide)

theorem elseText_spells (scope : Scope) (otherwise : Option Expr) :
    (elseText scope otherwise).Spells .anywhere (some .loose) (elseTrace scope otherwise) := by
  match otherwise with
  | none => exact Spells.nothing
  | some x =>
    have hx := Spells.inValue (x.node_spells scope) Expr.isSigned_of_isPredicate
    rw [elseText, elseTrace]
    exact ((Spells.line.word "ELSE ").value hx).closed (by decide)

theorem args_spell (scope : Scope) (args : List Expr) : ∀ x ∈ args,
    (x.value scope).Spells (.signed (x.isSigned scope)) (some .loose) (x.trace scope) := by
  match args with
  | [] =>
    intro x hx
    cases hx
  | y :: rest =>
    have hy := Spells.inValue (y.node_spells scope) Expr.isSigned_of_isPredicate
    intro x hx
    rcases List.mem_cons.1 hx with rfl | hx
    · exact hy
    · exact args_spell scope rest x hx

end

namespace Expr

theorem value_spells (scope : Scope) (x : Expr) :
    (x.value scope).Spells (.signed (x.isSigned scope)) (some .loose) (x.trace scope) :=
  Spells.inValue (x.node_spells scope) isSigned_of_isPredicate

theorem predicate_spells (scope : Scope) (x : Expr) :
    (x.predicate scope).Spells .harmless (some .loose) (x.trace scope) :=
  Spells.inPredicate _ (x.node_spells scope)

end Expr

end Tsql
