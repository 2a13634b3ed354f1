import Tsql.Proofs.Codec.NativeForms
import Tsql.Proofs.Render.Derivation

/-!
# The expressions that render

`Expr.IsPart` says that an expression is a part of another one, at any depth. `Expr.WellFormed` is what the
parts have to satisfy, one condition for each kind of part, and `Expr.renders_iff_wellFormed` is that exactly
the well-formed expressions render, in either category. The path of an XML value is written as it stands: it has to be a
constant text, and its declared type is not looked at.
-/

namespace Tsql

open Emission

/-! ### Parts -/

def ValueType.isCustom : ValueType → Bool
  | custom _ => true
  | _ => false

def Builtin.takes (b : Builtin) (n : Nat) : Bool :=
  if b = .coalesce then decide (2 ≤ n) else n == b.arity

def callOperands {α : Type} (paths : Bool) (key : String) (operands : List α) : List α :=
  if !paths && key == Builtin.xmlValue.name then operands.take 1 else operands

namespace Expr

/-- The operands of an expression, with or without the path of an XML value. -/
def operands (paths : Bool) : Expr → List Expr
  | .binary _ l r => [l, r]
  | .unary _ x => [x]
  | .case on whens otherwise =>
    on.toList ++ whens.flatMap (fun w => [w.1, w.2]) ++ otherwise.toList
  | .cast x _ => [x]
  | .call key args _ => callOperands paths key args
  | _ => []

/-- An expression is part of another at some depth. -/
inductive IsPart (paths : Bool) (z : Expr) : Expr → Prop where
  | self : IsPart paths z z
  | operand {x y : Expr} : y ∈ x.operands paths → IsPart paths z y → IsPart paths z x

/-- What the parts of an expression have to satisfy for a version and some aliases. Only the conditions
on constants leave out the paths of XML values. -/
structure WellFormed (version : Version) (aliases : AliasMap) (x : Expr) : Prop where
  cases : ∀ on whens otherwise, IsPart true (.case on whens otherwise) x → whens ≠ []
  calls : ∀ key args result, IsPart true (.call key args result) x →
    ∃ b : Builtin, key = b.name ∧ b.takes args.length = true
  stringAggs : ∀ args result, IsPart true (.call Builtin.stringAgg.name args result) x →
    version = .sql14
  xmlValues : ∀ y path result, IsPart true (.call Builtin.xmlValue.name [y, path] result) x →
    (∃ s t, path = .constant (.string s) t) ∧ result.isCustom = false
  casts : ∀ y target, IsPart true (.cast y target) x → target.isCustom = false
  constants : ∀ v t, IsPart false (.constant v t) x → t.isCustom = false ∧
    (∀ type, defaultType t = .ok type → storable type v = true) ∧ v.isNonFinite = false
  columns : ∀ c, IsPart true (.column c) x → (aliases.get? c.model).isSome = true

end Expr

/-! ### What a part needs by itself -/

variable {version : Version} {aliases : AliasMap} {scope : Scope} {key : String} {args : List Expr}
  {result t : ValueType} {v : Value}

theorem exists_defaultType_iff : (∃ type, defaultType t = .ok type) ↔ t.isCustom = false := by
  cases t <;> simp [defaultType, ValueType.isCustom]

theorem exists_constantPath? {path : Expr} :
    (∃ s, constantPath? path = some s) ↔ ∃ s t, path = .constant (.string s) t := by
  unfold constantPath?
  split <;> simp_all

/-- The requirements of a call apart from those of its operands. -/
@[mk_iff]
structure Builtin.Fits (b : Builtin) (version : Version) (args : List Expr) (result : ValueType) :
    Prop where
  takes : b.takes args.length = true
  stringAgg : b = .stringAgg → version = .sql14
  xmlValue : b = .xmlValue → ∀ x path, args = [x, path] →
    (∃ s t, path = .constant (.string s) t) ∧ result.isCustom = false

namespace Expr

/-- The requirements of an expression apart from those of its parts. -/
def Fits (version : Version) (aliases : AliasMap) : Expr → Prop
  | .case _ whens _ => whens ≠ []
  | .cast _ target => target.isCustom = false
  | .column c => (aliases.get? c.model).isSome = true
  | .constant v t => t.isCustom = false ∧
      (∀ type, defaultType t = .ok type → storable type v = true) ∧ v.isNonFinite = false
  | .call key args result => ∃ b : Builtin, key = b.name ∧ b.Fits version args result
  | _ => True

end Expr

namespace Emission

variable {x y z : Emission}

@[simp] theorem failure_word (s : String) : (word s).failure = none := rfl

@[simp] theorem failure_line : line.failure = none := rfl

@[simp] theorem failure_fail (e : Error) : (fail e).failure = some e := rfl

@[simp] theorem infixed_renders (token : String) :
    (infixed token x y).failure = none ↔ x.failure = none ∧ y.failure = none := by
  simp [infixed, failure_append]

@[simp] theorem branchOf_renders :
    (branchOf x y).failure = none ↔ x.failure = none ∧ y.failure = none := by
  simp [branchOf, failure_append]

@[simp] theorem caseOf_renders {branchCount : Nat} : (caseOf x y z branchCount).failure = none ↔
    branchCount ≠ 0 ∧ x.failure = none ∧ y.failure = none ∧ z.failure = none := by
  refine ⟨failure_caseOf, fun ⟨hpos, hx, hy, hz⟩ => ?_⟩
  simp [caseOf, failure_append, hpos, hx, hy, hz, piece]

theorem castOf_renders {target : ValueType} :
    (after (defaultType target) fun type =>
      word "CAST(" ++ x ++ word " AS " ++ word type.sql ++ word ")").failure = none ↔
        target.isCustom = false ∧ x.failure = none := by
  rw [← exists_defaultType_iff]
  cases defaultType target <;> simp [after, failure_append]

theorem constant_renders (version : Version) (aliases : AliasMap) :
    (constant t v).failure = none ↔ Expr.Fits version aliases (.constant v t) := by
  have hliteral : (constant t v).failure = none ↔ ∃ l, typedLiteral t v = .ok l := by
    unfold constant
    cases typedLiteral t v <;> simp [after, piece]
  rw [hliteral, typedLiteral, Expr.Fits, ← exists_defaultType_iff]
  cases htype : defaultType t with
  | error e => simp [bind, Except.bind]
  | ok type =>
    show (∃ l, literal type v = .ok l) ↔ _
    simp [exists_literal]

theorem column_renders {c : ColumnRef} :
    (Scope.column { version, aliases := some aliases } c).failure = none ↔
      Expr.Fits version aliases (.column c) := by
  simp only [Scope.column, Expr.Fits]
  cases aliases.get? c.model with
  | none => simp
  | some source => simp [failure_append, name, piece]

@[simp] theorem callOf_renders (function : String) {items : List Emission} :
    (callOf function items).failure = none ↔ ∀ x ∈ items, x.failure = none := by
  simp [callOf, failure_append, failure_listed]

@[simp] theorem stringAggCall_renders {items : List Emission} :
    (stringAggCall version key items).failure = none ↔
      version = .sql14 ∧ ∀ x ∈ items, x.failure = none := by
  unfold stringAggCall
  cases version <;> simp [Version.has2017Functions]

@[simp] theorem xmlValueCall_renders {path : Expr} :
    (xmlValueCall key x path result).failure = none ↔
      ((∃ s t, path = .constant (.string s) t) ∧ result.isCustom = false) ∧ x.failure = none := by
  rw [← exists_constantPath?, ← exists_defaultType_iff]
  unfold xmlValueCall
  cases constantPath? path with
  | none => simp
  | some p => cases defaultType result <;> simp [after, failure_append, national, piece]

end Emission

/-! ### Calls -/

section Calls

variable {f : Expr → Emission} {b : Builtin}

theorem Builtin.ofName?_name (b : Builtin) : Builtin.ofName? b.name = some b := by
  cases b <;> decide

theorem Builtin.name_of_ofName? (h : Builtin.ofName? key = some b) : b.name = key := by
  simpa using List.find?_some h

theorem Builtin.name_inj {c : Builtin} (h : b.name = c.name) : b = c := by
  simpa [Builtin.ofName?_name] using congrArg Builtin.ofName? h

theorem fits_call : Expr.Fits version aliases (.call b.name args result) ↔
    b.Fits version args result := by
  constructor
  · rintro ⟨c, hc, hfits⟩
    rwa [Builtin.name_inj hc]
  · exact fun h => ⟨b, rfl, h⟩

theorem callOperands_subset (paths : Bool) (args : List Expr) :
    callOperands paths key args ⊆ args := by
  unfold callOperands
  split
  · exact List.take_subset 1 args
  · exact List.Subset.refl args

theorem callOperands_name {α : Type} (b : Builtin) (operands : List α) :
    callOperands false b.name operands = if b = .xmlValue then operands.take 1 else operands := by
  cases b <;> rfl

theorem builtin_renders (b : Builtin) (args : List Expr) :
    (scope.function b.name args (args.map f) result).failure = none ↔
      b.Fits scope.version args result ∧
        ∀ x ∈ callOperands false b.name args, (f x).failure = none := by
  rw [callOperands_name, Builtin.fits_iff]
  unfold Scope.function
  rw [Builtin.ofName?_name]
  -- By the number of operands: with another number than its own a call fails, whatever it is called.
  rcases args with _ | ⟨x, _ | ⟨y, _ | ⟨z, rest⟩⟩⟩
  · cases b <;> simp [Builtin.takes, Builtin.arity, arityError]
  · cases b with
    | trim =>
      cases hversion : scope.version <;>
        simp [Builtin.takes, Builtin.arity, Version.has2017Functions, failure_append]
    | _ => simp [Builtin.takes, Builtin.arity, arityError, failure_append]
  · cases b with
    | contains => simp [Builtin.takes, Builtin.arity, failure_append, and_comm]
    | _ => simp [Builtin.takes, Builtin.arity, arityError, failure_append]
  · cases b <;> simp [Builtin.takes, Builtin.arity, arityError]

theorem function_renders (aliases : AliasMap) (args : List Expr) :
    (scope.function key args (args.map f) result).failure = none ↔
      Expr.Fits scope.version aliases (.call key args result) ∧
        ∀ x ∈ callOperands false key args, (f x).failure = none := by
  cases hb : Builtin.ofName? key with
  | none =>
    have hunknown : ¬ Expr.Fits scope.version aliases (.call key args result) := by
      rintro ⟨b, rfl, -⟩
      simp [Builtin.ofName?_name] at hb
    simp [Scope.function, hb, hunknown]
  | some b =>
    obtain rfl := Builtin.name_of_ofName? hb
    rw [fits_call, builtin_renders]

end Calls

/-! ### Trees -/

theorem on_renders {on : Option Expr} : (onText scope on).failure = none ↔
    ∀ x ∈ on.toList, (x.node scope).failure = none := by
  cases on <;> simp [onText, nothing, failure_append, failure_inContext]

theorem else_renders {otherwise : Option Expr} : (elseText scope otherwise).failure = none ↔
    ∀ x ∈ otherwise.toList, (x.node scope).failure = none := by
  cases otherwise <;> simp [elseText, nothing, failure_append, failure_inContext]

theorem whens_render {context : Context} {whens : List (Expr × Expr)} :
    (whensText scope context whens).failure = none ↔
      ∀ x ∈ whens.flatMap (fun w => [w.1, w.2]), (x.node scope).failure = none := by
  induction whens with
  | nil => simp [whensText, nothing]
  | cons when rest ih =>
    rw [whensText, failure_append, ih, List.flatMap_cons, List.forall_mem_append]
    simp [failure_inContext]

namespace Expr

variable {x y z : Expr} {paths : Bool}

/-- One level of a rendering: it fails only where the expression itself or one of its operands does. -/
theorem node_renders (x : Expr) : (x.node { version, aliases := some aliases }).failure = none ↔
    x.Fits version aliases ∧
      ∀ y ∈ x.operands false, (y.node { version, aliases := some aliases }).failure = none := by
  cases x with
  | binary kind l r => simp [node, Fits, operands, failure_inContext]
  | unary kind x => cases kind <;> simp [node, Fits, operands, failure_append, failure_inContext]
  | case on whens otherwise =>
    rw [node, caseOf_renders, on_renders, whens_render, else_renders]
    simp only [Fits, operands, List.forall_mem_append, ne_eq, List.length_eq_zero_iff, and_assoc]
  | cast x target => simp [node, castOf_renders, Fits, operands, failure_inContext]
  | column c => simp [node, column_renders, operands]
  | constant v t =>
    rw [node, constant_renders version aliases]
    simp [operands]
  | param p => simp [node, Scope.param, piece, Fits, operands]
  | call key args result =>
    rw [node, argTexts_eq_map, function_renders aliases]
    simp only [operands, value, failure_inContext]

theorem sizeOf_operand (h : y ∈ x.operands paths) : sizeOf y < sizeOf x := by
  cases x with
  | binary kind l r =>
    rw [binary.sizeOf_spec]
    rcases List.mem_pair.1 h with rfl | rfl <;> omega
  | unary kind x =>
    obtain rfl := List.mem_singleton.1 h
    rw [unary.sizeOf_spec]
    omega
  | case on whens otherwise =>
    simp only [operands, List.mem_append, Option.mem_toList, List.mem_flatMap, List.mem_pair] at h
    rcases h with (rfl | ⟨⟨a, b⟩, hmem, rfl | rfl⟩) | rfl
    · simp; omega
    · have := List.sizeOf_lt_of_mem hmem
      simp at this ⊢; omega
    · have := List.sizeOf_lt_of_mem hmem
      simp at this ⊢; omega
    · simp; omega
  | cast x target =>
    obtain rfl := List.mem_singleton.1 h
    simp
    omega
  | call key args result =>
    have := List.sizeOf_lt_of_mem (callOperands_subset paths args h)
    simp
    omega
  | column | constant | param => cases h

/-- An expression renders exactly if each of its parts fits. -/
theorem node_renders_iff_parts (x : Expr) :
    (x.node { version, aliases := some aliases }).failure = none ↔
      ∀ z, IsPart false z x → z.Fits version aliases := by
  constructor
  · intro hx z hz
    induction hz with
    | self => exact ((node_renders _).1 hx).1
    | operand hy _ ih => exact ih (((node_renders _).1 hx).2 _ hy)
  · intro hparts
    rw [node_renders]
    refine ⟨hparts x .self, fun y hy => ?_⟩
    have := sizeOf_operand hy
    exact (node_renders_iff_parts y).2 fun z hz => hparts z (.operand hy hz)
termination_by sizeOf x

theorem operands_subset (x : Expr) : x.operands false ⊆ x.operands true := by
  cases x with
  | call key args result => exact callOperands_subset false args
  | _ => exact List.Subset.refl _

theorem IsPart.withPaths (h : IsPart false z x) : IsPart true z x := by
  induction h with
  | self => exact .self
  | operand hy _ ih => exact .operand (operands_subset _ hy) ih

theorem IsPart.of_constant (h : IsPart paths z (.constant v t)) : z = .constant v t := by
  cases h with
  | self => rfl
  | operand hy => cases hy

/-- Where the expressions around it fit, a part that is no constant is not in the path of an XML value. -/
theorem IsPart.withoutPaths (h : IsPart true z x) (hz : ∀ v t, z ≠ .constant v t)
    (hparts : ∀ y, IsPart false y x → y.Fits version aliases) : IsPart false z x := by
  induction h with
  | self => exact .self
  | @operand x y hy hpart ih =>
    have hx := hparts x .self
    have hmem : y ∈ x.operands false := by
      cases x with
      | call key args result =>
        obtain ⟨b, rfl, hcall⟩ := hx
        rw [operands, callOperands_name]
        split_ifs with hb
        · obtain rfl := hb
          obtain ⟨a, path, rfl⟩ := List.length_eq_two.1 (of_decide_eq_true hcall.takes)
          obtain ⟨⟨s, t, rfl⟩, -⟩ := hcall.xmlValue rfl a path rfl
          rcases List.mem_pair.1 hy with rfl | rfl
          · exact List.mem_singleton_self y
          · exact absurd hpart.of_constant (hz _ _)
        · exact hy
      | _ => exact hy
    exact .operand hmem (ih fun w hw => hparts w (.operand hmem hw))

theorem wellFormed_iff : x.WellFormed version aliases ↔
    ∀ z, IsPart false z x → z.Fits version aliases := by
  constructor
  · intro h z hz
    cases z with
    | case on whens otherwise => exact h.cases _ _ _ hz.withPaths
    | cast y target => exact h.casts _ _ hz.withPaths
    | column c => exact h.columns _ hz.withPaths
    | constant v t => exact h.constants _ _ hz
    | call key args result =>
      obtain ⟨b, rfl, htakes⟩ := h.calls _ _ _ hz.withPaths
      refine ⟨b, rfl, htakes, ?_, ?_⟩
      · rintro rfl
        exact h.stringAggs _ _ hz.withPaths
      · rintro rfl y path rfl
        exact h.xmlValues _ _ _ hz.withPaths
    | binary | unary | param => trivial
  · intro h
    have hfits {z : Expr} (hz : IsPart true z x) (hconstant : ∀ v t, z ≠ .constant v t) :
        z.Fits version aliases := h z (hz.withoutPaths hconstant h)
    exact {
      cases := fun _ _ _ hz => hfits hz (by simp)
      calls := fun _ _ _ hz => by
        obtain ⟨b, hb, hcall⟩ := hfits hz (by simp)
        exact ⟨b, hb, hcall.takes⟩
      stringAggs := fun _ _ hz => (fits_call.1 (hfits hz (by simp))).stringAgg rfl
      xmlValues := fun _ _ _ hz => (fits_call.1 (hfits hz (by simp))).xmlValue rfl _ _ rfl
      casts := fun _ _ hz => hfits hz (by simp)
      constants := fun v t hz => h (.constant v t) hz
      columns := fun c hz => hfits (z := .column c) hz (by simp) }

/-- Exactly the well-formed expressions render, in either category. -/
theorem renders_iff_wellFormed (version : Version) (aliases : AliasMap) (x : Expr) :
    ((x.value { version, aliases := some aliases }).failure = none ↔ x.WellFormed version aliases) ∧
      ((x.predicate { version, aliases := some aliases }).failure = none ↔
        (x.value { version, aliases := some aliases }).failure = none) := by
  unfold value predicate
  rw [failure_inContext, failure_inContext, node_renders_iff_parts, wellFormed_iff]
  exact ⟨Iff.rfl, Iff.rfl⟩

/-- The value at a path that is declared with a type of its own. -/
def declaredPath : Expr :=
  .call Builtin.xmlValue.name
    [.constant (.string "<a/>") .string, .constant (.string "/a") (.custom "Path")] .string

/-- The declared type of a path is not looked at. -/
theorem declaredPath_renders :
    ((declaredPath.value { version := .sql13, aliases := some {} }).written []).text =
        "N'<a/>'.value(N'/a', N'NVARCHAR(MAX)')" ∧
      (declaredPath.value { version := .sql13, aliases := some {} }).failure = none ∧
      ¬ ∀ v t, IsPart true (.constant v t) declaredPath → t.isCustom = false := by
  refine ⟨by decide +kernel, by decide +kernel, fun h => ?_⟩
  have hpart : IsPart true (.constant (.string "/a") (.custom "Path")) declaredPath :=
    .operand (y := .constant (.string "/a") (.custom "Path"))
      (by simp [declaredPath, operands, callOperands]) .self
  exact absurd (h _ _ hpart) (by decide)

end Expr

end Tsql
