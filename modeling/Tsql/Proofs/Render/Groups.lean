import Tsql.Proofs.Render.WellFormed

/-!
# Parentheses of a rendering

A rendering closes the parentheses that it opens. A condition stands in parentheses that belong together
(`Expr.predicate_isGroup`), so that no operator in it is met from outside.
-/

namespace Tsql

open Text Emission

/-! ### Depth -/

namespace Text

variable {depth depth' : Nat} {l l' : List Lexeme}

theorem parenDepth_append (depth : Nat) (l l' : List Lexeme) :
    parenDepth depth (l ++ l') = (parenDepth depth l).bind fun depth => parenDepth depth l' := by
  induction l generalizing depth with
  | nil => rfl
  | cons x rest ih =>
    cases x with
    | token t => exact ih depth
    | mark c =>
      simp only [List.cons_append, parenDepth]
      split_ifs
      · exact ih _
      · cases depth with
        | zero => rfl
        | succ n => exact ih n
      · exact ih depth

theorem parenDepth_succ (h : parenDepth depth l = some depth') :
    parenDepth (depth + 1) l = some (depth' + 1) := by
  induction l generalizing depth with
  | nil =>
    cases h
    rfl
  | cons x rest ih =>
    cases x with
    | token t => exact ih h
    | mark c =>
      simp only [parenDepth] at h ⊢
      split_ifs at h ⊢
      · exact ih h
      · cases depth with
        | zero => cases h
        | succ n => exact ih h
      · exact ih h

theorem Survey.parenDepth_of_run {s t : Survey} (h : s.run l = some t) :
    parenDepth s.depth l = some t.depth := by
  induction l generalizing s with
  | nil =>
    cases h
    rfl
  | cons x rest ih =>
    obtain ⟨u, hu, hrest⟩ := run_cons h
    by_cases hx : x = .mark ';'
    · subst hx
      obtain ⟨hs, hzero, -⟩ := of_semicolon hu
      have hdepth := ih hrest
      rw [hzero] at hdepth
      rw [hs]
      exact hdepth
    · rw [(parenDepth_of_step hu hx rest).1, ih hrest]

end Text

/-- A rendering that closes its parentheses has balanced lexemes. -/
theorem Emission.Spells.parenDepth {x : Emission} {start : Start} {trace : Trace}
    (h : x.Spells start (some .loose) trace) (hf : x.failure = none) (params : List Param) :
    Text.parenDepth 0 (x.lexemes params) = some 0 := by
  obtain ⟨last, -, hrun⟩ := h.harmless .loose rfl hf params {} rfl
  exact Survey.parenDepth_of_run hrun

/-! ### Conditions -/

/-- A rendering without errors that closes its parentheses. -/
structure Emission.IsBalanced (x : Emission) (params : List Param) : Prop where
  failure_eq : x.failure = none
  depth : Text.parenDepth 0 (x.lexemes params) = some 0

/-- A rendering in parentheses that belong together. -/
def Emission.IsGroup (x : Emission) (params : List Param) : Prop :=
  ∃ l, x.lexemes params = .mark '(' :: (l ++ [.mark ')']) ∧ Text.parenDepth 0 l = some 0

namespace Emission

variable {x y : Emission} {params : List Param} {start : Start} {trace : Trace}

theorem Spells.isBalanced (h : x.Spells start (some .loose) trace) (hf : x.failure = none)
    (params : List Param) : x.IsBalanced params := ⟨hf, h.parenDepth hf params⟩

namespace IsBalanced

theorem append (hx : x.IsBalanced params) (hy : y.IsBalanced params) : (x ++ y).IsBalanced params := by
  refine ⟨failure_append.2 ⟨hx.failure_eq, hy.failure_eq⟩, ?_⟩
  rw [lexemes_append hx.failure_eq, parenDepth_append, hx.depth]
  exact hy.depth

theorem word {s : String} (h : Text.parenDepth 0 (marks s) = some 0) : (Emission.word s).IsBalanced params :=
  ⟨rfl, by rwa [lexemes_word]⟩

/-- What stands between two words, the first of which opens a parenthesis and the last of which closes
it. -/
theorem isGroup (before behind : List Lexeme) {first last : String} (hx : x.IsBalanced params)
    (hfirst : marks first = .mark '(' :: before) (hlast : marks last = behind ++ [.mark ')'])
    (hbefore : Text.parenDepth 0 before = some 0) (hbehind : Text.parenDepth 0 behind = some 0) :
    (Emission.word first ++ x ++ Emission.word last).IsGroup params := by
  refine ⟨before ++ x.lexemes params ++ behind, ?_, ?_⟩
  · rw [lexemes_append (failure_append.2 ⟨rfl, hx.failure_eq⟩), lexemes_append rfl, lexemes_word,
      lexemes_word, hfirst, hlast]
    simp
  · simp [parenDepth_append, hbefore, hx.depth, hbehind]

end IsBalanced

end Emission

namespace Expr

variable {scope : Scope} {params : List Param} {x : Expr}

theorem isBalanced (params : List Param) (context : Context)
    (hf : (inContext context x.isPredicate (x.node scope)).failure = none) :
    (inContext context x.isPredicate (x.node scope)).IsBalanced params := by
  exact (Spells.inContext context (x.node_spells scope) isSigned_of_isPredicate).isBalanced hf params

theorem infixed_isGroup {a b : Emission} (kind : BinaryKind) (ha : a.IsBalanced params)
    (hb : b.IsBalanced params) : (infixed kind.token a b).IsGroup params := by
  have htoken : (word kind.token).IsBalanced params := .word (by cases kind <;> decide)
  have hall := (((ha.append (.word (s := " ") rfl)).append htoken).append
    (.word (s := " ") rfl)).append hb
  have hopen : marks "(" = [.mark '('] := rfl
  have hclose : marks ")" = [.mark ')'] := rfl
  have hgroup := hall.isGroup [] [] hopen hclose rfl rfl
  simpa only [infixed, Emission.append_assoc] using hgroup

theorem containsCall_isGroup {a b : Emission} (ha : a.IsBalanced params) (hb : b.IsBalanced params) :
    (word "(CHARINDEX(" ++ b ++ word ", " ++ a ++ word ") > 0)").IsGroup params := by
  refine ⟨marks "CHARINDEX(" ++ (b ++ word ", " ++ a).lexemes params ++ marks ") > 0", ?_, ?_⟩
  · have hfirst : marks "(CHARINDEX(" = .mark '(' :: marks "CHARINDEX(" := rfl
    have hlast : marks ") > 0)" = marks ") > 0" ++ [.mark ')'] := rfl
    have hhead := lexemes_append (y := b) (failure_word "(CHARINDEX(") params
    simp [lexemes_append, hhead, failure_append, ha.failure_eq, hb.failure_eq, lexemes_word, hfirst, hlast]
  · have hoperands := (hb.append (.word (s := ", ") rfl)).append ha
    have hfunction : Text.parenDepth 0 (marks "CHARINDEX(") = some 1 := rfl
    have hbehind : Text.parenDepth 1 (marks ") > 0") = some 0 := rfl
    simp only [parenDepth_append, hfunction, Option.bind_some, parenDepth_succ hoperands.depth, hbehind]

theorem call_isGroup {key : String} {args : List Expr} {result : ValueType}
    (hp : (call key args result).isPredicate = true)
    (hf : (scope.function key args (args.map (value scope)) result).failure = none) :
    (scope.function key args (args.map (value scope)) result).IsGroup params := by
  simp only [isPredicate, Bool.or_eq_true, beq_iff_eq] at hp
  rcases hp with (rfl | rfl) | rfl
  · obtain ⟨hfits, hargs⟩ := (builtin_renders .isNull args).1 hf
    obtain ⟨x, rfl⟩ := List.length_eq_one_iff.1 (of_decide_eq_true hfits.takes)
    have hx := isBalanced params .value (hargs x (List.mem_singleton_self x))
    exact hx.isGroup [] (marks " IS NULL") rfl rfl rfl rfl
  · obtain ⟨hfits, hargs⟩ := (builtin_renders .isNotNull args).1 hf
    obtain ⟨x, rfl⟩ := List.length_eq_one_iff.1 (of_decide_eq_true hfits.takes)
    have hx := isBalanced params .value (hargs x (List.mem_singleton_self x))
    exact hx.isGroup [] (marks " IS NOT NULL") rfl rfl rfl rfl
  · obtain ⟨hfits, hargs⟩ := (builtin_renders .contains args).1 hf
    obtain ⟨x, y, rfl⟩ := List.length_eq_two.1 (of_decide_eq_true hfits.takes)
    rw [callOperands_name] at hargs
    have hx := isBalanced params .value (hargs x (by simp))
    have hy := isBalanced params .value (hargs y (by simp))
    exact containsCall_isGroup hx hy

/-- A condition stands in parentheses. -/
theorem predicate_isGroup (hf : (x.predicate scope).failure = none) (params : List Param) :
    (x.predicate scope).IsGroup params := by
  unfold predicate at hf ⊢
  cases hp : x.isPredicate with
  | false =>
    -- A value is compared with one: `(x = 1)`.
    have hx := (x.node_spells scope).isBalanced (failure_inContext.1 hf) params
    exact hx.isGroup [] (marks " = 1") rfl rfl rfl rfl
  | true =>
    rw [hp] at hf
    cases x with
    | binary kind l r =>
      change ((binary kind l r).node scope).failure = none at hf
      show ((binary kind l r).node scope).IsGroup params
      rw [node] at hf ⊢
      obtain ⟨hl, hr⟩ := infixed_renders _ |>.1 hf
      exact infixed_isGroup kind (isBalanced params _ hl) (isBalanced params _ hr)
    | unary kind x =>
      obtain rfl : kind = .not := by simpa [isPredicate] using hp
      change ((unary .not x).node scope).failure = none at hf
      show ((unary .not x).node scope).IsGroup params
      rw [node] at hf ⊢
      exact (isBalanced params .predicate (failure_append.1 (failure_append.1 hf).1).2).isGroup
        (marks "NOT ") [] rfl rfl rfl rfl
    | call key args result =>
      change ((call key args result).node scope).failure = none at hf
      show ((call key args result).node scope).IsGroup params
      rw [node, argTexts_eq_map] at hf ⊢
      exact call_isGroup hp hf
    -- Nothing else is a condition.
    | case | cast | column | constant | param => cases hp

end Expr

end Tsql
