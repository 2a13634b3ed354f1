import Mathlib.Tactic.ByContra
import Tsql.Proofs.Text.Symbols
import Tsql.Statement.Basic

/-!
# The grammar of joins

`readJoins?` reads the symbols of a row source with the language's grammar of joins: joins associate to the
left, a group in parentheses is one operand, and the right operand of a join is followed by the `ON` with its
condition, unless the join is a `CROSS JOIN`, which has none. What is read is a `JoinTree`: its sources and
the conjuncts of its conditions are symbols that hold nothing of the grammar outside of parentheses.
-/

namespace Tsql

open Text

/-- A tree of joins as it is read from a text. -/
inductive JoinTree where
  | source (symbols : List Symbol)
  | join (kind : JoinKind) (left right : JoinTree) (conjuncts : List (List Symbol))
  deriving DecidableEq, Repr

/-! ### Keywords -/

def Text.Symbol.keyword? : Symbol → Option String
  | word s => some (String.ofList (s.toList.map Char.toUpper))
  | _ => none

def JoinKind.keyword : JoinKind → String
  | inner => "INNER"
  | left => "LEFT"
  | right => "RIGHT"
  | cross => "CROSS"

def JoinKind.ofKeyword? (s : String) : Option JoinKind :=
  [inner, left, right, cross].find? fun kind => kind.keyword == s

def exactly (keyword : String) (s : String) : Option Unit := if s = keyword then some () else none

def Text.Symbol.find? {α : Type} (find : String → Option α) (x : Symbol) : Option α := x.keyword?.bind find

def stopAt {α : Type} (find : String → Option α) (x : Symbol) : Bool := (x.find? find).isSome

/-- The symbols of joins, which no source has outside of parentheses. -/
def isJoinSymbol (x : Symbol) : Bool :=
  x == .mark ',' || x.keyword?.any fun s =>
    ["INNER", "LEFT", "RIGHT", "FULL", "OUTER", "CROSS", "JOIN", "ON"].contains s

/-- The symbols that no conjunct has outside of parentheses. -/
def isConditionSymbol (x : Symbol) : Bool :=
  isJoinSymbol x || x.keyword?.any fun s => ["AND", "OR", "BETWEEN", "CASE"].contains s

/-! ### The reader -/

/-- Splits symbols at the keywords that are looked for, where they stand outside of parentheses. -/
def splitTop {α : Type} (find : String → Option α) (depth : Nat) :
    List Symbol → List Symbol × List (α × List Symbol)
  | [] => ([], [])
  | x :: rest =>
    match if depth = 0 then x.find? find else none with
    | some a =>
      let (first, others) := splitTop find depth rest
      ([], (a, first) :: others)
    | none =>
      let depth :=
        if x = .mark '(' then depth + 1 else if x = .mark ')' then depth - 1 else depth
      let (first, others) := splitTop find depth rest
      (x :: first, others)

/-- The symbols between two parentheses that are first and last and belong together. -/
def group? : List Symbol → Option (List Symbol)
  | .mark '(' :: rest =>
    if rest.getLast? = some (.mark ')') ∧ IsClear nowhere rest.dropLast then some rest.dropLast
    else none
  | _ => none

def source? (l : List Symbol) : Option JoinTree :=
  if l ≠ [] ∧ IsClear isJoinSymbol l then some (.source l) else none

def operand? (inner : List Symbol → Option JoinTree) (l : List Symbol) : Option JoinTree :=
  match group? l with
  | some l => inner l
  | none => source? l

def conjuncts? (l : List Symbol) : Option (List (List Symbol)) :=
  let (first, others) := splitTop (exactly "AND") 0 l
  let conjuncts := first :: others.map Prod.snd
  if ∀ c ∈ conjuncts, c ≠ [] ∧ IsClear isConditionSymbol c then some conjuncts else none

def conditions? : JoinKind → List (Unit × List Symbol) → Option (List (List Symbol))
  | .cross, [] => some []
  | .inner, [(_, l)] | .left, [(_, l)] | .right, [(_, l)] => conjuncts? l
  | _, _ => none

/-- A join of what stands on its left with what follows its first keyword. -/
def joined? (inner : List Symbol → Option JoinTree) (left : JoinTree) :
    JoinKind × List Symbol → Option JoinTree
  | (kind, x :: rest) =>
    if x.keyword? = some "JOIN" then do
      let (right, conditions) := splitTop (exactly "ON") 0 rest
      return .join kind left (← operand? inner right) (← conditions? kind conditions)
    else none
  | (_, []) => none

/-- An operand and the joins that follow it, from the left. -/
def joins? (inner : List Symbol → Option JoinTree) (l : List Symbol) : Option JoinTree := do
  let (first, others) := splitTop JoinKind.ofKeyword? 0 l
  others.foldlM (joined? inner) (← operand? inner first)

/-- Reads symbols whose groups are nested less than `depth` times. -/
def readJoins? : Nat → List Symbol → Option JoinTree
  | 0 => fun _ => none
  | depth + 1 => joins? (readJoins? depth)

/-- Reads the text of a row source. -/
def readSource? (s : String) : Option JoinTree := do
  let l ← readSymbols? s
  readJoins? (l.length + 1) l

example : readSource? "[a] cross join ([b] inner join [c] on [b].[x] = [c].[y] and ([c].[z] > 0))" =
    some (.join .cross (.source [.quoted (.name "a")])
      (.join .inner (.source [.quoted (.name "b")]) (.source [.quoted (.name "c")])
        [[.quoted (.name "b"), .mark '.', .quoted (.name "x"), .mark '=', .quoted (.name "c"), .mark '.',
            .quoted (.name "y")],
          [.mark '(', .quoted (.name "c"), .mark '.', .quoted (.name "z"), .mark '>', .word "0",
            .mark ')']]) []) := by
  decide +kernel

/-! ### Splitting -/

section Split

variable {α : Type} {find : String → Option α} {l l' : List Symbol} {x : Symbol} {depth depth' : Nat} {a : α}

theorem splitTop_cons_of_some (hx : x.find? find = some a) (l : List Symbol) :
    splitTop find 0 (x :: l) = ([], (a, (splitTop find 0 l).1) :: (splitTop find 0 l).2) := by
  simp [splitTop, hx]

/-- A symbol outside of parentheses is split at, or it is one that is not. -/
theorem find?_or_depthBehind (h : depthBehind nowhere depth x = some depth') :
    (depth = 0 ∧ depth' = 0 ∧ ∃ a, x.find? find = some a) ∨
      depthBehind (stopAt find) depth x = some depth' := by
  by_cases hstop : depth = 0 ∧ stopAt find x = true
  · obtain ⟨rfl, hstop⟩ := hstop
    obtain ⟨a, ha⟩ := Option.isSome_iff_exists.1 hstop
    have hparen (c : Char) : x ≠ .mark c := by
      rintro rfl
      cases hstop
    rw [depthBehind_nowhere (hparen _) (hparen _)] at h
    exact .inl ⟨rfl, (Option.some.inj h).symm, a, ha⟩
  · refine .inr ?_
    unfold depthBehind at h ⊢
    simpa [hstop, nowhere] using h

theorem splitTop_cons (h : depthBehind (stopAt find) depth x = some depth') (l : List Symbol) :
    splitTop find depth (x :: l) =
      (x :: (splitTop find depth' l).1, (splitTop find depth' l).2) := by
  have hfind : (if depth = 0 then x.find? find else none) = none := by
    unfold depthBehind at h
    split_ifs with hdepth
    · by_contra hne
      have hstop : stopAt find x = true := Option.isSome_iff_ne_none.2 hne
      have hparen (c : Char) : x ≠ .mark c := by
        rintro rfl
        cases hstop
      simp [hparen, hdepth, hstop] at h
    · rfl
  have hbehind : (if x = .mark '(' then depth + 1 else if x = .mark ')' then depth - 1 else depth) =
      depth' := by
    unfold depthBehind at h
    split_ifs at h ⊢
    · simpa using h
    · cases depth <;> simp_all
    · simpa using h
  rw [splitTop, hfind]
  dsimp only
  rw [hbehind]

/-- Symbols that are not split at go to the first part. -/
theorem splitTop_append (h : depthAlong (stopAt find) depth l = some depth') (l' : List Symbol) :
    splitTop find depth (l ++ l') =
      (l ++ (splitTop find depth' l').1, (splitTop find depth' l').2) := by
  induction l generalizing depth with
  | nil =>
    cases h
    rfl
  | cons x rest ih =>
    rw [depthAlong_cons] at h
    obtain ⟨e, he, h⟩ := Option.bind_eq_some_iff.1 h
    rw [List.cons_append, splitTop_cons he, ih h, List.cons_append]

theorem splitTop_of_isClear (h : IsClear (stopAt find) l) : splitTop find 0 l = (l, []) := by
  have := splitTop_append h []
  simpa [splitTop] using this

/-- The keyword after closed parentheses begins a last part. -/
theorem splitTop_concat (h : depthAlong nowhere depth l = some 0) (hx : x.find? find = some a)
    (h' : IsClear (stopAt find) l') :
    splitTop find depth (l ++ x :: l') =
      ((splitTop find depth l).1, (splitTop find depth l).2 ++ [(a, l')]) := by
  induction l generalizing depth with
  | nil =>
    cases h
    rw [List.nil_append, splitTop_cons_of_some hx, splitTop_of_isClear h']
    rfl
  | cons y rest ih =>
    rw [depthAlong_cons] at h
    obtain ⟨e, he, h⟩ := Option.bind_eq_some_iff.1 h
    -- Either a part ends at `y` as well, or `y` belongs to the first part.
    rcases find?_or_depthBehind he with ⟨rfl, rfl, b, hy⟩ | he
    · rw [List.cons_append, splitTop_cons_of_some hy, splitTop_cons_of_some hy, ih h]
      rfl
    · rw [List.cons_append, splitTop_cons he, splitTop_cons he, ih h]

end Split

/-! ### Trees as symbols -/

/-- Symbols that are a source: they hold nothing of the grammar and end with a token. -/
structure IsSource (l : List Symbol) : Prop where
  clear : IsClear isJoinSymbol l
  getLast? : ∃ t, l.getLast? = some (.quoted t)

structure IsConjunct (l : List Symbol) : Prop where
  clear : IsClear isConditionSymbol l
  ne_nil : l ≠ []

def conjunction : List (List Symbol) → List Symbol
  | [] => []
  | [c] => c
  | c :: rest => c ++ .word "AND" :: conjunction rest

theorem conjunction_cons_cons (c d : List Symbol) (rest : List (List Symbol)) :
    conjunction (c :: d :: rest) = c ++ .word "AND" :: conjunction (d :: rest) := rfl

def condition (conjuncts : List (List Symbol)) : List Symbol :=
  if conjuncts = [] then [] else .word "ON" :: conjunction conjuncts

def grouped (l : List Symbol) : List Symbol := .mark '(' :: (l ++ [.mark ')'])

def groupedIf (b : Bool) (l : List Symbol) : List Symbol := if b then grouped l else l

namespace JoinTree

def isJoin : JoinTree → Bool
  | source _ => false
  | join .. => true

def symbols : JoinTree → List Symbol
  | source l => l
  | join kind left right conjuncts =>
    left.symbols ++ .word kind.keyword :: .word "JOIN" ::
      (groupedIf right.isJoin right.symbols ++ condition conjuncts)

/-- The sources and the conjuncts of a tree are such, and exactly the cross joins have no condition. -/
def WellFormed : JoinTree → Prop
  | source l => IsSource l
  | join kind left right conjuncts => left.WellFormed ∧ right.WellFormed ∧
      (∀ c ∈ conjuncts, IsConjunct c) ∧ (kind = .cross ↔ conjuncts = [])

end JoinTree

section Operands

variable {inner : List Symbol → Option JoinTree} {l l' : List Symbol} {left right : JoinTree}
  {kind : JoinKind} {conjuncts : List (List Symbol)} {x : Symbol}

/-! Keywords that are split at are symbols of the grammar. -/

theorem isJoinSymbol_of_kind (h : stopAt JoinKind.ofKeyword? x = true) : isJoinSymbol x = true := by
  obtain ⟨kind, h⟩ := Option.isSome_iff_exists.1 h
  obtain ⟨s, hs, hkind⟩ := Option.bind_eq_some_iff.1 h
  obtain rfl : kind.keyword = s := by simpa using List.find?_some hkind
  cases kind <;> simp [isJoinSymbol, hs, JoinKind.keyword]

theorem isJoinSymbol_of_on (h : stopAt (exactly "ON") x = true) : isJoinSymbol x = true := by
  obtain ⟨u, h⟩ := Option.isSome_iff_exists.1 h
  obtain ⟨s, hs, hon⟩ := Option.bind_eq_some_iff.1 h
  obtain rfl : s = "ON" := by simpa [exactly] using hon
  simp [isJoinSymbol, hs]

theorem isConditionSymbol_of_and (h : stopAt (exactly "AND") x = true) : isConditionSymbol x = true := by
  obtain ⟨u, h⟩ := Option.isSome_iff_exists.1 h
  obtain ⟨s, hs, hand⟩ := Option.bind_eq_some_iff.1 h
  obtain rfl : s = "AND" := by simpa [exactly] using hand
  simp [isConditionSymbol, hs]

theorem isConditionSymbol_of_isJoinSymbol (h : isJoinSymbol x = true) : isConditionSymbol x = true := by
  simp [isConditionSymbol, h]

theorem find?_keyword (kind : JoinKind) :
    (Symbol.word kind.keyword).find? JoinKind.ofKeyword? = some kind := by
  cases kind <;> decide +kernel

/-! ### Operands -/

theorem group?_grouped (h : IsClear nowhere l) : group? (grouped l) = some l := by
  simp [group?, grouped, h]

theorem group?_of_isSource (h : IsSource l) : group? l = none := by
  obtain ⟨t, ht⟩ := h.getLast?
  unfold group?
  split
  · next rest =>
    rw [if_neg]
    rintro ⟨hlast, -⟩
    rw [List.getLast?_cons, hlast] at ht
    cases ht
  · rfl

theorem operand?_grouped (h : IsClear nowhere l) : operand? inner (grouped l) = inner l := by
  rw [operand?, group?_grouped h]

theorem operand?_of_isSource (h : IsSource l) : operand? inner l = some (.source l) := by
  have hne : l ≠ [] := by
    rintro rfl
    obtain ⟨t, ht⟩ := h.getLast?
    cases ht
  rw [operand?, group?_of_isSource h]
  exact if_pos ⟨hne, h.clear⟩

theorem joins?_of_isSource (h : IsSource l) : joins? inner l = some (.source l) := by
  rw [joins?, splitTop_of_isClear (h.clear.mono fun _ => isJoinSymbol_of_kind)]
  simp [operand?_of_isSource h]

/-- A join behind what is read as an operand and joins. -/
theorem joins?_concat (h : IsClear nowhere l) (h' : IsClear (stopAt JoinKind.ofKeyword?) l') :
    joins? inner (l ++ .word kind.keyword :: l') =
      (joins? inner l).bind fun left => joined? inner left (kind, l') := by
  rw [joins?, joins?, splitTop_concat h (find?_keyword kind) h']
  simp [List.foldlM_append, Option.bind_assoc]

/-! ### Conditions -/

theorem isClear_conjunction (h : ∀ c ∈ conjuncts, IsConjunct c) :
    IsClear isJoinSymbol (conjunction conjuncts) := by
  induction conjuncts with
  | nil => exact .nil
  | cons c rest ih =>
    have hc : IsClear isJoinSymbol c :=
      (h c (by simp)).clear.mono fun _ => isConditionSymbol_of_isJoinSymbol
    cases rest with
    | nil => exact hc
    | cons d rest =>
      have hrest := ih fun c hc => h c (List.mem_cons_of_mem _ hc)
      exact hc.append ((show IsClear isJoinSymbol [.word "AND"] by decide +kernel).append hrest)

theorem splitTop_conjunction {c : List Symbol} (hc : IsConjunct c) (h : ∀ c ∈ conjuncts, IsConjunct c) :
    splitTop (exactly "AND") 0 (conjunction (c :: conjuncts)) =
      (c, conjuncts.map fun c => ((), c)) := by
  induction conjuncts generalizing c with
  | nil => exact splitTop_of_isClear (hc.clear.mono fun _ => isConditionSymbol_of_and)
  | cons d rest ih =>
    have hand : (Symbol.word "AND").find? (exactly "AND") = some () := by decide +kernel
    rw [conjunction_cons_cons, splitTop_append (hc.clear.mono fun _ => isConditionSymbol_of_and),
      splitTop_cons_of_some hand, ih (h d (by simp)) fun c hc => h c (List.mem_cons_of_mem _ hc)]
    simp

theorem conjuncts?_conjunction (hne : conjuncts ≠ []) (h : ∀ c ∈ conjuncts, IsConjunct c) :
    conjuncts? (conjunction conjuncts) = some conjuncts := by
  cases conjuncts with
  | nil => exact absurd rfl hne
  | cons c rest =>
    have hsplit := splitTop_conjunction (h c (by simp)) fun c hc => h c (List.mem_cons_of_mem _ hc)
    have hothers : (rest.map fun c => ((), c)).map Prod.snd = rest := by simp [Function.comp_def]
    have hall : ∀ d ∈ c :: rest, d ≠ [] ∧ IsClear isConditionSymbol d :=
      fun d hd => ⟨(h d hd).ne_nil, (h d hd).clear⟩
    rw [conjuncts?, hsplit]
    dsimp only
    rw [hothers, if_pos hall]

theorem joined?_of_operand (hl : IsClear isJoinSymbol l) (hright : operand? inner l = some right)
    (h : ∀ c ∈ conjuncts, IsConjunct c) (hkind : kind = .cross ↔ conjuncts = []) :
    joined? inner left (kind, .word "JOIN" :: (l ++ condition conjuncts)) =
      some (.join kind left right conjuncts) := by
  have hl := hl.mono fun _ => isJoinSymbol_of_on
  have hjoin : (Symbol.word "JOIN").keyword? = some "JOIN" := by decide +kernel
  by_cases hne : conjuncts = []
  · obtain rfl := hkind.2 hne
    subst hne
    rw [joined?, if_pos hjoin, condition, if_pos rfl, List.append_nil, splitTop_of_isClear hl]
    simp [hright, conditions?]
  · have hon : (Symbol.word "ON").find? (exactly "ON") = some () := by decide +kernel
    have hconjunction := splitTop_of_isClear
      ((isClear_conjunction h).mono fun _ => isJoinSymbol_of_on)
    have hconditions : conditions? kind [((), conjunction conjuncts)] = some conjuncts := by
      rw [← conjuncts?_conjunction hne h]
      cases kind with
      | cross => exact absurd (hkind.1 rfl) hne
      | _ => rfl
    rw [joined?, if_pos hjoin, condition, if_neg hne, splitTop_append hl, splitTop_cons_of_some hon,
      hconjunction]
    simp [hright, hconditions]

end Operands

/-! ### Reading back -/

namespace JoinTree

variable {tree : JoinTree} {conjuncts : List (List Symbol)} {stop : Symbol → Bool}

theorem isClear_condition (h : ∀ c ∈ conjuncts, IsConjunct c) (hon : stop (.word "ON") = false)
    (hstop : ∀ x, stop x = true → isJoinSymbol x = true) : IsClear stop (condition conjuncts) := by
  unfold condition
  split
  · exact .nil
  · have hfirst : IsClear stop [.word "ON"] := by simp [IsClear, depthAlong, depthBehind, hon]
    exact hfirst.append ((isClear_conjunction h).mono hstop)

theorem isClear_groupedIf (h : tree.WellFormed) (hclear : IsClear nowhere tree.symbols) :
    IsClear isJoinSymbol (groupedIf tree.isJoin tree.symbols) := by
  cases tree with
  | source l => exact IsSource.clear h
  | join kind left right conjuncts => exact hclear.group

theorem isClear_symbols (h : tree.WellFormed) : IsClear nowhere tree.symbols := by
  induction tree with
  | source l => exact (IsSource.clear h).mono nofun
  | join kind left right conjuncts ihl ihr =>
    obtain ⟨hleft, hright, hconjuncts, -⟩ := h
    have hwords : IsClear nowhere [.word kind.keyword, .word "JOIN"] := by cases kind <;> decide
    have hoperand : IsClear nowhere (groupedIf right.isJoin right.symbols) :=
      (isClear_groupedIf hright (ihr hright)).mono nofun
    exact (ihl hleft).append (hwords.append
      (hoperand.append (isClear_condition hconjuncts rfl nofun)))

theorem operand?_groupedIf {inner : List Symbol → Option JoinTree} (h : tree.WellFormed)
    (hinner : inner tree.symbols = some tree) :
    operand? inner (groupedIf tree.isJoin tree.symbols) = some tree := by
  cases tree with
  | source l => exact operand?_of_isSource h
  | join kind left right conjuncts => exact (operand?_grouped (isClear_symbols h)).trans hinner

theorem length_groupedIf (b : Bool) (l : List Symbol) : l.length ≤ (groupedIf b l).length := by
  cases b <;> simp [groupedIf, grouped]
  omega

theorem readJoins?_symbols (h : tree.WellFormed) {depth : Nat}
    (hdepth : tree.symbols.length < depth) : readJoins? depth tree.symbols = some tree := by
  induction tree generalizing depth with
  | source l =>
    obtain ⟨depth, rfl⟩ := Nat.exists_eq_succ_of_ne_zero (Nat.ne_zero_of_lt hdepth)
    exact joins?_of_isSource h
  | join kind left right conjuncts ihl ihr =>
    obtain ⟨depth, rfl⟩ := Nat.exists_eq_succ_of_ne_zero (Nat.ne_zero_of_lt hdepth)
    obtain ⟨hleft, hright, hconjuncts, hkind⟩ := h
    -- A group is read one level deeper; its parentheses make it shorter than what it stands in.
    have hlengths : left.symbols.length + (right.symbols.length + 2) ≤ depth := by
      have := length_groupedIf right.isJoin right.symbols
      simp only [symbols, List.length_append, List.length_cons] at hdepth
      omega
    have hinner : readJoins? depth right.symbols = some right := ihr hright (by omega)
    have hclear := isClear_groupedIf hright (isClear_symbols hright)
    -- No keyword of a join stands behind this one, so it is the last that the symbols are split at.
    have hrest : IsClear (stopAt JoinKind.ofKeyword?)
        (.word "JOIN" :: (groupedIf right.isJoin right.symbols ++ condition conjuncts)) := by
      have hword : IsClear (stopAt JoinKind.ofKeyword?) [.word "JOIN"] := by decide +kernel
      refine hword.append ((hclear.mono fun _ => isJoinSymbol_of_kind).append ?_)
      exact isClear_condition hconjuncts (by decide +kernel) fun _ => isJoinSymbol_of_kind
    rw [readJoins?, symbols, joins?_concat (isClear_symbols hleft) hrest, ← readJoins?,
      ihl hleft (by omega), Option.bind_some]
    exact joined?_of_operand hclear (operand?_groupedIf hright hinner) hconjuncts hkind

end JoinTree

end Tsql
