import Tsql.Proofs.Text.Scan

/-!
# Surveys of lexemes

A survey goes through the lexemes of a text and keeps account of parentheses, tokens, statement ends
and pairs of minus signs. It fails where a parenthesis closes too early, a statement ends inside of
parentheses, a lone delimiter stands outside of tokens, a string directly follows a string or a slash
and a star begin a comment. What a survey has counted is what `Balanced`, `Terminated` and `Introduces`
say of the lexemes.
-/

namespace Tsql.Text

/-- What the last lexeme was, as far as it matters for the next one. -/
inductive Last where
  | other | minus | slash | string | terminator
  deriving DecidableEq, Repr

/-- What was counted so far. -/
structure Survey where
  depth : Nat := 0
  last : Last := .other
  tokens : List Token := []
  /-- Two minus signs have begun a comment. -/
  introduces : Bool := false
  statements : Nat := 0
  deriving DecidableEq, Repr

namespace Survey

def mark (s : Survey) (c : Char) : Option Survey :=
  if c = '(' then some { s with depth := s.depth + 1, last := .other }
  else if c = ')' then
    match s.depth with
    | 0 => none
    | n + 1 => some { s with depth := n, last := .other }
  else if c = ';' then
    if s.depth = 0 then some { s with last := .terminator, statements := s.statements + 1 }
    else none
  else if c = '-' then
    some { s with last := .minus, introduces := s.introduces || s.last == .minus }
  else if c = '*' then
    if s.last = .slash then none else some { s with last := .other }
  else if c = '/' then some { s with last := .slash }
  else if isOrdinary c then some { s with last := .other }
  else none

def step (s : Survey) : Lexeme → Option Survey
  | .mark c => s.mark c
  | .token ⟨.bracket, text⟩ => some { s with last := .other, tokens := s.tokens ++ [.name text] }
  | .token ⟨.apostrophe, text⟩ =>
    if s.last = .string then none
    else some { s with last := .string, tokens := s.tokens ++ [.string text] }

/-- All lexemes, in order. -/
def run (s : Survey) : List Lexeme → Option Survey
  | [] => some s
  | x :: rest => (s.step x).bind fun t => t.run rest

variable {s t : Survey} {l l' : List Lexeme} {c : Char}

theorem run_append (s : Survey) (l l' : List Lexeme) :
    s.run (l ++ l') = (s.run l).bind fun t => t.run l' := by
  induction l generalizing s with
  | nil => rfl
  | cons x rest ih =>
    rw [List.cons_append, run, run]
    cases s.step x with
    | none => rfl
    | some u => exact ih u

theorem run_cons {x : Lexeme} (h : s.run (x :: l) = some t) :
    ∃ u, s.step x = some u ∧ u.run l = some t := Option.bind_eq_some_iff.1 h

theorem of_mark (h : s.mark c = some t) :
    (c = '(' ∧ t = { s with depth := s.depth + 1, last := .other }) ∨
    (c = ')' ∧ ∃ n, s.depth = n + 1 ∧ t = { s with depth := n, last := .other }) ∨
    (c = ';' ∧ s.depth = 0 ∧
      t = { s with last := .terminator, statements := s.statements + 1 }) ∨
    (c = '-' ∧ t = { s with last := .minus, introduces := s.introduces || s.last == .minus }) ∨
    (c = '*' ∧ s.last ≠ .slash ∧ t = { s with last := .other }) ∨
    (c = '/' ∧ t = { s with last := .slash }) ∨
    (c ∉ ['(', ')', ';', '-', '*', '/'] ∧ isOrdinary c = true ∧ t = { s with last := .other }) := by
  unfold mark at h
  split at h
  · next hc => exact .inl ⟨hc, (Option.some.inj h).symm⟩
  split at h
  · next hc =>
    refine .inr (.inl ⟨hc, ?_⟩)
    split at h
    · cases h
    · next n hn => exact ⟨n, hn, (Option.some.inj h).symm⟩
  split at h
  · next hc =>
    split at h
    · next hd => exact .inr (.inr (.inl ⟨hc, hd, (Option.some.inj h).symm⟩))
    · cases h
  split at h
  · next hc => exact .inr (.inr (.inr (.inl ⟨hc, (Option.some.inj h).symm⟩)))
  split at h
  · next hc =>
    split at h
    · cases h
    · next hs => exact .inr (.inr (.inr (.inr (.inl ⟨hc, hs, (Option.some.inj h).symm⟩))))
  split at h
  · next hc => exact .inr (.inr (.inr (.inr (.inr (.inl ⟨hc, (Option.some.inj h).symm⟩)))))
  split at h
  · next h1 h2 h3 h4 h5 h6 ho =>
    refine .inr (.inr (.inr (.inr (.inr (.inr ⟨?_, ho, (Option.some.inj h).symm⟩)))))
    simp [h1, h2, h3, h4, h5, h6]
  · cases h

theorem isOrdinary_of_mark (h : s.mark c = some t) : isOrdinary c = true := by
  rcases of_mark h with ⟨rfl, -⟩ | ⟨rfl, -⟩ | ⟨rfl, -⟩ | ⟨rfl, -⟩ | ⟨rfl, -⟩ | ⟨rfl, -⟩ | ⟨-, ho, -⟩
  · rfl
  · rfl
  · rfl
  · rfl
  · rfl
  · rfl
  · exact ho

theorem of_token {x : Token} (h : s.step (.token x) = some t) :
    t = { s with last := t.last, tokens := s.tokens ++ [x] } ∧
      (t.last = .other ∨ t.last = .string) := by
  obtain ⟨q, text⟩ := x
  cases q with
  | bracket =>
    cases h
    exact ⟨rfl, .inl rfl⟩
  | apostrophe =>
    simp only [step] at h
    split at h
    · cases h
    · cases h
      exact ⟨rfl, .inr rfl⟩

/-! ### Tokens -/

theorem tokens_of_run (h : s.run l = some t) : t.tokens = s.tokens ++ l.filterMap Lexeme.token? := by
  induction l generalizing s with
  | nil =>
    cases h
    simp
  | cons x rest ih =>
    obtain ⟨u, hu, h⟩ := run_cons h
    rw [ih h]
    cases x with
    | mark c =>
      have : u.tokens = s.tokens := by
        rcases of_mark hu with ⟨-, rfl⟩ | ⟨-, n, -, rfl⟩ | ⟨-, -, rfl⟩ | ⟨-, rfl⟩ | ⟨-, -, rfl⟩ |
          ⟨-, rfl⟩ | ⟨-, -, rfl⟩ <;> rfl
      rw [this]
      rfl
    | token x =>
      rw [(of_token hu).1]
      simp [Lexeme.token?]

end Survey

/-! ### Parentheses -/

/-- The number of parentheses that are open behind some lexemes, unless one closes too early. -/
def parenDepth (depth : Nat) : List Lexeme → Option Nat
  | [] => some depth
  | .mark c :: rest =>
    if c = '(' then parenDepth (depth + 1) rest
    else if c = ')' then
      match depth with
      | 0 => none
      | n + 1 => parenDepth n rest
    else parenDepth depth rest
  | .token _ :: rest => parenDepth depth rest

/-- Each parenthesis is closed after it was opened, and none closes that was not opened. -/
def Balanced (l : List Lexeme) : Prop := parenDepth 0 l = some 0

instance (l : List Lexeme) : Decidable (Balanced l) := inferInstanceAs (Decidable (_ = _))

/-! ### Statements -/

/-- A statement without the semicolon that ends it: balanced, and without a semicolon. -/
def IsStatement (l : List Lexeme) : Prop := Balanced l ∧ Lexeme.mark ';' ∉ l

/-- The lexemes are some statements, each with its semicolon, which stands nowhere else. -/
def Terminated (l : List Lexeme) (statements : Nat) : Prop :=
  ∃ parts : List (List Lexeme), parts.length = statements ∧ (∀ p ∈ parts, IsStatement p) ∧
    l = parts.flatMap fun p => p ++ [.mark ';']

/-! ### Comments -/

/-- Somewhere two characters stand next to each other outside of tokens. -/
def Introduces (a b : Char) (l : List Lexeme) : Prop := [.mark a, .mark b] <:+: l

instance (a b : Char) (l : List Lexeme) : Decidable (Introduces a b l) :=
  inferInstanceAs (Decidable (_ <:+: _))

theorem introduces_cons {a b : Char} (x : Lexeme) (l : List Lexeme) :
    Introduces a b (x :: l) ↔
      (x = .mark a ∧ l.head? = some (.mark b)) ∨ Introduces a b l := by
  unfold Introduces
  rw [List.infix_cons_iff]
  cases l with
  | nil => simp
  | cons y rest =>
    simp only [List.cons_prefix_cons, List.nil_prefix, and_true, List.head?_cons, Option.some.injEq,
      eq_comm (a := Lexeme.mark _)]

namespace Survey

variable {s t u : Survey} {l : List Lexeme} {x : Lexeme}

/-- What one lexeme does to parentheses, unless it ends a statement. -/
theorem parenDepth_of_step (h : s.step x = some u) (hx : x ≠ .mark ';') (rest : List Lexeme) :
    parenDepth s.depth (x :: rest) = parenDepth u.depth rest ∧ u.statements = s.statements ∧
      u.last ≠ .terminator := by
  cases x with
  | mark c =>
    rcases of_mark h with ⟨rfl, rfl⟩ | ⟨rfl, n, hn, rfl⟩ | ⟨rfl, -, -⟩ | ⟨rfl, rfl⟩ |
      ⟨rfl, -, rfl⟩ | ⟨rfl, rfl⟩ | ⟨hc, -, rfl⟩
    · simp [parenDepth]
    · simp [parenDepth, hn]
    · exact absurd rfl hx
    · simp [parenDepth]
    · simp [parenDepth]
    · simp [parenDepth]
    · simp only [List.mem_cons, not_or] at hc
      simp [parenDepth, hc.1, hc.2.1]
  | token x =>
    obtain ⟨hu, hlast⟩ := of_token h
    rw [hu]
    refine ⟨rfl, rfl, ?_⟩
    rcases hlast with hl | hl <;> rw [hl] <;> decide

theorem of_semicolon (h : s.step (.mark ';') = some u) :
    s.depth = 0 ∧ u.depth = 0 ∧ u.statements = s.statements + 1 := by
  rcases of_mark h with ⟨hc, -⟩ | ⟨hc, -⟩ | ⟨-, hd, rfl⟩ | ⟨hc, -⟩ | ⟨hc, -⟩ | ⟨hc, -⟩ | ⟨hc, -⟩
  · cases hc
  · cases hc
  · exact ⟨hd, hd, rfl⟩
  · cases hc
  · cases hc
  · cases hc
  · exact absurd (by simp) hc

/-- A survey meets no semicolon, or the first one ends a statement. -/
theorem first_statement (h : s.run l = some t) :
    (.mark ';' ∉ l ∧ parenDepth s.depth l = some t.depth ∧ t.statements = s.statements ∧
      (l = [] ∨ t.last ≠ .terminator)) ∨
    ∃ (p rest : List Lexeme) (u : Survey), l = p ++ .mark ';' :: rest ∧ .mark ';' ∉ p ∧
      parenDepth s.depth p = some 0 ∧ u.depth = 0 ∧ u.statements = s.statements + 1 ∧ u.run rest = some t := by
  induction l generalizing s with
  | nil =>
    cases h
    exact .inl ⟨by simp, rfl, rfl, .inl rfl⟩
  | cons x rest ih =>
    obtain ⟨u, hu, hrest⟩ := run_cons h
    by_cases hx : x = .mark ';'
    · subst hx
      obtain ⟨hd, hdu, hn⟩ := of_semicolon hu
      exact .inr ⟨[], rest, u, rfl, by simp, by rw [hd]; rfl, hdu, hn, hrest⟩
    obtain ⟨hdepth, hn, hlast⟩ := parenDepth_of_step hu hx rest
    rcases ih hrest with ⟨hno, hp, hs, hl⟩ | ⟨p, rest, v, rfl, hno, hp, hv, hs, hrun⟩
    · refine .inl ⟨by simp [Ne.symm hx, hno], hdepth.trans hp, hs.trans hn, .inr ?_⟩
      rcases hl with rfl | hl
      · cases hrest
        exact hlast
      · exact hl
    · refine .inr ⟨x :: p, rest, v, rfl, by simp [Ne.symm hx, hno], ?_, hv, hs.trans (by rw [hn]),
        hrun⟩
      rw [(parenDepth_of_step hu hx p).1, hp]

/-- Where a survey ends with a semicolon, the lexemes are as many statements as it has counted. -/
theorem terminated_of_run (h : s.run l = some t) (hs : s.depth = 0) (ht : t.last = .terminator) :
    ∃ n, t.statements = s.statements + n ∧ Terminated l n := by
  induction hl : l.length using Nat.strongRecOn generalizing l s with
  | ind size ih =>
    rcases first_statement h with ⟨-, -, hn, rfl | hlast⟩ | ⟨p, rest, u, rfl, hno, hp, hu, hn, hrun⟩
    · exact ⟨0, hn, [], rfl, by simp, rfl⟩
    · exact absurd ht hlast
    · obtain ⟨n, hrest, parts, hlen, hparts, rfl⟩ := ih rest.length
        (by rw [← hl]; simp; omega) hrun hu rfl
      refine ⟨n + 1, by omega, p :: parts, by simp [hlen], ?_, by simp⟩
      intro q hq
      rcases List.mem_cons.1 hq with rfl | hq
      · rw [hs] at hp
        exact ⟨hp, hno⟩
      · exact hparts q hq

theorem introduces_of_step (h : s.step x = some u) :
    (u.introduces = true ↔ s.introduces = true ∨ (s.last = .minus ∧ x = .mark '-')) ∧
      (u.last = .minus ↔ x = .mark '-') := by
  cases x with
  | mark c =>
    rcases of_mark h with ⟨rfl, rfl⟩ | ⟨rfl, n, -, rfl⟩ | ⟨rfl, -, rfl⟩ | ⟨rfl, rfl⟩ |
      ⟨rfl, -, rfl⟩ | ⟨rfl, rfl⟩ | ⟨hc, -, rfl⟩
    · simp
    · simp
    · simp
    · simp
    · simp
    · simp
    · simp only [List.mem_cons, not_or] at hc
      simp [hc.2.2.2.1]
  | token x =>
    obtain ⟨hu, hlast⟩ := of_token h
    rw [hu]
    rcases hlast with hl | hl <;> simp [hl]

/-- A survey has met two minus signs exactly where they stand, the last character before it counted
in. -/
theorem introduces_of_run (h : s.run l = some t) :
    t.introduces = true ↔ s.introduces = true ∨ (s.last = .minus ∧ l.head? = some (.mark '-')) ∨
      Introduces '-' '-' l := by
  induction l generalizing s with
  | nil =>
    cases h
    simp [Introduces]
  | cons x rest ih =>
    obtain ⟨u, hu, h⟩ := run_cons h
    obtain ⟨hi, hm⟩ := introduces_of_step hu
    rw [ih h, introduces_cons, hi, hm, List.head?_cons, Option.some.injEq]
    simp only [or_assoc]

theorem slash_of_step (h : s.step x = some u) :
    (s.last = .slash → x ≠ .mark '*') ∧ (x = .mark '/' → u.last = .slash) := by
  refine ⟨?_, ?_⟩
  · rintro hs rfl
    rcases of_mark h with ⟨hc, -⟩ | ⟨hc, -⟩ | ⟨hc, -⟩ | ⟨hc, -⟩ | ⟨-, hne, -⟩ | ⟨hc, -⟩ | ⟨hc, -⟩
    · cases hc
    · cases hc
    · cases hc
    · cases hc
    · exact hne hs
    · cases hc
    · exact hc (by simp)
  · rintro rfl
    cases h
    rfl

/-- A survey meets no slash with a star behind it. -/
theorem not_introduces_of_run (h : s.run l = some t) :
    (s.last = .slash → l.head? ≠ some (.mark '*')) ∧ ¬ Introduces '/' '*' l := by
  induction l generalizing s with
  | nil => simp [Introduces]
  | cons x rest ih =>
    obtain ⟨u, hu, h⟩ := run_cons h
    obtain ⟨hstar, hslash⟩ := slash_of_step hu
    obtain ⟨hhead, hrest⟩ := ih h
    refine ⟨fun hs hx => hstar hs (Option.some.inj hx), ?_⟩
    rw [introduces_cons]
    rintro (⟨hx, hnext⟩ | hin)
    · exact hhead (hslash hx) hnext
    · exact hrest hin

end Survey

end Tsql.Text
