import Mathlib.Tactic.SplitIfs
import Tsql.Proofs.Text.Survey
import Tsql.Proofs.Text.Variables
import Tsql.Text.Blank

/-!
# Symbols of a text

Outside of tokens the characters of a name stand together as a word, blanks only separate, and every other
character is a symbol by itself. `readSymbols?` reads the symbols of a text without comments. Parentheses
are counted on symbols as on lexemes; `depthAlong` counts them and stops where a symbol outside of all of
them is not wanted.
-/

namespace Tsql.Text

/-- A word, a character by itself, or a token. -/
inductive Symbol where
  | word (text : String)
  | mark (c : Char)
  | quoted (t : Token)
  deriving DecidableEq, Repr

/-- The symbols found so far, and the word that may go on. -/
structure Speller where
  found : List Symbol := []
  pending : List Char := []
  deriving DecidableEq, Repr

namespace Speller

def flush (r : Speller) : List Symbol :=
  if r.pending = [] then r.found else r.found ++ [.word (String.ofList r.pending)]

def step (r : Speller) : Lexeme → Speller
  | .mark c =>
    if isBlank c then { found := r.flush }
    else if isNameChar c then { r with pending := r.pending ++ [c] }
    else { found := r.flush ++ [.mark c] }
  | .token t => { found := r.flush ++ [.quoted t] }

def run (r : Speller) (l : List Lexeme) : Speller := l.foldl step r

variable {r : Speller} {l l' : List Lexeme}

theorem run_append (r : Speller) (l l' : List Lexeme) : r.run (l ++ l') = (r.run l).run l' :=
  List.foldl_append

theorem flush_found (r : Speller) (found : List Symbol) :
    ({ r with found := found ++ r.found } : Speller).flush = found ++ r.flush := by
  unfold flush
  by_cases hp : r.pending = [] <;> simp [hp]

theorem step_found (r : Speller) (found : List Symbol) (x : Lexeme) :
    ({ r with found := found ++ r.found } : Speller).step x =
      { r.step x with found := found ++ (r.step x).found } := by
  cases x with
  | token t => simp [step, flush_found]
  | mark c =>
    unfold step
    by_cases hb : isBlank c = true
    · simp [hb, flush_found]
    by_cases hc : isNameChar c = true <;> simp [hb, hc, flush_found]

/-- What was found before has no part in what is found later. -/
theorem run_found (r : Speller) (found : List Symbol) (l : List Lexeme) :
    ({ r with found := found ++ r.found } : Speller).run l =
      { r.run l with found := found ++ (r.run l).found } := by
  induction l generalizing r with
  | nil => rfl
  | cons x rest ih =>
    show Speller.run (Speller.step _ x) rest = _
    rw [step_found, ih]
    rfl

/-- Behind the end of a word. -/
theorem run_of_pending (h : r.pending = []) (l : List Lexeme) :
    r.run l = { Speller.run {} l with found := r.found ++ (Speller.run {} l).found } := by
  rw [← run_found {} r.found l, List.append_nil, ← h]

/-- Blanks between words change nothing. -/
theorem run_blanks (h : r.pending = []) (n : Nat) :
    r.run (List.replicate n (.mark ' ')) = r := by
  induction n with
  | zero => rfl
  | succ n ih =>
    have hstep : r.step (.mark ' ') = r := by
      obtain ⟨found, pending⟩ := r
      obtain rfl : pending = [] := h
      rfl
    rw [List.replicate_succ]
    show Speller.run (r.step _) _ = r
    rw [hstep, ih]

end Speller

def symbols (l : List Lexeme) : List Symbol := (Speller.run {} l).flush

/-- The symbols of a text, unless it ends in a token or has a comment. -/
def readSymbols? (s : String) : Option (List Symbol) :=
  match scan s.toList with
  | some l => if Introduces '-' '-' l ∨ Introduces '/' '*' l then none else some (symbols l)
  | none => none

/-- No word goes on behind the lexemes. -/
def EndsClear (l : List Lexeme) : Prop := (Speller.run {} l).pending = []

instance (l : List Lexeme) : Decidable (EndsClear l) := inferInstanceAs (Decidable (_ = _))

def Lexeme.isBreak : Lexeme → Bool
  | mark c => isBlank c || !isNameChar c
  | token _ => true

section

variable {l l' : List Lexeme} {x : Lexeme}

theorem symbols_append (h : EndsClear l) (l' : List Lexeme) :
    symbols (l ++ l') = symbols l ++ symbols l' := by
  unfold symbols
  rw [Speller.run_append, Speller.run_of_pending h, Speller.flush_found]
  simp only [Speller.flush, if_pos (show (Speller.run {} l).pending = [] from h)]

theorem Speller.step_isBreak (hx : x.isBreak = true) (r : Speller) :
    r.step x = { Speller.step {} x with found := r.flush ++ (Speller.step {} x).found } := by
  cases x with
  | token t => rfl
  | mark c =>
    unfold step
    by_cases hb : isBlank c = true
    · simp [hb, flush]
    · have hc : isNameChar c = false := by simpa [Lexeme.isBreak, hb] using hx
      simp [hb, hc, flush]

/-- What ends a word may stand behind anything. -/
theorem symbols_break (hx : x.isBreak = true) (l l' : List Lexeme) :
    symbols (l ++ x :: l') = symbols l ++ symbols (x :: l') := by
  unfold symbols
  rw [Speller.run_append]
  show (Speller.run (Speller.step _ x) l').flush = _ ++ (Speller.run (Speller.step {} x) l').flush
  rw [Speller.step_isBreak hx (Speller.run {} l), Speller.run_found, Speller.flush_found]

/-- What stands on the two sides of a blank is read by itself. -/
theorem symbols_blank {c : Char} (hc : isBlank c = true) (l l' : List Lexeme) :
    symbols (l ++ .mark c :: l') = symbols l ++ symbols l' := by
  have hbreak : (Lexeme.mark c).isBreak = true := by simp [Lexeme.isBreak, hc]
  have hrun : Speller.run {} [.mark c] = {} := by simp [Speller.run, Speller.step, hc, Speller.flush]
  have hclear : EndsClear [.mark c] := congrArg Speller.pending hrun
  have hempty : symbols [.mark c] = [] := congrArg Speller.flush hrun
  rw [symbols_break hbreak, ← List.singleton_append, symbols_append hclear, hempty, List.nil_append]

/-- No word goes on behind what ends a word. -/
theorem endsClear_concat (hx : x.isBreak = true) (l : List Lexeme) : EndsClear (l ++ [x]) := by
  unfold EndsClear
  rw [Speller.run_append]
  show (Speller.step _ x).pending = []
  cases x with
  | token t => rfl
  | mark c =>
    unfold Speller.step
    by_cases hb : isBlank c = true
    · simp [hb]
    · have hc : isNameChar c = false := by simpa [Lexeme.isBreak, hb] using hx
      simp [hb, hc]

end

/-! ### Parentheses -/

/-- The number of open parentheses behind a symbol, unless it closes one that is not open or is a symbol
to stop at outside of all of them. -/
def depthBehind (stop : Symbol → Bool) (depth : Nat) (x : Symbol) : Option Nat :=
  if x = .mark '(' then some (depth + 1)
  else if x = .mark ')' then
    match depth with
    | 0 => none
    | n + 1 => some n
  else if depth = 0 ∧ stop x = true then none
  else some depth

/-- The number of open parentheses behind some symbols. -/
def depthAlong (stop : Symbol → Bool) (depth : Nat) (l : List Symbol) : Option Nat :=
  l.foldlM (depthBehind stop) depth

/-- All parentheses are closed, and outside of them there is no symbol to stop at. -/
def IsClear (stop : Symbol → Bool) (l : List Symbol) : Prop := depthAlong stop 0 l = some 0

instance (stop : Symbol → Bool) (l : List Symbol) : Decidable (IsClear stop l) :=
  inferInstanceAs (Decidable (_ = _))

def nowhere : Symbol → Bool := fun _ => false

section

variable {stop stop' : Symbol → Bool} {l l' : List Symbol} {depth depth' : Nat} {x : Symbol}

theorem depthAlong_append (stop : Symbol → Bool) (depth : Nat) (l l' : List Symbol) :
    depthAlong stop depth (l ++ l') =
      (depthAlong stop depth l).bind fun depth => depthAlong stop depth l' :=
  List.foldlM_append

theorem depthAlong_cons (stop : Symbol → Bool) (depth : Nat) (x : Symbol) (l : List Symbol) :
    depthAlong stop depth (x :: l) =
      (depthBehind stop depth x).bind fun depth => depthAlong stop depth l :=
  List.foldlM_cons

/-- What a symbol does to a number of open parentheses it also does to a greater one. -/
theorem depthBehind_succ (h : depthBehind stop depth x = some depth') (stop' : Symbol → Bool) :
    depthBehind stop' (depth + 1) x = some (depth' + 1) := by
  unfold depthBehind at h ⊢
  by_cases hopen : x = .mark '('
  · simpa [hopen] using h
  by_cases hclose : x = .mark ')'
  · cases depth with
    | zero => simp [hclose] at h
    | succ n => simpa [hclose] using h
  · by_cases hs : depth = 0 ∧ stop x = true <;> simp_all

theorem depthAlong_succ (h : depthAlong stop depth l = some depth') (stop' : Symbol → Bool) :
    depthAlong stop' (depth + 1) l = some (depth' + 1) := by
  induction l generalizing depth with
  | nil =>
    cases h
    rfl
  | cons x rest ih =>
    rw [depthAlong_cons] at h ⊢
    obtain ⟨e, he, h⟩ := Option.bind_eq_some_iff.1 h
    rw [depthBehind_succ he stop']
    exact ih h

theorem depthBehind_mono (h : depthBehind stop depth x = some depth')
    (hstop : stop' x = true → stop x = true) : depthBehind stop' depth x = some depth' := by
  unfold depthBehind at h ⊢
  split_ifs at h ⊢ <;> simp_all

theorem depthAlong_mono (h : depthAlong stop depth l = some depth')
    (hstop : ∀ x, stop' x = true → stop x = true) : depthAlong stop' depth l = some depth' := by
  induction l generalizing depth with
  | nil => exact h
  | cons x rest ih =>
    rw [depthAlong_cons] at h ⊢
    obtain ⟨e, he, h⟩ := Option.bind_eq_some_iff.1 h
    rw [depthBehind_mono he (hstop x)]
    exact ih h

theorem depthBehind_nowhere (hopen : x ≠ .mark '(') (hclose : x ≠ .mark ')') :
    depthBehind nowhere depth x = some depth := by
  simp [depthBehind, hopen, hclose, nowhere]

namespace IsClear

theorem nil : IsClear stop [] := rfl

theorem append (h : IsClear stop l) (h' : IsClear stop l') : IsClear stop (l ++ l') := by
  unfold IsClear
  rw [depthAlong_append, h]
  exact h'

/-- What stands in parentheses is not looked at. -/
theorem group (h : IsClear stop' l) : IsClear stop (.mark '(' :: (l ++ [.mark ')'])) := by
  show depthAlong stop 1 (l ++ [.mark ')']) = some 0
  rw [depthAlong_append, depthAlong_succ h]
  rfl

theorem mono (h : IsClear stop l) (hstop : ∀ x, stop' x = true → stop x = true) :
    IsClear stop' l := depthAlong_mono h hstop

end IsClear

/-- A symbol that is no parenthesis does not change the number of open ones. -/
theorem depthAlong_concat (hopen : x ≠ .mark '(') (hclose : x ≠ .mark ')') (depth : Nat)
    (l : List Symbol) : depthAlong nowhere depth (l ++ [x]) = depthAlong nowhere depth l := by
  rw [depthAlong_append]
  have hx (depth : Nat) : depthAlong nowhere depth [x] = some depth := by
    rw [depthAlong_cons, depthBehind_nowhere hopen hclose]
    rfl
  simp [hx]

theorem depthAlong_flush (r : Speller) (depth : Nat) :
    depthAlong nowhere depth r.flush = depthAlong nowhere depth r.found := by
  unfold Speller.flush
  by_cases hp : r.pending = []
  · rw [if_pos hp]
  · rw [if_neg hp, depthAlong_concat (by simp) (by simp)]

theorem depthAlong_step (r : Speller) (depth : Nat) (x : Lexeme) (l : List Lexeme) :
    (depthAlong nowhere depth (r.step x).found).bind (fun depth => parenDepth depth l) =
      (depthAlong nowhere depth r.found).bind fun depth => parenDepth depth (x :: l) := by
  cases x with
  | token t =>
    rw [Speller.step, depthAlong_concat (by simp) (by simp), depthAlong_flush]
    rfl
  | mark c =>
    by_cases hparen : c = '(' ∨ c = ')'
    · have hstep : r.step (.mark c) = { found := r.flush ++ [.mark c] } := by
        rcases hparen with rfl | rfl <;> rfl
      rw [hstep, depthAlong_append, depthAlong_flush]
      cases depthAlong nowhere depth r.found with
      | none => rfl
      | some d =>
        rcases hparen with rfl | rfl
        · rfl
        · cases d <;> rfl
    · obtain ⟨hopen, hclose⟩ := not_or.1 hparen
      have hskip (d : Nat) : parenDepth d (.mark c :: l) = parenDepth d l := by
        simp [parenDepth, hopen, hclose]
      simp only [hskip]
      congr 1
      dsimp only [Speller.step]
      split_ifs
      · exact depthAlong_flush r depth
      · rfl
      · rw [depthAlong_concat (by simpa using hopen) (by simpa using hclose), depthAlong_flush]

theorem depthAlong_run (r : Speller) (depth : Nat) (l : List Lexeme) :
    depthAlong nowhere depth (r.run l).found =
      (depthAlong nowhere depth r.found).bind fun depth => parenDepth depth l := by
  induction l generalizing r with
  | nil => simp [Speller.run, parenDepth]
  | cons x rest ih =>
    show depthAlong nowhere depth ((r.step x).run rest).found = _
    rw [ih, depthAlong_step]

theorem depthAlong_symbols (depth : Nat) (l : List Lexeme) :
    depthAlong nowhere depth (symbols l) = parenDepth depth l := by
  rw [symbols, depthAlong_flush, depthAlong_run]
  rfl

end

end Tsql.Text
