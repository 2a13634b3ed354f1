import Mathlib.Tactic.SplitIfs
import Tsql.Proofs.Text.Survey

/-!
# Scanning loses nothing

`charsOf` puts lexemes together to a text. It is the inverse of `scan`: what was scanned is put together to
the text that it was scanned from, and lexemes that pass a survey are scanned from their text again.
-/

namespace Tsql.Text

def Lexeme.chars : Lexeme → List Char
  | mark c => [c]
  | token t => t.quote.first :: doubled t.quote.last t.text.toList ++ [t.quote.last]

def charsOf (l : List Lexeme) : List Char := l.flatMap Lexeme.chars

theorem charsOf_append (l l' : List Lexeme) : charsOf (l ++ l') = charsOf l ++ charsOf l' :=
  List.flatMap_append

theorem charsOf_marks (chars : List Char) : charsOf (chars.map .mark) = chars := by
  induction chars with
  | nil => rfl
  | cons c rest ih =>
    show c :: charsOf (rest.map .mark) = c :: rest
    rw [ih]

theorem charsOf_singleton (x : Lexeme) : charsOf [x] = x.chars := List.flatMap_singleton ..

theorem Lexeme.chars_ne_nil (x : Lexeme) : x.chars ≠ [] := by cases x <;> simp [chars]

theorem charsOf_eq_nil {l : List Lexeme} (h : charsOf l = []) : l = [] := by
  cases l with
  | nil => rfl
  | cons x rest => exact absurd (List.append_eq_nil_iff.1 h).1 x.chars_ne_nil

namespace Scanner

variable {s : Scanner} {found l : List Lexeme}

def partial? : ScanState → List Char
  | .outside => []
  | .inside q payload => q.first :: doubled q.last payload
  | .closing q payload => q.first :: doubled q.last payload ++ [q.last]

def chars (s : Scanner) : List Char := charsOf s.lexemes ++ partial? s.state

theorem chars_of_finished? (h : s.finished? = some found) : s.chars = charsOf found := by
  unfold finished? at h
  cases hs : s.state with
  | outside =>
    simp only [hs, Option.some.injEq] at h
    simp [chars, hs, partial?, h]
  | inside q payload => simp [hs] at h
  | closing q payload =>
    simp only [hs, Option.some.injEq] at h
    simp [chars, hs, partial?, ← h, charsOf_append, charsOf_singleton, closed, Lexeme.chars]

theorem first_of_ofFirst? {c : Char} {q : Quote} (h : Quote.ofFirst? c = some q) : q.first = c := by
  unfold Quote.ofFirst? at h
  split_ifs at h with h1 h2 <;> cases h
  · exact h1.symm
  · exact h2.symm

theorem chars_start (found : List Lexeme) (c : Char) :
    (start found c).chars = charsOf found ++ [c] := by
  unfold start
  cases hq : Quote.ofFirst? c with
  | none => simp [chars, partial?, charsOf_append, charsOf_singleton, Lexeme.chars]
  | some q => simp [chars, partial?, doubled, first_of_ofFirst? hq]

theorem chars_next (s : Scanner) (c : Char) : (s.next c).chars = s.chars ++ [c] := by
  cases hs : s.state with
  | outside =>
    have hfound : s.finished? = some s.lexemes := by simp [finished?, hs]
    rw [next_eq_start hfound (by simp [hs]), chars_start, chars_of_finished? hfound]
  | inside q payload =>
    by_cases hc : c = q.last
    · simp [next, chars, hs, partial?, hc]
    · simp [next, chars, hs, partial?, hc, doubled_append, doubled]
  | closing q payload =>
    by_cases hc : c = q.last
    · simp [next, chars, hs, partial?, hc, doubled_append, doubled]
    · have hfound : s.finished? = some (s.lexemes ++ [closed q payload]) := by simp [finished?, hs]
      rw [next_eq_start hfound (by simpa [hs] using hc), chars_start, chars_of_finished? hfound]

theorem chars_foldl (s : Scanner) (text : List Char) :
    (text.foldl next s).chars = s.chars ++ text := by
  induction text generalizing s with
  | nil => simp
  | cons c rest ih => simp [ih, chars_next]

end Scanner

theorem charsOf_of_scan {text : List Char} {l : List Lexeme} (h : scan text = some l) :
    charsOf l = text := by
  rw [← Scanner.chars_of_finished? h, Scanner.chars_foldl]
  rfl

namespace Scanner

variable {s : Scanner} {found l : List Lexeme} {u v : Survey} {x : Lexeme}

/-- A lexeme that a survey takes is scanned as itself. -/
theorem foldl_chars (hs : s.finished? = some found) (hstring : s.afterString → u.last = .string)
    (h : u.step x = some v) :
    (x.chars.foldl next s).finished? = some (found ++ [x]) ∧
      ((x.chars.foldl next s).afterString → v.last = .string) := by
  cases x with
  | mark c =>
    show (s.next c).finished? = _ ∧ ((s.next c).afterString → _)
    rw [next_isOrdinary hs (Survey.isOrdinary_of_mark h)]
    refine ⟨rfl, ?_⟩
    rintro ⟨payload, hclosing⟩
    cases hclosing
  | token t =>
    obtain ⟨q, text⟩ := t
    have hfold := foldl_quoted hs q text.toList fun hq hafter => by
      subst hq
      simp [Survey.step, hstring hafter] at h
    rw [Lexeme.chars, hfold]
    refine ⟨by simp [finished?, closed], ?_⟩
    rintro ⟨payload, hclosing⟩
    obtain rfl : q = .apostrophe := by
      cases hclosing
      rfl
    rw [Survey.step] at h
    split_ifs at h
    cases h
    rfl

theorem foldl_charsOf (hs : s.finished? = some found) (hstring : s.afterString → u.last = .string)
    (h : u.run l = some v) : ((charsOf l).foldl next s).finished? = some (found ++ l) := by
  induction l generalizing s found u with
  | nil => simpa [charsOf] using hs
  | cons x rest ih =>
    obtain ⟨w, hw, h⟩ := Survey.run_cons h
    obtain ⟨hx, hxstring⟩ := foldl_chars hs hstring hw
    have hrest := ih hx hxstring h
    rw [List.append_assoc] at hrest
    rw [charsOf, List.flatMap_cons, List.foldl_append]
    exact hrest

end Scanner

/-- Lexemes that pass a survey are scanned from their text. -/
theorem scan_charsOf {l : List Lexeme} {v : Survey} (h : Survey.run {} l = some v) :
    scan (charsOf l) = some l := by
  have hstart : ({} : Scanner).afterString → ({} : Survey).last = .string := by
    rintro ⟨payload, hclosing⟩
    cases hclosing
  exact Scanner.foldl_charsOf rfl hstart h

end Tsql.Text
