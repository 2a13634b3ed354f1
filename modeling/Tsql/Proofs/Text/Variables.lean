import Tsql.Proofs.Text.Scan

/-!
# Variables of a text

Outside of tokens, characters of names that stand together form a word; a variable is a word that begins
with an `@`. `variableNames` lists those of the lexemes of a text, in order and with repetition. The words
that a renderer writes without looking at them are `isReadable` if they keep their tokens closed and
have no variable of their own.
-/

namespace Tsql.Text

/-- A character that belongs to the word it stands in. -/
def isNameChar (c : Char) : Bool :=
  c.isAlphanum || c == '_' || c == '@' || c == '#' || c == '$' || decide (128 ≤ c.toNat)

/-- The variables found so far, and the word that may go on. -/
structure Reader where
  pending : List Char := []
  found : List String := []
  deriving DecidableEq, Repr

namespace Reader

def flush (r : Reader) : Reader :=
  { found := if r.pending.head? = some '@' then r.found ++ [String.ofList r.pending] else r.found }

def step (r : Reader) : Lexeme → Reader
  | .mark c => if isNameChar c then { r with pending := r.pending ++ [c] } else r.flush
  | .token _ => r.flush

def run (r : Reader) (l : List Lexeme) : Reader := l.foldl step r

variable {r : Reader} {l l' : List Lexeme}

theorem run_append (r : Reader) (l l' : List Lexeme) : r.run (l ++ l') = (r.run l).run l' :=
  List.foldl_append

theorem flush_eq_self (h : r.pending = []) : r.flush = r := by
  obtain ⟨pending, found⟩ := r
  subst h
  rfl

theorem flush_flush (r : Reader) : r.flush.flush = r.flush := flush_eq_self rfl

theorem step_flush_found (r : Reader) (found : List String) (x : Lexeme) :
    ({ r with found := found ++ r.found } : Reader).step x =
      { r.step x with found := found ++ (r.step x).found } := by
  have hflush : ({ r with found := found ++ r.found } : Reader).flush =
      { r.flush with found := found ++ r.flush.found } := by
    unfold flush
    by_cases hp : r.pending.head? = some '@'
    · simp [hp]
    · simp [hp]
  cases x with
  | token t => exact hflush
  | mark c =>
    unfold step
    by_cases hc : isNameChar c = true
    · simp [hc]
    · simp [hc, hflush]

/-- What was found before has no part in what is found later. -/
theorem run_found (r : Reader) (found : List String) (l : List Lexeme) :
    ({ r with found := found ++ r.found } : Reader).run l =
      { r.run l with found := found ++ (r.run l).found } := by
  induction l generalizing r with
  | nil => rfl
  | cons x rest ih =>
    show Reader.run (Reader.step _ x) rest = _
    rw [step_flush_found, ih]
    rfl

/-- The characters of one word, from its beginning. -/
theorem run_name {pre chars : List Char} (h : ∀ c ∈ chars, isNameChar c = true)
    (hr : r.pending = pre) :
    r.run (chars.map .mark) = { r with pending := pre ++ chars } := by
  induction chars generalizing r pre with
  | nil =>
    subst hr
    simp [run]
  | cons c rest ih =>
    have hstep : r.step (.mark c) = { r with pending := pre ++ [c] } := by
      rw [step, if_pos (h c (by simp)), hr]
    show Reader.run (r.step (.mark c)) (rest.map .mark) = _
    rw [hstep, ih (r := { r with pending := pre ++ [c] }) (fun d hd => h d (by simp [hd])) rfl]
    simp

end Reader

def variableNames (l : List Lexeme) : List String := (Reader.run {} l).flush.found

/-- The text closes its tokens and has no variables. -/
def isReadable (s : String) : Bool := (scan s.toList).map variableNames == some []

theorem isReadable_iff {s : String} :
    isReadable s = true ↔ ∃ l, scan s.toList = some l ∧ variableNames l = [] := by
  unfold isReadable
  rw [beq_iff_eq, Option.map_eq_some_iff]

/-- Between two words, whatever has no variables of its own adds none. -/
theorem Reader.run_of_variableNames {r : Reader} (hr : r.pending = []) {l : List Lexeme}
    (hl : variableNames l = []) : (r.run l).flush.found = r.found := by
  have h := run_found {} r.found l
  have hstart : ({ found := r.found ++ [] } : Reader) = r := by
    obtain ⟨pending, found⟩ := r
    subst hr
    simp
  rw [hstart] at h
  unfold variableNames flush at hl
  rw [h]
  unfold flush
  dsimp only at hl ⊢
  split at hl
  · simp at hl
  next hp => rw [if_neg hp, hl, List.append_nil]

/-! ### Scans in the middle of a text -/

namespace Scanner

theorem start_append (before found : List Lexeme) (c : Char) :
    start (before ++ found) c = { start found c with lexemes := before ++ (start found c).lexemes } := by
  unfold start
  cases Quote.ofFirst? c <;> simp

theorem next_append (before : List Lexeme) (s : Scanner) (c : Char) :
    next { s with lexemes := before ++ s.lexemes } c =
      { s.next c with lexemes := before ++ (s.next c).lexemes } := by
  unfold next
  cases s.state with
  | outside => exact start_append ..
  | inside q payload => rfl
  | closing q payload =>
    dsimp only
    split
    · rfl
    · rw [List.append_assoc, start_append]

/-- What was found before has no part in how a scan goes on. -/
theorem foldl_append (before : List Lexeme) (s : Scanner) (chars : List Char) :
    chars.foldl next { s with lexemes := before ++ s.lexemes } =
      { chars.foldl next s with lexemes := before ++ (chars.foldl next s).lexemes } := by
  induction chars generalizing s with
  | nil => rfl
  | cons c rest ih => rw [List.foldl_cons, next_append, ih, List.foldl_cons]

/-- Outside of tokens a text is scanned as it is by itself. -/
theorem finished?_foldl_of_scan {found l : List Lexeme} {chars : List Char} (h : scan chars = some l) :
    (chars.foldl next ⟨found, .outside⟩).finished? = some (found ++ l) := by
  have hshift := foldl_append found {} chars
  rw [List.append_nil] at hshift
  rw [hshift]
  unfold scan finished? at h
  unfold finished?
  dsimp only
  cases hs : (chars.foldl next {}).state with
  | outside =>
    simp only [hs, Option.some.injEq] at h
    simp only [h]
  | inside q payload => simp [hs] at h
  | closing q payload =>
    simp only [hs, Option.some.injEq] at h
    simp only [List.append_assoc, h]

end Scanner

end Tsql.Text
