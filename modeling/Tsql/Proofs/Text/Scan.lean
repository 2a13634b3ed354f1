import Tsql.Text.Quoted

/-!
# Tokens of a text

A text is scanned from left to right. Outside of tokens each character counts for itself; `[` and `'`
begin a token, which goes on to the next `]` or `'` that is not written twice. `scan` gives the
characters outside and the tokens, each with the text that it stands for, unless the text ends inside
of a token.
-/

namespace Tsql.Text

/-- The two kinds of quoted tokens. -/
inductive Quote where
  | bracket | apostrophe
  deriving DecidableEq, Repr

namespace Quote

def first : Quote → Char
  | bracket => '['
  | apostrophe => '\''

def last : Quote → Char
  | bracket => ']'
  | apostrophe => '\''

/-- The kind of token that a character begins. -/
def ofFirst? (c : Char) : Option Quote :=
  if c = '[' then some bracket else if c = '\'' then some apostrophe else none

theorem ofFirst?_first (q : Quote) : ofFirst? q.first = some q := by cases q <;> rfl

end Quote

/-- A token with the text that it stands for. -/
structure Token where
  quote : Quote
  text : String
  deriving DecidableEq, Repr

def Token.name (s : String) : Token := ⟨.bracket, s⟩

def Token.string (s : String) : Token := ⟨.apostrophe, s⟩

/-- A character outside of tokens, or a token. -/
inductive Lexeme where
  | mark (c : Char)
  | token (t : Token)
  deriving DecidableEq, Repr

def Lexeme.token? : Lexeme → Option Token
  | mark _ => none
  | token t => some t

inductive ScanState where
  | outside
  /-- In a token, after a part of its text. -/
  | inside (q : Quote) (payload : List Char)
  /-- Behind a character that ends the token unless it is written twice. -/
  | closing (q : Quote) (payload : List Char)
  deriving DecidableEq, Repr

/-- A scan under way: what was found, and where it stands. -/
structure Scanner where
  lexemes : List Lexeme := []
  state : ScanState := .outside
  deriving DecidableEq, Repr

namespace Scanner

/-- A character that does not belong to the tokens before it. -/
def start (found : List Lexeme) (c : Char) : Scanner :=
  match Quote.ofFirst? c with
  | some q => ⟨found, .inside q []⟩
  | none => ⟨found ++ [.mark c], .outside⟩

/-- The token whose last character may have been read. -/
def closed (q : Quote) (payload : List Char) : Lexeme := .token ⟨q, String.ofList payload⟩

/-- Reads a character. -/
def next (s : Scanner) (c : Char) : Scanner :=
  match s.state with
  | .outside => start s.lexemes c
  | .inside q payload =>
    ⟨s.lexemes, if c = q.last then .closing q payload else .inside q (payload ++ [c])⟩
  | .closing q payload =>
    if c = q.last then ⟨s.lexemes, .inside q (payload ++ [c])⟩
    else start (s.lexemes ++ [closed q payload]) c

/-- What was found, unless the scan stands in a token. -/
def finished? (s : Scanner) : Option (List Lexeme) :=
  match s.state with
  | .outside => some s.lexemes
  | .inside .. => none
  | .closing q payload => some (s.lexemes ++ [closed q payload])

end Scanner

/-- The characters and tokens of a text, unless it ends in a token. -/
def scan (s : List Char) : Option (List Lexeme) := (s.foldl Scanner.next {}).finished?

/-- A character that neither begins nor ends a token. -/
def isOrdinary (c : Char) : Bool := c ≠ '[' && c ≠ ']' && c ≠ '\''

theorem ofFirst?_of_isOrdinary {c : Char} (h : isOrdinary c = true) : Quote.ofFirst? c = none := by
  simp only [isOrdinary, Bool.and_eq_true, decide_eq_true_eq] at h
  simp [Quote.ofFirst?, h]

theorem ne_last_of_isOrdinary {c : Char} (h : isOrdinary c = true) (q : Quote) : c ≠ q.last := by
  simp only [isOrdinary, Bool.and_eq_true, decide_eq_true_eq] at h
  cases q with
  | bracket => exact h.1.2
  | apostrophe => exact h.2

namespace Scanner

variable {s : Scanner} {found : List Lexeme}

/-- The scan stands behind a quote that may turn out to be the first of two. -/
def afterString (s : Scanner) : Prop := ∃ payload, s.state = .closing .apostrophe payload

/-- A character that does not go on with a token is read from the outside. -/
theorem next_eq_start (hs : s.finished? = some found) {c : Char}
    (hc : ∀ q payload, s.state = .closing q payload → c ≠ q.last) :
    s.next c = start found c := by
  unfold finished? at hs
  unfold next
  cases hst : s.state with
  | outside =>
    simp only [hst, Option.some.injEq] at hs
    simp only [hs]
  | inside q payload => simp [hst] at hs
  | closing q payload =>
    simp only [hst, Option.some.injEq] at hs
    simp only [if_neg (hc q payload hst), hs]

theorem next_isOrdinary (hs : s.finished? = some found) {c : Char} (hc : isOrdinary c = true) :
    s.next c = ⟨found ++ [.mark c], .outside⟩ := by
  rw [next_eq_start hs fun q _ _ => ne_last_of_isOrdinary hc q, start, ofFirst?_of_isOrdinary hc]

theorem foldl_isOrdinary (hs : s.finished? = some found) {chars : List Char}
    (hc : ∀ c ∈ chars, isOrdinary c = true) :
    (chars.foldl next s).finished? = some (found ++ chars.map .mark) ∧
      (chars ≠ [] → (chars.foldl next s).state = .outside) := by
  induction chars generalizing s found with
  | nil => exact ⟨by simpa using hs, fun h => absurd rfl h⟩
  | cons c rest ih =>
    rw [List.foldl_cons, next_isOrdinary hs (hc c (by simp))]
    obtain ⟨hf, hstate⟩ := ih (s := ⟨found ++ [.mark c], .outside⟩) rfl
      fun d hd => hc d (by simp [hd])
    refine ⟨by simpa using hf, fun _ => ?_⟩
    by_cases hr : rest = []
    · subst hr
      rfl
    · exact hstate hr

theorem foldl_doubled (q : Quote) (payload text : List Char) :
    (doubled q.last text).foldl next ⟨found, .inside q payload⟩ =
      ⟨found, .inside q (payload ++ text)⟩ := by
  induction text generalizing payload with
  | nil => simp [doubled]
  | cons c rest ih =>
    by_cases hc : c = q.last
    · rw [doubled, if_pos hc, List.foldl_cons, List.foldl_cons]
      have hfirst : next ⟨found, .inside q payload⟩ q.last = ⟨found, .closing q payload⟩ := by
        simp [next]
      have hsecond : next ⟨found, .closing q payload⟩ q.last =
          ⟨found, .inside q (payload ++ [q.last])⟩ := by
        simp [next]
      rw [hfirst, hsecond, ih, hc]
      simp
    · rw [doubled, if_neg hc, List.foldl_cons]
      have hnext : next ⟨found, .inside q payload⟩ c = ⟨found, .inside q (payload ++ [c])⟩ := by
        simp [next, hc]
      rw [hnext, ih]
      simp

/-- A token that does not directly follow a string, unless it is a name. -/
theorem foldl_quoted (hs : s.finished? = some found) (q : Quote) (text : List Char)
    (hq : q = .apostrophe → ¬ s.afterString) :
    (q.first :: doubled q.last text ++ [q.last]).foldl next s = ⟨found, .closing q text⟩ := by
  have hfirst : s.next q.first = ⟨found, .inside q []⟩ := by
    rw [next_eq_start hs, start, Quote.ofFirst?_first]
    intro q' payload hst
    cases q <;> cases q' <;> simp only [Quote.first, Quote.last, ne_eq] <;> try decide
    exact absurd ⟨payload, hst⟩ (hq rfl)
  rw [List.cons_append, List.foldl_cons, hfirst, List.foldl_append, foldl_doubled]
  simp [next]

end Scanner

end Tsql.Text
