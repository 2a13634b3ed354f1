import Mathlib.Data.List.Forall2
import Tsql.Proofs.Render.Lexemes

/-!
# What renderings spell

`Emission.Spells` says what a rendering does to any survey that comes to it: how far it opens or closes
parentheses, what it ends with, which tokens it adds and whether it begins a comment. An `Edge` is what
is known of the survey in the middle of a rendering; going on from it with the fixed words of the
language is a computation, so a rendering is followed from word to word, the lemmas on its parts filling
in what stands between the words:

* `Spells.ofWord`, `Spells.word`: a fixed word;
* `Spells.clause`: a part that may stand behind anything, `Spells.silent` if it has no tokens;
* `Spells.value`: a part that has to stand behind something harmless;
* `Spells.negated`: a part behind a minus sign.
-/

namespace Tsql

open Text

/-- Behind what a part may stand: behind anything, behind something harmless, or also behind a minus
sign; `minus` tells whether the part begins with another one. -/
inductive Start where
  | anywhere | harmless | signed (minus : Bool)

/-- The part may stand behind what the survey has met last. -/
def Start.allows : Start → Last → Bool
  | anywhere, _ => true
  | harmless, .other => true
  | signed _, .other | signed _, .minus => true
  | _, _ => false

/-- The first character begins a comment with the last one before it. -/
def Start.introduces : Start → Last → Bool
  | signed minus, .minus => minus
  | _, _ => false

theorem Start.allows_other (start : Start) : start.allows .other = true := by cases start <;> rfl

theorem Start.eq_other_of_allows {last : Last} (h : harmless.allows last = true) :
    last = .other := by
  cases last with
  | other => rfl
  | _ => cases h

theorem Start.introduces_other (start : Start) : start.introduces .other = false := by
  cases start <;> rfl

/-- What a rendering leaves behind: its tokens, and whether two minus signs begin a comment. -/
structure Trace where
  tokens : List Token := []
  introduces : Bool := false
  deriving DecidableEq, Repr

namespace Trace

instance : Append Trace := ⟨fun a b => ⟨a.tokens ++ b.tokens, a.introduces || b.introduces⟩⟩

def name (s : String) : Trace := { tokens := [.name s] }

def string (s : String) : Trace := { tokens := [.string s] }

def join : List Trace → Trace
  | [] => {}
  | t :: rest => t ++ join rest

def after {α : Type} (r : Result α) (found : α → Trace) : Trace :=
  match r with
  | .ok a => found a
  | .error _ => {}

@[simp] theorem tokens_append (a b : Trace) : (a ++ b).tokens = a.tokens ++ b.tokens := rfl

@[simp] theorem introduces_append (a b : Trace) :
    (a ++ b).introduces = (a.introduces || b.introduces) := rfl

@[simp] theorem append_empty (t : Trace) : t ++ {} = t := by
  show Trace.mk (t.tokens ++ []) (t.introduces || false) = t
  simp

theorem join_singleton (t : Trace) : join [t] = t := append_empty t

theorem append_assoc (a b c : Trace) : a ++ b ++ c = a ++ (b ++ c) := by
  show Trace.mk (a.tokens ++ b.tokens ++ c.tokens) (a.introduces || b.introduces || c.introduces) =
    Trace.mk (a.tokens ++ (b.tokens ++ c.tokens)) (a.introduces || (b.introduces || c.introduces))
  rw [List.append_assoc, Bool.or_assoc]

end Trace

/-- What is known in the middle of a rendering: how many parentheses it has opened, and what it has
ended with so far. -/
structure Edge where
  depth : Nat := 0
  last : Option Last := none
  deriving DecidableEq, Repr

namespace Edge

def loose : Edge := {}

/-- All parentheses are closed, and anything may follow. -/
def tight : Edge := { last := some .other }

/-- The edge tells the truth about what was met last. -/
def Fits (e : Edge) (last : Last) : Prop := ∀ l, e.last = some l → last = l

theorem fits_self (depth : Nat) (last : Last) : Fits ⟨depth, some last⟩ last :=
  fun _ h => Option.some.inj h

theorem fits_loose (last : Last) : loose.Fits last := fun _ h => nomatch h

/-- The edge behind a character of a word. Words do not end statements or begin comments. -/
def mark (e : Edge) (c : Char) : Option Edge :=
  if c = '(' then some ⟨e.depth + 1, some .other⟩
  else if c = ')' then
    match e.depth with
    | 0 => none
    | n + 1 => some ⟨n, some .other⟩
  else if c = ';' then none
  else if c = '-' then
    match e.last with
    | none | some .minus => none
    | some _ => some ⟨e.depth, some .minus⟩
  else if c = '*' then
    match e.last with
    | none | some .slash => none
    | some _ => some ⟨e.depth, some .other⟩
  else if c = '/' then some ⟨e.depth, some .slash⟩
  else if isOrdinary c then some ⟨e.depth, some .other⟩
  else none

def chars (e : Edge) : List Char → Option Edge
  | [] => some e
  | c :: rest => (e.mark c).bind fun e => e.chars rest

def word (e : Edge) (s : String) : Option Edge := e.chars s.toList

def past (e part : Edge) : Edge := ⟨e.depth + part.depth, part.last⟩

/-- The edge behind a part that stands behind something known. -/
def pastBehind (last : Last) (e part : Edge) : Option Edge :=
  if e.last = some last then some (e.past part) else none

end Edge

namespace Text.Survey

variable {s : Survey}

def past (s : Survey) (start : Start) (e : Edge) (last : Last) (trace : Trace) : Survey :=
  { s with
    depth := s.depth + e.depth
    last
    tokens := s.tokens ++ trace.tokens
    introduces := s.introduces || start.introduces s.last || trace.introduces }

/-- A character that an edge can follow is surveyed as it says. -/
theorem mark_of_edge {e e' : Edge} {last : Last} {c : Char} (h : e.mark c = some e')
    (hlast : e.Fits last) :
    ∃ last', e'.Fits last' ∧ ({ s with depth := s.depth + e.depth, last } : Survey).mark c =
      some { s with depth := s.depth + e'.depth, last := last' } := by
  unfold Edge.mark at h
  unfold mark
  by_cases h1 : c = '('
  · rw [if_pos h1] at h ⊢
    cases h
    exact ⟨.other, Edge.fits_self _ _, rfl⟩
  rw [if_neg h1] at h ⊢
  by_cases h2 : c = ')'
  · rw [if_pos h2] at h ⊢
    split at h
    · cases h
    next n hn =>
      cases h
      rw [hn]
      exact ⟨.other, Edge.fits_self _ _, rfl⟩
  rw [if_neg h2] at h ⊢
  by_cases h3 : c = ';'
  · rw [if_pos h3] at h
    cases h
  rw [if_neg h3] at h ⊢
  by_cases h4 : c = '-'
  · rw [if_pos h4] at h ⊢
    split at h
    · cases h
    · cases h
    next l hne hl =>
      cases h
      obtain rfl := hlast l hl
      have hm : (last == Last.minus) = false := by
        rw [beq_eq_false_iff_ne]
        rintro rfl
        exact hne rfl
      exact ⟨.minus, Edge.fits_self _ _, by simp [hm]⟩
  rw [if_neg h4] at h ⊢
  by_cases h5 : c = '*'
  · rw [if_pos h5] at h ⊢
    split at h
    · cases h
    · cases h
    next l hne hl =>
      cases h
      obtain rfl := hlast l hl
      have hm : last ≠ .slash := by
        rintro rfl
        exact hne rfl
      exact ⟨.other, Edge.fits_self _ _, by simp [hm]⟩
  rw [if_neg h5] at h ⊢
  by_cases h6 : c = '/'
  · rw [if_pos h6] at h ⊢
    cases h
    exact ⟨.slash, Edge.fits_self _ _, rfl⟩
  rw [if_neg h6] at h ⊢
  by_cases h7 : isOrdinary c = true
  · rw [if_pos h7] at h ⊢
    cases h
    exact ⟨.other, Edge.fits_self _ _, rfl⟩
  · rw [if_neg h7] at h
    cases h

theorem run_chars (s : Survey) (last : Last) {e e' : Edge} {chars : List Char}
    (h : e.chars chars = some e') (hlast : e.Fits last) :
    ∃ last', e'.Fits last' ∧
      ({ s with depth := s.depth + e.depth, last } : Survey).run (chars.map .mark) =
        some { s with depth := s.depth + e'.depth, last := last' } := by
  induction chars generalizing e last with
  | nil =>
    cases h
    exact ⟨last, hlast, rfl⟩
  | cons c rest ih =>
    obtain ⟨e₁, hc, h⟩ := Option.bind_eq_some_iff.1 h
    obtain ⟨last₁, hlast₁, hmark⟩ := mark_of_edge (s := s) hc hlast
    obtain ⟨last', hlast', hrun⟩ := ih last₁ h hlast₁
    refine ⟨last', hlast', ?_⟩
    rw [List.map_cons, run, step, hmark]
    exact hrun

end Text.Survey

namespace Emission

variable {x y : Emission} {start start' : Start} {edge : Option Edge} {e : Edge} {t t' : Trace}

/-- Behind anything that `start` allows, a rendering without errors leads a survey to the edge and adds
the trace. Without an edge nothing is said. -/
def Spells (x : Emission) (start : Start) (edge : Option Edge) (trace : Trace) : Prop :=
  ∀ e, edge = some e → x.failure = none → ∀ params (s : Survey), start.allows s.last = true →
    ∃ last, e.Fits last ∧ s.run (x.lexemes params) = some (s.past start e last trace)

theorem lexemes_append (h : x.failure = none) (params : List Param) :
    (x ++ y).lexemes params = x.lexemes params ++ y.lexemes params := by
  rw [lexemes, pieces_append h, List.flatMap_append]
  rfl

theorem lexemes_word (s : String) (params : List Param) : (word s).lexemes params = marks s := by
  simp [lexemes, Emission.word, piece, Piece.lexemes]

theorem append_nothing (x : Emission) : x ++ nothing = x := by
  obtain ⟨pieces, failure⟩ := x
  cases failure with
  | some e => rfl
  | none =>
    show Emission.mk (pieces ++ []) none = _
    rw [List.append_nil]

theorem append_assoc (x y z : Emission) : x ++ y ++ z = x ++ (y ++ z) := by
  obtain ⟨pieces, failure⟩ := x
  obtain ⟨pieces', failure'⟩ := y
  cases failure with
  | some e => rfl
  | none =>
    cases failure' with
    | some e => rfl
    | none =>
      show Emission.mk (pieces ++ pieces' ++ z.pieces) z.failure = Emission.mk _ z.failure
      rw [List.append_assoc]
      rfl

namespace Spells

theorem at_edge (h : x.Spells start edge t) (he : edge = some e) : x.Spells start (some e) t := he ▸ h

theorem closed (h : x.Spells start edge t) (he : edge.map Edge.depth = some 0) :
    x.Spells start (some .loose) t := by
  intro e' he' hf params s hs
  obtain rfl := Option.some.inj he'
  obtain ⟨e, rfl, hd⟩ := Option.map_eq_some_iff.1 he
  obtain ⟨last, -, hrun⟩ := h e rfl hf params s hs
  refine ⟨last, Edge.fits_loose _, ?_⟩
  rw [hrun, Survey.past, Survey.past, hd]
  rfl

theorem harmless (h : x.Spells start edge t) : x.Spells .harmless edge t := by
  intro e he hf params s hs
  have hs : s.last = .other := Start.eq_other_of_allows hs
  obtain ⟨last, hlast, hrun⟩ := h e he hf params s (by rw [hs]; exact start.allows_other)
  refine ⟨last, hlast, ?_⟩
  rw [hrun, Survey.past, Survey.past, hs, start.introduces_other]
  rfl

theorem unsigned (h : x.Spells .anywhere edge t) : x.Spells (.signed false) edge t := by
  intro e he hf params s _
  obtain ⟨last, hlast, hrun⟩ := h e he hf params s rfl
  refine ⟨last, hlast, ?_⟩
  rw [hrun, Survey.past, Survey.past]
  cases s.last <;> rfl

/-- Two parts, the second of which stands behind what the first one ends with. -/
theorem append (hx : x.Spells start (some e) t) {e' : Edge} (hy : y.Spells start' (some e') t')
    (joint : Bool) (hjoint : ∀ last, e.Fits last →
      start'.allows last = true ∧ start'.introduces last = joint) :
    (x ++ y).Spells start (some (e.past e')) (t ++ ({ introduces := joint } ++ t')) := by
  intro e'' he'' hf params s hs
  obtain rfl := Option.some.inj he''
  obtain ⟨hfx, hfy⟩ := failure_append.1 hf
  obtain ⟨last, hlast, hrun⟩ := hx e rfl hfx params s hs
  obtain ⟨hallows, hintro⟩ := hjoint last hlast
  obtain ⟨last', hlast', hrun'⟩ := hy e' rfl hfy params (s.past start e last t) hallows
  refine ⟨last', hlast', ?_⟩
  rw [lexemes_append hfx, Survey.run_append, hrun, Option.bind_some, hrun']
  simp only [Survey.past, Edge.past, hintro, Trace.tokens_append, Trace.introduces_append,
    List.nil_append, List.append_assoc, Bool.or_assoc, Nat.add_assoc]

theorem clause (hx : x.Spells start edge t) {e' : Edge} (hy : y.Spells .anywhere (some e') t') :
    (x ++ y).Spells start (edge.map fun e => e.past e') (t ++ t') := by
  cases edge with
  | none => intro e he; cases he
  | some e => exact hx.append hy false fun _ _ => ⟨rfl, rfl⟩

/-- A part behind something harmless. -/
theorem value (hx : x.Spells start edge t) {e' : Edge} (hy : y.Spells start' (some e') t') :
    (x ++ y).Spells start (edge.bind fun e => e.pastBehind .other e') (t ++ t') := by
  cases edge with
  | none => intro e he; cases he
  | some e =>
    rw [Option.bind_some, Edge.pastBehind]
    split
    · next he =>
      refine hx.append hy false fun last hlast => ?_
      rw [hlast _ he]
      exact ⟨start'.allows_other, start'.introduces_other⟩
    · intro e he
      cases he

/-- A part without tokens that may stand anywhere. -/
theorem silent (hx : x.Spells start edge t) {e' : Edge} (hy : y.Spells .anywhere (some e') {}) :
    (x ++ y).Spells start (edge.map fun e => e.past e') t := by
  have h := hx.clause hy
  rwa [Trace.append_empty] at h

/-- A part behind a minus sign: a second minus sign begins a comment with the first one. -/
theorem negated (hx : x.Spells start edge t) {e' : Edge} {minus : Bool}
    (hy : y.Spells (.signed minus) (some e') t') :
    (x ++ y).Spells start (edge.bind fun e => e.pastBehind .minus e')
      (t ++ ({ introduces := minus } ++ t')) := by
  cases edge with
  | none => intro e he; cases he
  | some e =>
    rw [Option.bind_some, Edge.pastBehind]
    split
    · next he =>
      refine hx.append hy minus fun last hlast => ?_
      rw [hlast _ he]
      exact ⟨rfl, rfl⟩
    · intro e he
      cases he

theorem ofWordFrom (hdepth : e.depth = 0)
    (hstart : ∀ last, start.allows last = true → e.Fits last ∧ start.introduces last = false)
    (s : String) : (Emission.word s).Spells start (e.word s) {} := by
  intro e' he' _ params u hu
  obtain ⟨hfits, hintro⟩ := hstart u.last hu
  obtain ⟨last, hlast, hrun⟩ := Survey.run_chars u u.last he' hfits
  refine ⟨last, hlast, ?_⟩
  rw [lexemes_word, marks]
  simpa [Survey.past, hintro, hdepth] using hrun

theorem ofWord (s : String) : (Emission.word s).Spells .anywhere (Edge.loose.word s) {} :=
  ofWordFrom rfl (fun last _ => ⟨Edge.fits_loose last, rfl⟩) s

theorem ofWordBehind (s : String) : (Emission.word s).Spells .harmless (Edge.tight.word s) {} := by
  refine ofWordFrom rfl (fun last hlast => ?_) s
  rw [Start.eq_other_of_allows hlast]
  exact ⟨Edge.fits_self _ _, rfl⟩

theorem word (hx : x.Spells start edge t) (s : String) :
    (x ++ Emission.word s).Spells start (edge.bind fun e => e.word s) t := by
  intro e' he' hf params u hu
  obtain ⟨e, rfl, hw⟩ := Option.bind_eq_some_iff.1 he'
  obtain ⟨hfx, -⟩ := failure_append.1 hf
  obtain ⟨last, hlast, hrun⟩ := hx e rfl hfx params u hu
  obtain ⟨last', hlast', hrun'⟩ := Survey.run_chars (u.past start {} last t) last hw hlast
  refine ⟨last', hlast', ?_⟩
  rw [lexemes_append hfx, Survey.run_append, hrun, Option.bind_some, lexemes_word, marks]
  exact hrun'

theorem joinWords {s s' : String} (h : (Emission.word s ++ Emission.word s').Spells start edge t) :
    (Emission.word (s ++ s')).Spells start edge t := by
  intro e he hf params u hu
  obtain ⟨last, hlast, hrun⟩ := h e he rfl params u hu
  refine ⟨last, hlast, ?_⟩
  rw [← hrun, lexemes_append rfl, lexemes_word, lexemes_word, lexemes_word]
  simp [marks]

theorem nothing : Emission.nothing.Spells .anywhere (some .loose) {} := by
  intro e he _ params u _
  obtain rfl := Option.some.inj he
  refine ⟨u.last, Edge.fits_loose _, ?_⟩
  simp [lexemes, Emission.nothing, Survey.run, Survey.past, Start.introduces, Edge.loose]

theorem fail (err : Error) : (Emission.fail err).Spells start edge t := by
  intro e _ hf
  cases hf

theorem after {α : Type} {r : Result α} {f : α → Emission}
    (h : ∀ a, r = .ok a → (f a).Spells start edge t) : (Emission.after r f).Spells start edge t := by
  cases r with
  | error err => exact fail err
  | ok a => exact h a rfl

/-- What follows an operation, with a trace that depends on its result. -/
theorem resolved {α : Type} {r : Result α} {f : α → Emission} {g : α → Trace}
    (h : ∀ a, r = .ok a → (f a).Spells start edge (g a)) :
    (Emission.after r f).Spells start edge (Trace.after r g) := by
  cases r with
  | error err => exact fail err
  | ok a => exact h a rfl

theorem name (s : String) : (Emission.name s).Spells .anywhere (some .tight) (.name s) := by
  intro e he _ params u _
  obtain rfl := Option.some.inj he
  refine ⟨.other, Edge.fits_self _ _, ?_⟩
  simp [lexemes, Emission.name, piece, Piece.lexemes, Survey.run, Survey.step, Token.name, Survey.past,
    Start.introduces, Edge.tight, Trace.name]

theorem line : Emission.line.Spells .anywhere (some .tight) {} := by
  intro e he _ params u _
  obtain rfl := Option.some.inj he
  refine ⟨.other, Edge.fits_self _ _, ?_⟩
  simp [lexemes, Emission.line, piece, Piece.lexemes, Survey.run, Survey.step, Survey.mark,
    isOrdinary, Survey.past, Start.introduces, Edge.tight]

theorem indent : (piece .indent).Spells .anywhere (some .loose) {} := nothing

theorem outdent : (piece .outdent).Spells .anywhere (some .loose) {} := nothing

theorem national (s : String) :
    (Emission.piece (.literal (.string true s))).Spells .anywhere (some .loose)
      (.string s) := by
  intro e he _ params u _
  obtain rfl := Option.some.inj he
  refine ⟨.string, Edge.fits_loose _, ?_⟩
  simp [lexemes, piece, Piece.lexemes, Survey.run, Survey.step, Survey.mark, isOrdinary, Token.string,
    Survey.past, Start.introduces, Edge.loose, Trace.string]

theorem string (s : String) :
    (Emission.piece (.literal (.string false s))).Spells (.signed false) (some .loose)
      (.string s) := by
  intro e he _ params u hu
  obtain rfl := Option.some.inj he
  refine ⟨.string, Edge.fits_loose _, ?_⟩
  have hne : u.last ≠ .string := by
    intro h
    rw [h] at hu
    cases hu
  have hi : (Start.signed false).introduces u.last = false := by cases u.last <;> rfl
  simp [lexemes, piece, Piece.lexemes, Survey.run, Survey.step, Token.string, Survey.past, hne, hi,
    Edge.loose, Trace.string]

/-! ### Lists -/

/-- Several parts, each of which may stand behind something harmless. -/
def Each : List Emission → List Trace → Prop :=
  List.Forall₂ fun x t => x.Spells .harmless (some .loose) t

theorem each {α : Type} {items : List α} {f : α → Emission} {g : α → Trace}
    (h : ∀ a ∈ items, (f a).Spells .harmless (some .loose) (g a)) :
    Each (items.map f) (items.map g) := by
  rw [Each, List.forall₂_map_left_iff, List.forall₂_map_right_iff, List.forall₂_same]
  exact h

theorem separated {separator : String} (hsep : Edge.loose.word separator = some .tight)
    {parts : List Emission} {traces : List Trace} (h : Each parts traces) :
    (Emission.separated separator parts).Spells .harmless (some .loose) (Trace.join traces) := by
  induction h with
  | nil => exact nothing.harmless
  | @cons x t parts traces hx hrest ih =>
    cases hrest with
    | nil =>
      rw [Trace.join_singleton]
      exact hx
    | @cons y u parts traces hy hrest =>
      refine ((hx.word separator).value ih).at_edge ?_
      rw [Option.bind_some, hsep]
      rfl

theorem listed {α : Type} {items : List α} {f : α → Emission} {g : α → Trace}
    (h : ∀ a ∈ items, (f a).Spells .harmless (some .loose) (g a)) :
    (Emission.listed (items.map f)).Spells .harmless (some .loose) (Trace.join (items.map g)) :=
  separated (by decide) (each h)

theorem names (items : List String) :
    (Emission.names items).Spells .harmless (some .loose) (Trace.join (items.map .name)) :=
  listed fun s _ => (name s).harmless.closed rfl

theorem alone (h : x.Spells start edge t) : (x ++ Emission.nothing).Spells start edge t := by
  rw [append_nothing]
  exact h

end Spells

end Emission

end Tsql
