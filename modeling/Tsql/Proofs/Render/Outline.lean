import Mathlib.Data.List.Forall2
import Tsql.Proofs.Render.Writes
import Tsql.Proofs.Text.Variables

/-!
# Outlines of renderings

Two things are read off the pieces of a rendering: its placeholders in order, and the names that are put
behind the head of a row source, a table, a rowset or a nested query, as its alias. A `Sketch` follows the
pieces and finds the aliases; its `Ending` also tells whether a placeholder or a word would run together
with what stands before it.

`Emission.Shows` says what a rendering adds to any sketch. An `Ending` is at the same time what is known in
the middle of a rendering: it may be one that covers several (`Ending.within`), and going on from it with
the fixed words of the language is a computation. The same judgement says what the error is that a
rendering stops with, so that each part of the language is gone through once.
-/

namespace Tsql

open Text

/-- What stands at the end of a text. -/
inductive Ending where
  /-- Nothing, or a character that belongs to no word. -/
  | clear
  /-- A word that is no variable. -/
  | letters
  /-- A name in brackets. -/
  | named
  /-- A closing parenthesis by itself. -/
  | closed
  /-- A blank behind the head of a row source. -/
  | headed
  /-- A blank behind something unknown. -/
  | spaced
  /-- Something unknown. -/
  | loose
  deriving DecidableEq, Repr

namespace Ending

variable {a b b' : Ending}

def within : Ending → Ending → Bool
  | _, loose => true
  | clear, spaced | headed, spaced => true
  | a, b => a == b

theorem within_refl (a : Ending) : a.within a = true := by cases a <;> rfl

theorem within_trans {c : Ending} (h : a.within b = true) (h' : b.within c = true) :
    a.within c = true := by
  revert h h'
  cases a <;> cases b <;> cases c <;> decide

/-- No word goes on, and no token has just been closed. -/
def isOpen : Ending → Bool
  | clear | closed | headed | spaced => true
  | letters | named | loose => false

/-- The ending is no part of a row source's head any more. -/
def settled : Ending → Ending
  | named => loose
  | closed | headed => clear
  | e => e

/-- The ending behind a character outside of tokens. -/
def mark (e : Ending) (c : Char) : Option Ending :=
  if isNameChar c then
    if e.isOpen then if c = '@' then none else some letters
    else if e = letters then some letters else none
  else if isOrdinary c then some clear
  else none

/-- The ending behind some characters outside of tokens. -/
def chars (e : Ending) : List Char → Option Ending
  | [] => some e
  | c :: rest => (e.mark c).bind fun e => e.chars rest

def blank : Ending → Ending
  | named | closed => headed
  | loose => spaced
  | _ => clear

def word (e : Ending) (s : String) : Option Ending :=
  if s = " " then some e.blank
  else if s = ")" then some closed
  else if s = ") " then some headed
  else e.settled.chars s.toList

/-- The ending behind a piece, unless the piece runs together with what stands before it. A word that
is no word of the language stands by itself. -/
def piece (e : Ending) : Piece → Option Ending
  | .word s => (e.word s).or (if e.isOpen && isReadable s then some loose else none)
  | .name _ => some named
  | .literal (.word s) => e.settled.chars s.toList
  | .literal (.string _ _) => if e.isOpen then some loose else none
  | .placeholder _ => if e.isOpen then some loose else none
  | .line => some clear
  | .indent | .outdent => some e.settled

theorem settled_within (h : a.within b = true) : a.settled.within b.settled = true := by
  revert h
  cases a <;> cases b <;> decide

theorem blank_within (h : a.within b = true) : a.blank.within b.blank = true := by
  revert h
  cases a <;> cases b <;> decide

theorem settled_isOpen (h : a.isOpen = true) : a.settled.isOpen = true := by
  cases a <;> first | rfl | cases h

theorem isOpen_of_within (h : a.within b = true) (hb : b.isOpen = true) : a.isOpen = true := by
  revert h hb
  cases a <;> cases b <;> decide

theorem mark_within (h : a.within b = true) {c : Char} (hb : b.mark c = some b') :
    ∃ a', a.mark c = some a' ∧ a'.within b' = true := by
  unfold mark at hb ⊢
  by_cases hc : isNameChar c = true
  · rw [if_pos hc] at hb ⊢
    by_cases ho : b.isOpen = true
    · rw [if_pos ho] at hb
      rw [if_pos (isOpen_of_within h ho)]
      exact ⟨b', hb, within_refl b'⟩
    · rw [if_neg ho] at hb
      split at hb
      · next hl =>
        subst hl
        cases hb
        have ha : a = letters := by cases a <;> first | rfl | cases h
        subst ha
        exact ⟨letters, rfl, rfl⟩
      · cases hb
  · rw [if_neg hc] at hb ⊢
    exact ⟨b', hb, within_refl b'⟩

theorem chars_within (h : a.within b = true) {s : List Char} (hb : b.chars s = some b') :
    ∃ a', a.chars s = some a' ∧ a'.within b' = true := by
  induction s generalizing a b with
  | nil =>
    cases hb
    exact ⟨a, rfl, h⟩
  | cons c rest ih =>
    obtain ⟨b₁, hc, hb⟩ := Option.bind_eq_some_iff.1 hb
    obtain ⟨a₁, ha, h₁⟩ := mark_within h hc
    obtain ⟨a', ha', h'⟩ := ih h₁ hb
    exact ⟨a', by rw [chars, ha]; exact ha', h'⟩

/-- What is known behind a word holds of every case of what was known before it. -/
theorem word_within (h : a.within b = true) {s : String} (hb : b.word s = some b') :
    ∃ a', a.word s = some a' ∧ a'.within b' = true := by
  unfold word at hb ⊢
  split at hb
  · next hs =>
    cases hb
    rw [if_pos hs]
    exact ⟨_, rfl, blank_within h⟩
  next hblank =>
  rw [if_neg hblank]
  split at hb
  · next hs =>
    cases hb
    rw [if_pos hs]
    exact ⟨_, rfl, rfl⟩
  next hparen =>
  rw [if_neg hparen]
  split at hb
  · next hs =>
    cases hb
    rw [if_pos hs]
    exact ⟨_, rfl, rfl⟩
  next hboth =>
  rw [if_neg hboth]
  exact chars_within (settled_within h) hb

end Ending

/-- What was found in the pieces so far. -/
structure Sketch where
  before : List Piece := []
  ending : Ending := .clear
  /-- The names behind the heads of row sources, each with all the pieces before it. -/
  aliases : List (List Piece × String) := []
  /-- Some piece ran together with what stands before it. -/
  garbled : Bool := false

namespace Sketch

def introduced (s : Sketch) : Piece → List (List Piece × String)
  | .name a => if s.ending = .headed then [(s.before, a)] else []
  | _ => []

def step (s : Sketch) (p : Piece) : Sketch :=
  { before := s.before ++ [p]
    ending := (s.ending.piece p).getD .loose
    aliases := s.aliases ++ s.introduced p
    garbled := s.garbled || (s.ending.piece p).isNone }

def run (s : Sketch) (pieces : List Piece) : Sketch := pieces.foldl step s

theorem run_append (s : Sketch) (pieces pieces' : List Piece) :
    s.run (pieces ++ pieces') = (s.run pieces).run pieces' := List.foldl_append

theorem before_run (s : Sketch) (pieces : List Piece) :
    (s.run pieces).before = s.before ++ pieces := by
  induction pieces generalizing s with
  | nil => simp [run]
  | cons p rest ih =>
    show ((s.step p).run rest).before = _
    rw [ih]
    simp [step]

/-- What ran together stays so. -/
theorem garbled_of_run {s : Sketch} {pieces : List Piece} (h : (s.run pieces).garbled = false) :
    s.garbled = false := by
  induction pieces generalizing s with
  | nil => exact h
  | cons p rest ih => exact (Bool.or_eq_false_iff.1 (ih h)).1

end Sketch

/-- What a rendering shows: the parameters of its placeholders, the heads of its row sources with their
aliases, and whether some word in it runs together with another or has tokens or variables of its own. -/
structure Outline where
  params : List Param := []
  aliases : List (List Piece × String) := []
  garbled : Bool := false

namespace Outline

instance : Append Outline :=
  ⟨fun a b => ⟨a.params ++ b.params, a.aliases ++ b.aliases, a.garbled || b.garbled⟩⟩

def join : List Outline → Outline
  | [] => {}
  | a :: rest => a ++ join rest

@[simp] theorem params_append (a b : Outline) : (a ++ b).params = a.params ++ b.params := rfl

@[simp] theorem aliases_append (a b : Outline) : (a ++ b).aliases = a.aliases ++ b.aliases := rfl

@[simp] theorem garbled_append (a b : Outline) : (a ++ b).garbled = (a.garbled || b.garbled) := rfl

@[simp] theorem append_empty (a : Outline) : a ++ {} = a := by
  show Outline.mk (a.params ++ []) (a.aliases ++ []) (a.garbled || false) = a
  simp

@[simp] theorem empty_append (a : Outline) : ({} : Outline) ++ a = a := by
  show Outline.mk ([] ++ a.params) ([] ++ a.aliases) (false || a.garbled) = a
  simp

theorem join_singleton (a : Outline) : join [a] = a := append_empty a

theorem append_assoc (a b c : Outline) : a ++ b ++ c = a ++ (b ++ c) := by
  show Outline.mk (a.params ++ b.params ++ c.params) (a.aliases ++ b.aliases ++ c.aliases)
      (a.garbled || b.garbled || c.garbled) =
    Outline.mk (a.params ++ (b.params ++ c.params)) (a.aliases ++ (b.aliases ++ c.aliases))
      (a.garbled || (b.garbled || c.garbled))
  rw [List.append_assoc, List.append_assoc, Bool.or_assoc]

end Outline

namespace Emission

variable {x y : Emission} {P : Error → Prop} {start start' : Ending} {edge : Option Ending}
  {e e' : Ending} {a b : Outline}

/-- The name is the same, and what stands before it ends with the head. -/
def Follows (found shown : List Piece × String) : Prop := found.2 = shown.2 ∧ shown.1 <:+ found.1

/-- A rendering ends with an error of a certain kind, or it leads a sketch from one ending to another and
shows the outline on the way. Without a second ending only the errors and the parameters are described. -/
structure Shows (x : Emission) (P : Error → Prop) (start : Ending) (edge : Option Ending)
    (shown : Outline) : Prop where
  failure : ∀ err, x.failure = some err → P err
  params : x.failure = none → x.pieces.filterMap Piece.param? = shown.params
  run : ∀ e, edge = some e → x.failure = none → ∀ s : Sketch, s.ending.within start = true →
    ∃ found, (s.run x.pieces).aliases = s.aliases ++ found ∧
      List.Forall₂ Follows found shown.aliases ∧ (s.run x.pieces).ending.within e = true ∧
      ((s.run x.pieces).garbled = true → s.garbled = true ∨ shown.garbled = true)

theorem failure_append_eq_some {err : Error} :
    (x ++ y).failure = some err ↔
      x.failure = some err ∨ x.failure = none ∧ y.failure = some err := by
  show (append x y).failure = some err ↔ _
  unfold append
  cases hx : x.failure <;> simp [hx]

namespace Shows

theorem at_edge (h : x.Shows P start edge a) (he : edge = some e) : x.Shows P start (some e) a := he ▸ h

/-- Less may be said about the ending. -/
theorem widen (h : x.Shows P start edge a) (he : edge.any (·.within e) = true) :
    x.Shows P start (some e) a := by
  refine ⟨h.failure, h.params, ?_⟩
  intro e₁ he₁ hf s hs
  cases he₁
  obtain ⟨e₀, rfl, hwithin⟩ := (Option.any_eq_true ..).1 he
  obtain ⟨found, hfound, hfollows, hending, hgarbled⟩ := h.run e₀ rfl hf s hs
  exact ⟨found, hfound, hfollows, Ending.within_trans hending hwithin, hgarbled⟩

theorem loosen (h : x.Shows P start edge a) (he : edge.isSome = true) :
    x.Shows P start (some .loose) a := by
  obtain ⟨e, rfl⟩ := Option.isSome_iff_exists.1 he
  exact h.widen (by cases e <;> rfl)

/-- Two parts, the second of which may stand behind the end of the first one. -/
theorem part {edge' : Option Ending} (hx : x.Shows P start edge a) (hy : y.Shows P start' edge' b) :
    (x ++ y).Shows P start (edge.bind fun e => if e.within start' then edge' else none) (a ++ b) where
  failure err h := by
    rcases failure_append_eq_some.1 h with h | ⟨-, h⟩
    · exact hx.failure err h
    · exact hy.failure err h
  params h := by
    obtain ⟨hfx, hfy⟩ := failure_append.1 h
    rw [pieces_append hfx, List.filterMap_append, hx.params hfx, hy.params hfy]
    rfl
  run e' he hf s hs := by
    obtain ⟨hfx, hfy⟩ := failure_append.1 hf
    obtain ⟨e, rfl, hjoint⟩ := Option.bind_eq_some_iff.1 he
    split at hjoint
    · next hwithin =>
      obtain ⟨found, hfound, hfollows, hending, hgarbled⟩ := hx.run e rfl hfx s hs
      obtain ⟨found', hfound', hfollows', hending', hgarbled'⟩ :=
        hy.run e' hjoint hfy (s.run x.pieces) (Ending.within_trans hending hwithin)
      rw [pieces_append hfx, Sketch.run_append]
      refine ⟨found ++ found', by rw [hfound', hfound, List.append_assoc],
        List.rel_append hfollows hfollows', hending', fun hg => ?_⟩
      rw [Outline.garbled_append, Bool.or_eq_true, ← or_assoc]
      exact (hgarbled' hg).imp_left hgarbled
    · cases hjoint

theorem silent {edge' : Option Ending} (hx : x.Shows P start edge a) (hy : y.Shows P start' edge' {}) :
    (x ++ y).Shows P start (edge.bind fun e => if e.within start' then edge' else none) a := by
  have h := hx.part hy
  rwa [Outline.append_empty] at h

/-- A piece that is neither a name nor a placeholder, where nothing runs together. -/
theorem ofPiece {p : Piece} (hparam : p.param? = none) (hname : ∀ s, p ≠ .name s)
    (hp : ∀ c : Ending, c.within start = true →
      ∃ c' : Ending, c.piece p = some c' ∧ c'.within e = true) :
    (piece p).Shows P start (some e) {} where
  failure := nofun
  params _ := by
    show [p].filterMap Piece.param? = []
    rw [List.filterMap_cons, hparam]
    rfl
  run e' he _ s hs := by
    cases he
    obtain ⟨c', hc', hwithin⟩ := hp s.ending hs
    have hintro : s.introduced p = [] := by
      cases p with
      | name n => exact absurd rfl (hname n)
      | _ => rfl
    refine ⟨[], ?_, .nil, ?_, fun hg => .inl ?_⟩
    · show s.aliases ++ s.introduced p = _
      rw [hintro]
    · show ((s.ending.piece p).getD .loose).within e = true
      rw [hc']
      exact hwithin
    · have hg : (s.garbled || (s.ending.piece p).isNone) = true := hg
      rw [hc'] at hg
      simpa using hg

/-- A word, as far as its ending can be told from what stands before it. -/
theorem ofWord (s : String) : (Emission.word s).Shows P start (start.word s) {} := by
  cases he : start.word s with
  | none => exact ⟨nofun, fun _ => rfl, nofun⟩
  | some e =>
    refine ofPiece rfl (by simp) fun c hc => ?_
    obtain ⟨c', hc', hwithin⟩ := Ending.word_within hc he
    exact ⟨c', by rw [Ending.piece, hc', Option.some_or], hwithin⟩

theorem word (hx : x.Shows P start edge a) (s : String) :
    (x ++ Emission.word s).Shows P start (edge.bind fun e => e.word s) a := by
  have hword : ∀ e : Ending, (Emission.word s).Shows P e (e.word s) {} := fun _ => ofWord s
  cases edge with
  | none => exact hx.silent (hword .loose)
  | some e =>
    have h := hx.silent (hword e)
    rwa [Option.bind_some, if_pos (Ending.within_refl e)] at h

theorem nothing : Emission.nothing.Shows P start (some start) {} where
  failure := nofun
  params _ := rfl
  run e he _ s hs := by
    cases he
    exact ⟨[], (List.append_nil _).symm, .nil, hs, .inl⟩

theorem fail {err : Error} (h : P err) : (Emission.fail err).Shows P start edge a :=
  ⟨fun _ he => Option.some.inj he ▸ h, nofun, nofun⟩

theorem after {α : Type} {r : Result α} {f : α → Emission} (hr : ∀ err, r = .error err → P err)
    (h : ∀ v, r = .ok v → (f v).Shows P start edge a) : (Emission.after r f).Shows P start edge a := by
  cases r with
  | error err => exact fail (hr err rfl)
  | ok v => exact h v rfl

/-- A name that does not stand behind the head of a row source. -/
theorem name (s : String) : (Emission.name s).Shows P .clear (some .named) {} where
  failure := nofun
  params _ := rfl
  run e he _ c hc := by
    cases he
    have hclear : c.ending = .clear := by
      cases hce : c.ending <;> rw [hce] at hc <;> first | rfl | cases hc
    refine ⟨[], ?_, .nil, rfl, fun hg => .inl ?_⟩
    · show c.aliases ++ c.introduced (.name s) = _
      simp [Sketch.introduced, hclear]
    · have hg : (c.garbled || false) = true := hg
      simpa using hg

/-- The name behind the head of a row source. -/
theorem introduced (hx : x.Shows P start (some .headed) a) (s : String) :
    (x ++ Emission.name s).Shows P start (some .named) (a ++ { aliases := [(x.pieces, s)] }) where
  failure err h := by
    rcases failure_append_eq_some.1 h with h | ⟨-, h⟩
    · exact hx.failure err h
    · cases h
  params h := by
    obtain ⟨hf, -⟩ := failure_append.1 h
    rw [pieces_append hf, List.filterMap_append, hx.params hf]
    rfl
  run e he hf c hc := by
    cases he
    obtain ⟨hfx, -⟩ := failure_append.1 hf
    obtain ⟨found, hfound, hfollows, hending, hgarbled⟩ := hx.run .headed rfl hfx c hc
    have hheaded : (c.run x.pieces).ending = .headed := by
      cases hce : (c.run x.pieces).ending <;> rw [hce] at hending <;> first | rfl | cases hending
    have hintro : (c.run x.pieces).introduced (.name s) = [(c.before ++ x.pieces, s)] := by
      simp [Sketch.introduced, hheaded, Sketch.before_run]
    rw [pieces_append hfx, Sketch.run_append]
    refine ⟨found ++ [(c.before ++ x.pieces, s)], ?_,
      List.rel_append hfollows (.cons ⟨rfl, List.suffix_append ..⟩ .nil), rfl, fun hg => ?_⟩
    · show (c.run x.pieces).aliases ++ (c.run x.pieces).introduced (.name s) = _
      rw [hintro, hfound, List.append_assoc]
    · have hg : ((c.run x.pieces).garbled || false) = true := hg
      rw [Bool.or_false] at hg
      simpa using hgarbled hg

theorem line : Emission.line.Shows P .loose (some .clear) {} :=
  ofPiece rfl (by simp) fun _ _ => ⟨.clear, rfl, rfl⟩

theorem indent : (piece .indent).Shows P .loose (some .loose) {} :=
  ofPiece rfl (by simp) fun c hc => ⟨c.settled, rfl, Ending.settled_within hc⟩

theorem outdent : (piece .outdent).Shows P .loose (some .loose) {} :=
  ofPiece rfl (by simp) fun c hc => ⟨c.settled, rfl, Ending.settled_within hc⟩

theorem placeholder (p : Param) :
    (piece (.placeholder p)).Shows P .clear (some .loose) { params := [p] } where
  failure := nofun
  params _ := rfl
  run e he _ c hc := by
    cases he
    have hopen : c.ending.isOpen = true := Ending.isOpen_of_within hc rfl
    refine ⟨[], ?_, .nil, by cases (c.step (.placeholder p)).ending <;> rfl, fun hg => .inl ?_⟩
    · show c.aliases ++ [] = _
      rfl
    · have hg : (c.garbled || (c.ending.piece (.placeholder p)).isNone) = true := hg
      simpa [Ending.piece, hopen] using hg

theorem quoted (unicode : Bool) (s : String) :
    (piece (.literal (.string unicode s))).Shows P .clear (some .loose) {} :=
  ofPiece rfl (by simp) fun c hc =>
    ⟨.loose, by rw [Ending.piece, if_pos (Ending.isOpen_of_within hc rfl)], rfl⟩

/-! ### Lists -/

/-- Several parts, each of which may stand behind a clear end. -/
def Each (P : Error → Prop) : List Emission → List Outline → Prop :=
  List.Forall₂ fun x a => x.Shows P .clear (some .loose) a

theorem each {α : Type} {items : List α} {f : α → Emission} {g : α → Outline}
    (h : ∀ i ∈ items, (f i).Shows P .clear (some .loose) (g i)) :
    Each P (items.map f) (items.map g) := by
  rw [Each, List.forall₂_map_left_iff, List.forall₂_map_right_iff, List.forall₂_same]
  exact h

theorem separated {separator : String} (hsep : Ending.loose.word separator = some .clear)
    {parts : List Emission} {outlines : List Outline} (h : Each P parts outlines) :
    (Emission.separated separator parts).Shows P .clear (some .loose) (Outline.join outlines) := by
  induction h with
  | nil => exact nothing.loosen rfl
  | @cons x a parts outlines hx hrest ih =>
    cases hrest with
    | nil =>
      rw [Outline.join_singleton]
      exact hx
    | @cons y b parts outlines hy hrest =>
      refine ((hx.word separator).part ih).at_edge ?_
      rw [Option.bind_some, hsep]
      rfl

theorem listed {α : Type} {items : List α} {f : α → Emission} {g : α → Outline}
    (h : ∀ i ∈ items, (f i).Shows P .clear (some .loose) (g i)) :
    (Emission.listed (items.map f)).Shows P .clear (some .loose) (Outline.join (items.map g)) :=
  separated (by decide) (each h)

end Shows

end Emission

end Tsql
