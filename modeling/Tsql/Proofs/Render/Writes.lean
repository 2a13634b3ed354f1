import Tsql.Render.Command

/-!
# Renderings on one level

`Emission.Writes` is a rendering without errors and without changes of the level: its text is that of
its pieces, one after the other. It goes through sequences, so that the text of a command is put
together from the texts of its parts; `failure_append` takes a sequence without errors apart.
-/

namespace Tsql

open Text

namespace Piece

def isFlat : Piece → Bool
  | indent | outdent => false
  | _ => true

def param? : Piece → Option Param
  | placeholder p => some p
  | _ => none

def text (params : List Param) : Piece → String
  | word s => s
  | name s => quoteIdentifier s
  | literal l => l.sql
  | placeholder p => placeholderName (paramNumber params p)
  | line => "\n"
  | indent | outdent => ""

theorem write_flat (params : List Param) {w : Writer} (hw : w.level = 0) {p : Piece}
    (hp : p.isFlat = true) :
    (p.write params w).text = w.text ++ p.text params ∧ (p.write params w).level = 0 := by
  have hwrite : ∀ s, (w.write s).text = w.text ++ s ∧ (w.write s).level = 0 := by
    intro s
    have hm : Writer.margin 0 = "" := rfl
    unfold Writer.write
    split
    · next hs => simp [hs, hw]
    · split
      · simp [hm, hw]
      · simp [hw]
  cases p with
  | word s => exact hwrite s
  | name s => exact hwrite _
  | literal l => exact hwrite _
  | placeholder q => exact hwrite _
  | line => exact ⟨rfl, hw⟩
  | indent => cases hp
  | outdent => cases hp

theorem numbering_eq (known : List Param) (pieces : List Piece) :
    numbering known pieces = (pieces.filterMap param?).foldl internParam known := by
  induction pieces generalizing known with
  | nil => rfl
  | cons p r ih => cases p <;> exact ih _

end Piece

theorem writePieces_flat (params : List Param) {w : Writer} (hw : w.level = 0)
    {pieces : List Piece} (h : ∀ p ∈ pieces, p.isFlat = true) :
    (writePieces params w pieces).text = w.text ++ String.join (pieces.map (Piece.text params)) := by
  induction pieces generalizing w with
  | nil => simp [writePieces]
  | cons p r ih =>
    obtain ⟨ht, hl⟩ := Piece.write_flat params hw (h p (by simp))
    have := ih hl fun q hq => h q (by simp [hq])
    rw [writePieces, List.foldl_cons]
    rw [writePieces] at this
    rw [this, ht]
    simp [String.append_assoc]

theorem Piece.exists_write_at (params : List Param) (w : Writer) (p : Piece) :
    ∃ a, ∀ text, p.write params { w with text } = { p.write params w with text := text ++ a } := by
  have hwrite (s : String) :
      ∃ a, ∀ text, Writer.write { w with text } s = { w.write s with text := text ++ a } := by
    by_cases hs : s = ""
    · exact ⟨"", fun text => by simp [Writer.write, hs]⟩
    cases hline : w.atLineStart with
    | false => exact ⟨s, fun text => by simp [Writer.write, hs, hline]⟩
    | true =>
      exact ⟨Writer.margin w.level ++ s, fun text => by
        simp [Writer.write, hs, hline, String.append_assoc]⟩
  cases p with
  | word s => exact hwrite s
  | name s => exact hwrite _
  | literal l => exact hwrite _
  | placeholder q => exact hwrite _
  | line => exact ⟨"\n", fun _ => rfl⟩
  | indent => exact ⟨"", fun text => by simp [write, Writer.indent]⟩
  | outdent => exact ⟨"", fun text => by simp [write, Writer.outdent]⟩

/-- What is written does not depend on the text before it. -/
theorem exists_writePieces_at (params : List Param) (w : Writer) (pieces : List Piece) :
    ∃ a, ∀ text, writePieces params { w with text } pieces =
      { writePieces params w pieces with text := text ++ a } := by
  induction pieces generalizing w with
  | nil => exact ⟨"", fun text => by simp [writePieces]⟩
  | cons p rest ih =>
    obtain ⟨a, ha⟩ := p.exists_write_at params w
    obtain ⟨b, hb⟩ := ih (p.write params w)
    refine ⟨a ++ b, fun text => ?_⟩
    show writePieces params (p.write params { w with text }) rest = _
    rw [ha, hb, String.append_assoc]
    rfl

/-- What was written stays. -/
theorem exists_writePieces_text (params : List Param) (w : Writer) (pieces : List Piece) :
    ∃ s, (writePieces params w pieces).text = w.text ++ s := by
  obtain ⟨a, ha⟩ := exists_writePieces_at params w pieces
  exact ⟨a, congrArg Writer.text (ha w.text)⟩

namespace Emission

variable {a b x : Emission} {params u v : List Param} {s t : String}

/-- The rendering writes a text on one level, with some placeholders. -/
structure Writes (x : Emission) (params used : List Param) (s : String) : Prop where
  failure_eq : x.failure = none
  flat : ∀ p ∈ x.pieces, p.isFlat = true
  used_eq : x.pieces.filterMap Piece.param? = used
  text_eq : String.join (x.pieces.map (Piece.text params)) = s

theorem failure_append : (a ++ b).failure = none ↔ a.failure = none ∧ b.failure = none := by
  show (append a b).failure = none ↔ _
  unfold append
  cases ha : a.failure <;> simp [ha]

theorem pieces_append (h : a.failure = none) : (a ++ b).pieces = a.pieces ++ b.pieces := by
  show (append a b).pieces = _
  unfold append
  rw [h]

theorem pieces_prefix_append (a b : Emission) : a.pieces <+: (a ++ b).pieces := by
  show _ <+: (append a b).pieces
  unfold append
  split
  · exact List.prefix_rfl
  · exact List.prefix_append ..

theorem mem_pieces_append {p : Piece} (h : p ∈ (a ++ b).pieces) : p ∈ a.pieces ∨ p ∈ b.pieces := by
  cases ha : a.failure with
  | none => simpa [pieces_append ha] using h
  | some e =>
    have hab : a ++ b = a := by
      show append a b = a
      unfold append
      rw [ha]
    rw [hab] at h
    exact .inl h

theorem failure_after {α : Type} {r : Result α} {f : α → Emission}
    (h : (after r f).failure = none) : ∃ y, r = .ok y ∧ (f y).failure = none := by
  cases r with
  | error e => cases h
  | ok y => exact ⟨y, rfl, h⟩

theorem failure_of_sqlText {text : SqlText} (h : x.sqlText = .ok text) : x.failure = none := by
  unfold sqlText at h
  dsimp only at h
  split at h
  · cases h
  · assumption

theorem sqlText_of_failure (hf : x.failure = none) :
    x.sqlText = .ok ⟨(writePieces (Piece.numbering [] x.pieces) {} x.pieces).text,
      Piece.numbering [] x.pieces⟩ := by
  unfold sqlText written
  dsimp only
  rw [hf]

theorem sqlText_of_prefix {text : SqlText} (h : x.sqlText = .ok text) {first : List Piece}
    (hp : first <+: x.pieces) (hflat : ∀ p ∈ first, p.isFlat = true) :
    ∃ rest, text.sql = String.join (first.map (Piece.text text.params)) ++ rest := by
  obtain ⟨r, hr⟩ := hp
  obtain rfl := Except.ok.inj (h.symm.trans (sqlText_of_failure (failure_of_sqlText h)))
  obtain ⟨rest, hrest⟩ := exists_writePieces_text (Piece.numbering [] x.pieces)
    (writePieces (Piece.numbering [] x.pieces) {} first) r
  refine ⟨rest, ?_⟩
  show (writePieces (Piece.numbering [] x.pieces) {} x.pieces).text =
    String.join (first.map (Piece.text (Piece.numbering [] x.pieces))) ++ rest
  rw [writePieces_flat _ rfl hflat, String.empty_append] at hrest
  rw [← hrest, ← hr]
  simp only [writePieces, List.foldl_append]

namespace Writes

theorem append (ha : a.Writes params u s) (hb : b.Writes params v t) :
    (a ++ b).Writes params (u ++ v) (s ++ t) := by
  refine ⟨failure_append.2 ⟨ha.failure_eq, hb.failure_eq⟩, fun p hp => ?_, ?_, ?_⟩
  · rcases mem_pieces_append hp with hp | hp
    · exact ha.flat p hp
    · exact hb.flat p hp
  · rw [pieces_append ha.failure_eq, List.filterMap_append, ha.used_eq, hb.used_eq]
  · rw [pieces_append ha.failure_eq, List.map_append, String.join_append, ha.text_eq, hb.text_eq]

theorem of_eq (h : x.Writes params u s) (hu : u = v) (hs : s = t) : x.Writes params v t := by
  rwa [← hu, ← hs]

theorem nothing : Emission.nothing.Writes params [] "" := ⟨rfl, by simp [Emission.nothing], rfl, rfl⟩

theorem piece {p : Piece} (h : p.isFlat = true) :
    (Emission.piece p).Writes params p.param?.toList (p.text params) :=
  ⟨rfl, by simpa [Emission.piece] using h, by cases p <;> rfl, by simp [Emission.piece]⟩

theorem word (s : String) : (Emission.word s).Writes params [] s := piece rfl

theorem name (s : String) : (Emission.name s).Writes params [] (quoteIdentifier s) := piece rfl

theorem line : Emission.line.Writes params [] "\n" := piece rfl

theorem placeholder (p : Param) :
    (Emission.piece (.placeholder p)).Writes params [p]
      (placeholderName (paramNumber params p)) := piece rfl

/-- What the text of a rendering is once its parameters are numbered. -/
theorem sqlText (h : x.Writes params u s) (hp : u.foldl internParam [] = params) :
    x.sqlText = .ok ⟨s, params⟩ := by
  have hn : Piece.numbering [] x.pieces = params := by rw [Piece.numbering_eq, h.used_eq, hp]
  have ht := writePieces_flat params (w := {}) rfl h.flat
  rw [sqlText_of_failure h.failure_eq, hn, ht, h.text_eq, String.empty_append]

end Writes

def Plain (x : Emission) : Prop := ∀ p ∈ x.pieces, p.isFlat = true ∧ p.param? = none

namespace Plain

theorem append (ha : a.Plain) (hb : b.Plain) : (a ++ b).Plain := by
  intro p hp
  rcases mem_pieces_append hp with hp | hp
  · exact ha p hp
  · exact hb p hp

theorem nothing : Emission.nothing.Plain := by simp [Plain, Emission.nothing]

theorem word (s : String) : (Emission.word s).Plain := by
  simp [Plain, Emission.word, piece, Piece.isFlat, Piece.param?]

theorem name (s : String) : (Emission.name s).Plain := by
  simp [Plain, Emission.name, piece, Piece.isFlat, Piece.param?]

theorem fail (e : Error) : (Emission.fail e).Plain := by simp [Plain, Emission.fail]

theorem after {α : Type} {r : Result α} {f : α → Emission} (h : ∀ y, (f y).Plain) :
    (Emission.after r f).Plain := by
  cases r with
  | error e => exact fail e
  | ok y => exact h y

theorem listed {items : List Emission} (h : ∀ x ∈ items, x.Plain) : (Emission.listed items).Plain := by
  unfold Emission.listed
  induction items with
  | nil => exact nothing
  | cons x r ih =>
    cases r with
    | nil => exact h x (by simp)
    | cons y r => exact ((h x (by simp)).append (word _)).append (ih fun z hz => h z (by simp [hz]))

theorem writes (h : x.Plain) (hf : x.failure = none) (params : List Param) :
    ∃ s, x.Writes params [] s := by
  refine ⟨_, hf, fun p hp => (h p hp).1, ?_, rfl⟩
  rw [List.filterMap_eq_nil_iff]
  exact fun p hp => (h p hp).2

end Plain

end Emission

end Tsql
