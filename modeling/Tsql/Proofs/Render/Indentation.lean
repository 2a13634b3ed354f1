import Tsql.Proofs.Render.Derivation
import Tsql.Proofs.Render.Linewise
import Tsql.Proofs.Render.RowTarget

/-!
# Renderings on other levels

A margin is written with the first text of its line, and leaving the outermost level has no effect, so a
rendering could depend on where it is written in more ways than by its margins. It does not: each line that it
begins has a text, and it leaves no level but those it has entered (`Emission.Settles`). Hence on a higher
level each of its lines but the first is moved to the right, and nothing else is changed
(`Target.rendered_moves`). `Piece.lines` cuts a text where the lines of the rendering end; line ends in strings
and names are not among these.
-/

namespace Tsql

open Text Emission

/-! ### Places -/

/-- Where pieces have come to: how many levels in, and whether their last line is still without text. -/
structure Place where
  depth : Nat
  fresh : Bool

/-- Pieces lead from one place to another. No line ends without text, and no level is left that was not
entered. -/
inductive Place.Run (params : List Param) : Place → List Piece → Place → Prop where
  | nil (p : Place) : Run params p [] p
  | text {p e : Place} {piece : Piece} {rest : List Piece} (ht : piece.isText = true)
      (hs : piece.text params ≠ "") (h : Run params { p with fresh := false } rest e) :
    Run params p (piece :: rest) e
  | blank {p e : Place} {piece : Piece} {rest : List Piece} (ht : piece.isText = true)
      (hs : piece.text params = "") (h : Run params p rest e) : Run params p (piece :: rest) e
  | line {depth : Nat} {e : Place} {rest : List Piece} (h : Run params ⟨depth, true⟩ rest e) :
    Run params ⟨depth, false⟩ (.line :: rest) e
  | indent {p e : Place} {rest : List Piece} (h : Run params { p with depth := p.depth + 1 } rest e) :
    Run params p (.indent :: rest) e
  | outdent {depth : Nat} {fresh : Bool} {e : Place} {rest : List Piece}
      (h : Run params ⟨depth, fresh⟩ rest e) : Run params ⟨depth + 1, fresh⟩ (.outdent :: rest) e

namespace Place.Run

variable {params : List Param} {p q e : Place} {a b : List Piece}

theorem append (h : Run params p a q) (h' : Run params q b e) : Run params p (a ++ b) e := by
  induction h with
  | nil => exact h'
  | text ht hs _ ih => exact .text ht hs (ih h')
  | blank ht hs _ ih => exact .blank ht hs (ih h')
  | line _ ih => exact .line (ih h')
  | indent _ ih => exact .indent (ih h')
  | outdent _ ih => exact .outdent (ih h')

/-- Inside a line a piece of text changes nothing. -/
theorem inLine {piece : Piece} (ht : piece.isText = true) (params : List Param) (depth : Nat) :
    Run params ⟨depth, false⟩ [piece] ⟨depth, false⟩ := by
  by_cases hs : piece.text params = ""
  · exact .blank ht hs (.nil _)
  · exact .text ht hs (.nil _)

/-- A word with text makes no difference between a line that was begun and a fresh one. -/
theorem freshen {w : String} (hw : w ≠ "") {depth : Nat}
    (h : Run params ⟨depth, false⟩ (.word w :: a) e) : Run params ⟨depth, true⟩ (.word w :: a) e := by
  cases h with
  | text ht hs h => exact .text ht hs h
  | blank ht hs h => exact absurd hs hw

end Place.Run

/-- Inside a line of any depth, a rendering without errors comes back to that depth, and its last line has
text. -/
def Emission.Settles (x : Emission) : Prop :=
  x.failure = none → ∀ params depth, Place.Run params ⟨depth, false⟩ x.pieces ⟨depth, false⟩

namespace Emission.Settles

variable {x y : Emission}

theorem nothing : Emission.nothing.Settles := fun _ _ _ => .nil _

theorem text {p : Piece} (hp : p.isText = true) : (piece p).Settles := fun _ => .inLine hp

theorem word (s : String) : (Emission.word s).Settles := text rfl

theorem append (hx : x.Settles) (hy : y.Settles) : (x ++ y).Settles := by
  intro hf params depth
  obtain ⟨hfx, hfy⟩ := failure_append.1 hf
  rw [pieces_append hfx]
  exact (hx hfx params depth).append (hy hfy params depth)

/-- The word that a line begins with gives it text. -/
theorem onLine (hx : x.Settles)
    (hopens : x.failure = none → ∃ w, x.pieces.head? = some (.word w) ∧ w ≠ "") :
    (line ++ x).Settles := by
  intro hf params depth
  obtain ⟨-, hfx⟩ := failure_append.1 hf
  obtain ⟨w, hhead, hw⟩ := hopens hfx
  obtain ⟨rest, hrest⟩ := List.head?_eq_some_iff.1 hhead
  have hpieces : (line ++ x).pieces = .line :: x.pieces := rfl
  have hsettled := hx hfx params depth
  rw [hrest] at hsettled
  rw [hpieces, hrest]
  exact .line (hsettled.freshen hw)

theorem deeper (hx : x.Settles) : (piece .indent ++ x ++ piece .outdent).Settles := by
  intro hf params depth
  obtain ⟨hfront, -⟩ := failure_append.1 hf
  obtain ⟨-, hfx⟩ := failure_append.1 hfront
  rw [pieces_append hfront, pieces_append rfl, List.append_assoc]
  exact .indent ((hx hfx params (depth + 1)).append (.outdent (.nil _)))

theorem limitClause (s : Select) : (limitClause s).Settles := by
  unfold Tsql.limitClause
  split
  · have hlimit := ((word "OFFSET ").onLine fun _ => ⟨_, rfl, by decide⟩).append
      ((word (natText (s.offset.getD 0))).append (word " ROWS"))
    refine hlimit.append ?_
    cases s.fetch with
    | none => exact nothing
    | some n => exact ((word _).append (word _)).append (word _)
  · exact nothing

/-- What is rendered settles, whatever limits are in it. -/
theorem linewise (scope : Scope) : Linewise scope fun _ x => x.Settles where
  nothing := nothing
  fail _ _ := nofun
  text := text
  append := append
  onLine hx hopens := hx.onLine fun hf => (hopens hf).imp fun _ h => ⟨h.1, h.2.1⟩
  deeper := deeper
  orderAndLimit s horder := by
    by_cases hlimited : s.isLimited = true
    · rw [scope.orderAndLimit_of_isLimited hlimited]
      exact horder.append (limitClause s)
    · rw [scope.orderAndLimit_of_not_isLimited hlimited]
      split
      · exact nothing
      · exact horder

end Emission.Settles

/-! ### Lines -/

/-- The lines that pieces write, the first of them behind the text of the writer. A line ends where a piece
ends it. -/
def Piece.lines (params : List Param) (w : Writer) : List Piece → List String
  | [] => [w.text]
  | .line :: rest => w.text :: lines params { w.newLine with text := "" } rest
  | piece :: rest => lines params (piece.write params w) rest

theorem Writer.text_write_ne_empty (w : Writer) {s : String} (hs : s ≠ "") : (w.write s).text ≠ "" := by
  rw [write, if_neg hs]
  split_ifs <;> simp [String.append_eq_empty_iff, hs]

namespace Piece

variable {params : List Param} {w : Writer} {p : Piece} {pieces : List Piece} {place e : Place}

theorem write_eq_write_text (h : p.isText = true) (params : List Param) (w : Writer) :
    p.write params w = w.write (p.text params) := by
  cases p with
  | line | indent | outdent => cases h
  | _ => rfl

theorem lines_cons (h : p ≠ .line) (params : List Param) (w : Writer) (rest : List Piece) :
    lines params w (p :: rest) = lines params (p.write params w) rest := by
  rw [lines]
  exact h

theorem lines_of_isText (h : p.isText = true) (params : List Param) (w : Writer) (rest : List Piece) :
    lines params w (p :: rest) = lines params (w.write (p.text params)) rest := by
  rw [lines_cons (by rintro rfl; cases h), write_eq_write_text h]

theorem lines_ne_nil (params : List Param) (w : Writer) (pieces : List Piece) :
    lines params w pieces ≠ [] := by
  induction pieces generalizing w with
  | nil => exact List.cons_ne_nil _ _
  | cons p rest ih =>
    by_cases hp : p = .line
    · subst hp
      exact List.cons_ne_nil _ _
    · rw [lines_cons hp]
      exact ih _

theorem length_lines (params : List Param) (w : Writer) (pieces : List Piece) :
    (lines params w pieces).length = pieces.count .line + 1 := by
  induction pieces generalizing w with
  | nil => rfl
  | cons p rest ih =>
    by_cases hp : p = .line
    · rw [hp, lines, List.length_cons, ih, List.count_cons_self]
    · rw [lines_cons hp, ih, List.count_cons_of_ne hp]

/-- What is written stands behind the text before it. -/
theorem text_behind (params : List Param) (w : Writer) (pieces : List Piece) :
    (writePieces params w pieces).text = w.text ++ (writePieces params { w with text := "" } pieces).text := by
  obtain ⟨a, ha⟩ := exists_writePieces_at params w pieces
  have hbehind := congrArg Writer.text (ha w.text)
  have halone := congrArg Writer.text (ha "")
  rw [halone, String.empty_append]
  exact hbehind

theorem text_eq_lines (params : List Param) (w : Writer) (pieces : List Piece) :
    (writePieces params w pieces).text = "\n".intercalate (lines params w pieces) := by
  induction pieces generalizing w with
  | nil => simp [writePieces, lines]
  | cons p rest ih =>
    by_cases hp : p = .line
    · rw [hp, lines, String.intercalate_cons_of_ne_nil (lines_ne_nil _ _ _), ← ih]
      exact text_behind params w.newLine rest
    · rw [lines_cons hp]
      exact ih _

theorem level_writePieces (hrun : place.Run params pieces e) (hw : place.depth ≤ w.level) :
    (writePieces params w pieces).level + place.depth = w.level + e.depth := by
  induction hrun generalizing w with
  | nil => rfl
  | @text p e piece rest ht hs _ ih | @blank p e piece rest ht hs _ ih =>
    have hlevel := w.level_write (piece.text params)
    have hrest := ih (w := w.write (piece.text params)) (hlevel ▸ hw)
    rwa [hlevel, ← write_eq_write_text ht] at hrest
  | line _ ih => exact ih hw
  | @indent p e rest _ ih =>
    have hrest : (writePieces params w.indent rest).level + (p.depth + 1) = w.level + 1 + e.depth :=
      ih (Nat.succ_le_succ hw)
    show (writePieces params w.indent rest).level + _ = _
    omega
  | @outdent depth fresh e rest _ ih =>
    have hrest : (writePieces params w.outdent rest).level + depth = w.level - 1 + e.depth :=
      ih (Nat.le_sub_one_of_lt hw)
    show (writePieces params w.outdent rest).level + (depth + 1) = _
    dsimp only at hw
    omega

/-- Behind some text, or on a fresh line, pieces leave no line without text. -/
theorem lines_have_text (hrun : place.Run params pieces e) (he : e.fresh = false)
    (hw : w.text = "" → place.fresh = true) : ∀ s ∈ lines params w pieces, s ≠ "" := by
  induction hrun generalizing w with
  | nil =>
    refine List.forall_mem_singleton.2 fun hempty => ?_
    rw [hw hempty] at he
    cases he
  | text ht hs _ ih =>
    rw [lines_of_isText ht]
    exact ih he fun hempty => absurd hempty (w.text_write_ne_empty hs)
  | blank ht hs _ ih =>
    rw [lines_of_isText ht, hs]
    exact ih he hw
  | line _ ih =>
    refine List.forall_mem_cons.2 ⟨fun hempty => ?_, ih he fun _ => rfl⟩
    cases hw hempty
  | indent _ ih => exact ih he hw
  | outdent _ ih => exact ih he hw

end Piece

/-! ### Moved lines -/

/-- A line with its first text moved some levels to the right, if that begins the line. -/
def moveFirst (n : Nat) (begins : Bool) (s : String) : String :=
  if begins = true ∧ s ≠ "" then Writer.margin n ++ s else s

/-- Lines moved some levels to the right. The first one may have been begun before. -/
def moveLines (n : Nat) (begins : Bool) : List String → List String
  | [] => []
  | s :: rest => moveFirst n begins s :: rest.map fun s => Writer.margin n ++ s

theorem moveLines_of_text {n : Nat} {lines : List String} (h : ∀ s ∈ lines, s ≠ "") :
    moveLines n true lines = lines.map fun s => Writer.margin n ++ s := by
  cases lines with
  | nil => rfl
  | cons s rest => simp [moveLines, moveFirst, h s]

theorem Writer.margin_add (m n : Nat) : margin (m + n) = margin m ++ margin n := by
  rw [margin, Nat.mul_add, List.replicate_add, String.ofList_append]
  rfl

/-- Two writers in one line, the second some levels further in. `begins` tells whether they have begun the
line. -/
structure Writer.Beside (n : Nat) (begins : Bool) (u v : Writer) : Prop where
  level_eq : v.level = u.level + n
  atLineStart_eq : v.atLineStart = u.atLineStart
  text_eq : v.text = moveFirst n begins u.text
  empty_iff : u.atLineStart = true ↔ begins = true ∧ u.text = ""

namespace Writer.Beside

variable {n : Nat} {begins : Bool} {u v : Writer}

theorem write (h : Beside n begins u v) (s : String) : Beside n begins (u.write s) (v.write s) := by
  by_cases hs : s = ""
  · simpa [Writer.write, hs] using h
  have hne (t : String) : t ++ s ≠ "" := by simp [String.append_eq_empty_iff, hs]
  cases hline : u.atLineStart with
  | true =>
    -- The margin is written now, to either of two empty lines.
    obtain ⟨rfl, hempty⟩ := h.empty_iff.1 hline
    have hv : v.text = "" := by simp [h.text_eq, hempty, moveFirst]
    have hu' : u.write s = { u with text := margin u.level ++ s, atLineStart := false } := by
      simp [Writer.write, hs, hline, hempty]
    have hv' : v.write s = { v with text := margin n ++ (margin u.level ++ s), atLineStart := false } := by
      simp [Writer.write, hs, h.atLineStart_eq, hline, hv, h.level_eq, Nat.add_comm u.level, margin_add,
        String.append_assoc]
    rw [hu', hv']
    exact ⟨h.level_eq, rfl, by simp [moveFirst, hne], by simp [hne]⟩
  | false =>
    have hbegun : begins = true → u.text ≠ "" := fun hb hempty => by
      simp [h.empty_iff.2 ⟨hb, hempty⟩] at hline
    have hu' : u.write s = { u with text := u.text ++ s } := by simp [Writer.write, hs, hline]
    have hv' : v.write s = { v with text := v.text ++ s } := by
      simp [Writer.write, hs, h.atLineStart_eq, hline]
    rw [hu', hv']
    refine ⟨h.level_eq, h.atLineStart_eq, ?_, by simp [hline, hne]⟩
    rw [h.text_eq]
    cases begins with
    | true => simp [moveFirst, hne, hbegun rfl, String.append_assoc]
    | false => simp [moveFirst]

theorem newLine (h : Beside n begins u v) :
    Beside n true { u.newLine with text := "" } { v.newLine with text := "" } :=
  ⟨h.level_eq, rfl, by simp [moveFirst], by simp [Writer.newLine]⟩

theorem indent (h : Beside n begins u v) : Beside n begins u.indent v.indent :=
  ⟨by simp [Writer.indent, h.level_eq, Nat.add_right_comm], h.atLineStart_eq, h.text_eq, h.empty_iff⟩

theorem outdent (h : Beside n begins u v) (hu : 0 < u.level) : Beside n begins u.outdent v.outdent :=
  ⟨by simp only [Writer.outdent, h.level_eq]; omega, h.atLineStart_eq, h.text_eq, h.empty_iff⟩

/-- What is written further in are the same lines, moved. -/
theorem lines_eq {params : List Param} {place e : Place} {pieces : List Piece} (h : Beside n begins u v)
    (hrun : place.Run params pieces e) (he : e.fresh = false) (hdepth : place.depth ≤ u.level) :
    Piece.lines params v pieces = moveLines n begins (Piece.lines params u pieces) := by
  induction hrun generalizing u v begins with
  | nil => simp [Piece.lines, moveLines, h.text_eq]
  | text ht hs _ ih | blank ht hs _ ih =>
    rw [Piece.lines_of_isText ht, Piece.lines_of_isText ht]
    exact ih (h.write _) he (by rwa [Writer.level_write])
  | @line depth e rest hrest ih =>
    -- No line behind this one is empty, so all of them have a margin.
    have htext := Piece.lines_have_text (w := { u.newLine with text := "" }) hrest he fun _ => rfl
    rw [Piece.lines, Piece.lines, moveLines, h.text_eq, ih h.newLine he hdepth, moveLines_of_text htext]
  | indent _ ih => exact ih h.indent he (Nat.succ_le_succ hdepth)
  | outdent _ ih =>
    exact ih (h.outdent (Nat.lt_of_lt_of_le (Nat.succ_pos _) hdepth)) he (Nat.le_sub_one_of_lt hdepth)

end Writer.Beside

/-! ### Renderings -/

/-- The renderings of expressions, in any category and scope, of statements and of commands. -/
inductive Target.Renders (t : Target) : Emission → Prop where
  | node (scope : Scope) (x : Expr) : Renders t (x.node scope)
  | value (scope : Scope) (x : Expr) : Renders t (x.value scope)
  | predicate (scope : Scope) (x : Expr) : Renders t (x.predicate scope)
  | query (aliases : AliasMap) (outermost : Bool) (s : Statement) : Renders t (t.query aliases outermost s)
  | source (aliases : AliasMap) (s : Statement) : Renders t (t.source aliases s)
  | command (c : Command) : Renders t (t.command c)

theorem Target.Renders.settles {t : Target} {x : Emission} (hx : t.Renders x) : x.Settles := by
  cases hx with
  | node scope x => exact (Settles.linewise scope).node scope x
  | value scope x => exact (Settles.linewise scope).value scope x
  | predicate scope x => exact (Settles.linewise scope).predicate scope x
  | query aliases outermost s => exact (Settles.linewise _).query outermost s
  | source aliases s => exact (Settles.linewise _).source s
  | command c => exact (Settles.linewise _).command

/-- A rendering without errors ends a line where it has a piece for that. On a writer some levels further in
each of its lines but the first is moved by as many levels, and the first one is if it begins there; nothing
else is changed. The writer comes back to its level. -/
theorem Target.rendered_moves {t : Target} {x : Emission} (hx : t.Renders x) (hok : x.failure = none)
    (params : List Param) (w : Writer) (n : Nat) :
    (Piece.lines params { w with text := "" } x.pieces).length = x.pieces.count .line + 1 ∧
      (writePieces params w x.pieces).text =
        w.text ++ "\n".intercalate (Piece.lines params { w with text := "" } x.pieces) ∧
      (writePieces params { w with level := w.level + n } x.pieces).text =
        w.text ++ "\n".intercalate
          (moveLines n w.atLineStart (Piece.lines params { w with text := "" } x.pieces)) ∧
      (writePieces params w x.pieces).level = w.level := by
  have hrun := hx.settles hok params 0
  have hbeside : Writer.Beside n w.atLineStart { w with text := "" }
      { w with text := "", level := w.level + n } :=
    ⟨rfl, rfl, by simp [moveFirst], by simp⟩
  refine ⟨Piece.length_lines .., ?_, ?_, ?_⟩
  · rw [Piece.text_behind, Piece.text_eq_lines]
  · rw [Piece.text_behind, Piece.text_eq_lines, hbeside.lines_eq hrun rfl (Nat.zero_le _)]
  · simpa using Piece.level_writePieces hrun (Nat.zero_le w.level)

def labelledCustomers : Command :=
  .query (.select { output := Model.empty ⟨3⟩ "All" .derived } (some (.select
    { output := Model.empty ⟨2⟩ "Labelled" .derived
      columns :=
        [⟨.case none
          [(.binary .equal (customers.ref ⟨⟨1⟩, "Name", .string⟩) (.ofValue (.string "Ann")),
            .ofValue (.string "first\nlast"))]
          (some (.ofValue (.string "\n"))), ⟨⟨2⟩, "Label", .string⟩⟩] }
    (some (.table customers)))))

theorem Target.rendered_moves_labelled :
    let x := ({ version := .sql13 } : Target).command labelledCustomers
    x.failure = none ∧
      (writePieces [] {} x.pieces).text = "SELECT *\nFROM (\n    SELECT CASE\n        WHEN " ++
        "([Customer].[Name] = N'Ann') THEN N'first\nlast'\n        ELSE N'\n'\n    END AS [Label]\n" ++
        "    FROM [Customer] [Customer]\n) [Labelled];" ∧
      (writePieces [] { level := 1 } x.pieces).text = "SELECT *\n    FROM (\n        SELECT CASE\n" ++
        "            WHEN ([Customer].[Name] = N'Ann') THEN N'first\nlast'\n            ELSE N'\n'\n" ++
        "        END AS [Label]\n        FROM [Customer] [Customer]\n    ) [Labelled];" ∧
      (writePieces [] {} x.pieces).level = 0 := by
  have hok : (({ version := .sql13 } : Target).command labelledCustomers).failure = none := by
    decide +kernel
  obtain ⟨-, htext, hmoved, hlevel⟩ := rendered_moves (.command _) hok [] {} 1
  exact ⟨hok, htext.trans (by decide +kernel), hmoved.trans (by decide +kernel), hlevel⟩

end Tsql
