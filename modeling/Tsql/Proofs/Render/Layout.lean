import Tsql.Proofs.Render.Spelling
import Tsql.Proofs.Text.Lossless
import Tsql.Proofs.Text.Symbols

/-!
# The symbols of a rendering

A rendering has the same symbols wherever it stands: the margins of its lines stand between words.
`Emission.exists_text` is that they are the symbols of its lexemes.
-/

namespace Tsql

open Text

/-- A piece that is neither a line end nor a change of the level. -/
def Piece.isText : Piece → Bool
  | .line | .indent | .outdent => false
  | _ => true

theorem charsOf_textMarks (s : String) : charsOf (marks s) = s.toList := charsOf_marks s.toList

theorem Piece.write_of_isText {p : Piece} (h : p.isText = true) (params : List Param) (w : Writer) :
    p.write params w = w.write (String.ofList (charsOf (p.lexemes params))) := by
  cases p with
  | word s => simp [write, lexemes, charsOf_textMarks]
  | name s => simp [write, lexemes, charsOf_singleton, Lexeme.chars, Token.name, quoteIdentifier,
      Quote.first, Quote.last]
  | literal l =>
    cases l with
    | word s => simp [write, lexemes, Literal.sql, charsOf_textMarks]
    | string unicode s =>
      cases unicode <;>
        simp [write, lexemes, Literal.sql, quoteString, charsOf, Lexeme.chars, Token.string,
          Quote.first, Quote.last]
  | placeholder p => simp [write, lexemes, charsOf_textMarks]
  | line | indent | outdent => cases h

theorem ofList_charsOf_ne_empty {l : List Lexeme} (h : l ≠ []) : String.ofList (charsOf l) ≠ "" := by
  intro hempty
  exact h (charsOf_eq_nil (by simpa using congrArg String.toList hempty))

/-- A survey and a speller that may stand at the beginning of a line. -/
structure AtLine (w : Writer) (s : Survey) (r : Speller) : Prop where
  last : w.atLineStart = true → s.last = .other
  pending : w.atLineStart = true → r.pending = []

namespace AtLine

variable {w : Writer} {s t : Survey} {r : Speller} {params : List Param} {p : Piece}

/-- The lexemes that are written for some text, with the margin of its line. -/
theorem write (h : AtLine w s r) (l : List Lexeme) :
    ∃ l', (w.write (String.ofList (charsOf l))).text = w.text ++ String.ofList (charsOf l') ∧
      s.run l' = s.run l ∧ r.run l' = r.run l ∧ ∀ x ∈ l', x = .mark ' ' ∨ x ∈ l := by
  by_cases hempty : l = []
  · subst hempty
    exact ⟨[], by simp [charsOf, Writer.write], rfl, rfl, nofun⟩
  have htext := ofList_charsOf_ne_empty hempty
  cases hw : w.atLineStart with
  | false => exact ⟨l, by simp [Writer.write, htext, hw], rfl, rfl, fun _ hx => .inr hx⟩
  | true =>
    -- The margin is written first; neither the survey nor the speller is changed by its blanks.
    have hblanks := Survey.run_blanks (h.last hw) (Writer.indentWidth * w.level)
    rw [marks, String.toList_ofList, List.map_replicate] at hblanks
    refine ⟨List.replicate (Writer.indentWidth * w.level) (.mark ' ') ++ l, ?_, ?_, ?_, ?_⟩
    · have hchars : charsOf (List.replicate (Writer.indentWidth * w.level) (.mark ' ')) =
          List.replicate (Writer.indentWidth * w.level) ' ' := by
        rw [← List.map_replicate, charsOf_marks]
      simp [Writer.write, htext, hw, charsOf_append, hchars, Writer.margin, String.append_assoc]
    · rw [Survey.run_append, hblanks, Option.bind_some]
    · rw [Speller.run_append, Speller.run_blanks (h.pending hw)]
    · exact fun x hx => (List.mem_append.1 hx).imp_left List.eq_of_mem_replicate

/-- Once some text is written the line has begun. -/
theorem behindText (h : AtLine w s r) {l : List Lexeme} (ht : s.run l = some t) :
    AtLine (w.write (String.ofList (charsOf l))) t (r.run l) := by
  by_cases hempty : l = []
  · subst hempty
    cases ht
    simpa [charsOf, Writer.write, Speller.run] using h
  have htext := ofList_charsOf_ne_empty hempty
  have hbegun : (w.write (String.ofList (charsOf l))).atLineStart = false := by
    cases hw : w.atLineStart <;> simp [Writer.write, htext, hw]
  exact ⟨by simp [hbegun], by simp [hbegun]⟩

theorem writePiece (h : AtLine w s r) (ht : s.run (p.lexemes params) = some t) :
    (∃ l, (p.write params w).text = w.text ++ String.ofList (charsOf l) ∧ s.run l = some t ∧
      r.run l = r.run (p.lexemes params) ∧ ∀ x ∈ l, x = .mark ' ' ∨ x ∈ p.lexemes params) ∧
      AtLine (p.write params w) t (r.run (p.lexemes params)) := by
  cases htext : p.isText with
  | true =>
    rw [Piece.write_of_isText htext]
    obtain ⟨l, hl, hrun, hspell, hmem⟩ := h.write (p.lexemes params)
    exact ⟨⟨l, hl, hrun.trans ht, hspell, hmem⟩, h.behindText ht⟩
  | false =>
    cases p with
    | line =>
      cases ht
      exact ⟨⟨[.mark '\n'], rfl, rfl, rfl, fun _ hx => .inr hx⟩, ⟨fun _ => rfl, fun _ => rfl⟩⟩
    | indent =>
      cases ht
      exact ⟨⟨[], by simp [Piece.write, Writer.indent, charsOf], rfl, rfl, nofun⟩, ⟨h.last, h.pending⟩⟩
    | outdent =>
      cases ht
      exact ⟨⟨[], by simp [Piece.write, Writer.outdent, charsOf], rfl, rfl, nofun⟩, ⟨h.last, h.pending⟩⟩
    | word | name | literal | placeholder => cases htext

theorem writePieces {pieces : List Piece} (h : AtLine w s r)
    (ht : s.run (pieces.flatMap (Piece.lexemes params)) = some t) :
    ∃ l, (writePieces params w pieces).text = w.text ++ String.ofList (charsOf l) ∧
      s.run l = some t ∧ r.run l = r.run (pieces.flatMap (Piece.lexemes params)) ∧
      ∀ x ∈ l, x = .mark ' ' ∨ x ∈ pieces.flatMap (Piece.lexemes params) := by
  induction pieces generalizing w s r with
  | nil => exact ⟨[], by simp [Tsql.writePieces, charsOf], ht, rfl, nofun⟩
  | cons p rest ih =>
    rw [List.flatMap_cons, Survey.run_append] at ht
    obtain ⟨u, hu, ht⟩ := Option.bind_eq_some_iff.1 ht
    obtain ⟨⟨l, htext, hrun, hspell, hmem⟩, hline⟩ := h.writePiece hu
    obtain ⟨l', htext', hrun', hspell', hmem'⟩ := ih hline ht
    refine ⟨l ++ l', ?_, ?_, ?_, fun x hx => ?_⟩
    · show (Tsql.writePieces params (p.write params w) rest).text = _
      rw [htext', htext, charsOf_append, String.ofList_append, String.append_assoc]
    · rw [Survey.run_append, hrun]
      exact hrun'
    · rw [List.flatMap_cons, Speller.run_append, Speller.run_append, hspell, hspell']
    · rw [List.flatMap_cons, List.mem_append]
      rcases List.mem_append.1 hx with hx | hx
      · exact (hmem x hx).imp_right .inl
      · exact (hmem' x hx).imp_right .inr

end AtLine

/-- A rendering is scanned to its lexemes and the blanks of its margins. -/
theorem Emission.exists_scan_written {x : Emission} {params : List Param} {t : Survey}
    (h : Survey.run {} (x.lexemes params) = some t) :
    ∃ l, scan (writePieces params {} x.pieces).text.toList = some l ∧
      ∀ a ∈ l, a = .mark ' ' ∨ a ∈ x.lexemes params := by
  obtain ⟨l, htext, hrun, -, hmem⟩ :=
    AtLine.writePieces (w := {}) (s := {}) (r := {}) ⟨fun _ => rfl, fun _ => rfl⟩ h
  rw [String.empty_append] at htext
  exact ⟨l, by rw [htext, String.toList_ofList, scan_charsOf hrun], hmem⟩

theorem Emission.exists_text {x : Emission} {params : List Param} {t : Survey}
    (h : Survey.run {} (x.lexemes params) = some t) (hintro : t.introduces = false) (w : Writer) :
    ∃ text, (writePieces params w x.pieces).text = w.text ++ text ∧
      readSymbols? text = some (symbols (x.lexemes params)) := by
  obtain ⟨l, htext, hrun, hspell, -⟩ :=
    AtLine.writePieces (w := w) (s := {}) (r := {}) ⟨fun _ => rfl, fun _ => rfl⟩ h
  have hdash : ¬ Introduces '-' '-' l := fun hl => by
    simpa [hintro] using (Survey.introduces_of_run hrun).2 (.inr (.inr hl))
  have hstar := (Survey.not_introduces_of_run hrun).2
  refine ⟨_, htext, ?_⟩
  rw [readSymbols?, String.toList_ofList, scan_charsOf hrun]
  dsimp only
  rw [if_neg (not_or.2 ⟨hdash, hstar⟩), symbols, hspell]
  rfl

end Tsql
