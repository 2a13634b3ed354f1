import Tsql.Proofs.Render.Writes
import Tsql.Proofs.Text.Survey

/-!
# The lexemes of a rendering

Each piece of a rendering has lexemes of its own, whatever stands around it. `exists_scan` says that a
text is made of the lexemes of its pieces, up to the margins of its lines, as far as a survey of the
pieces' lexemes can tell: it succeeds on the text with the same account.
-/

namespace Tsql

open Text

def Text.marks (s : String) : List Lexeme := s.toList.map .mark

def Piece.lexemes (params : List Param) : Piece → List Lexeme
  | word s => marks s
  | name s => [.token (.name s)]
  | literal (.word s) => marks s
  | literal (.string unicode s) => (if unicode then [.mark 'N'] else []) ++ [.token (.string s)]
  | placeholder p => marks (placeholderName (paramNumber params p))
  | line => [.mark '\n']
  | indent | outdent => []

def Emission.lexemes (x : Emission) (params : List Param) : List Lexeme :=
  x.pieces.flatMap (Piece.lexemes params)

namespace Text.Survey

variable {s t : Survey}

theorem isOrdinary_of_run {chars : List Char} (h : s.run (chars.map .mark) = some t) :
    ∀ c ∈ chars, isOrdinary c = true := by
  induction chars generalizing s with
  | nil => simp
  | cons c rest ih =>
    obtain ⟨u, hu, h⟩ := run_cons h
    intro d hd
    rcases List.mem_cons.1 hd with rfl | hd
    · exact isOrdinary_of_mark hu
    · exact ih h d hd

/-- Blanks behind something harmless change nothing. -/
theorem run_blanks (hs : s.last = .other) (n : Nat) :
    s.run (marks (String.ofList (List.replicate n ' '))) = some s := by
  rw [marks, String.toList_ofList]
  induction n with
  | zero => rfl
  | succ n ih =>
    have hstep : s.step (.mark ' ') = some s := by
      simp only [step, mark]
      rw [← hs]
      rfl
    rw [List.replicate_succ, List.map_cons, run, hstep]
    exact ih

end Text.Survey

/-- What was written so far, as a scan and a survey of the pieces see it. -/
structure Scanned (w : Writer) (s : Survey) : Prop where
  exists_scanner : ∃ scanner found, w.text.toList.foldl Scanner.next {} = scanner ∧
    scanner.finished? = some found ∧ Survey.run {} found = some s ∧
    (scanner.afterString → s.last = .string)
  atLineStart : w.atLineStart = true → s.last = .other

namespace Scanned

variable {w : Writer} {s t : Survey} {params : List Param}

/-- Nothing was written. -/
theorem start : Scanned {} {} :=
  ⟨⟨{}, [], rfl, rfl, rfl, fun h => by obtain ⟨p, hp⟩ := h; cases hp⟩, by simp⟩

theorem of_outside {w' : Writer} {scanner : Scanner} {found : List Lexeme}
    (hscan : w'.text.toList.foldl Scanner.next {} = scanner)
    (hfound : scanner.finished? = some found) (hstate : scanner.state = .outside)
    (hrun : Survey.run {} found = some t) (hline : w'.atLineStart = true → t.last = .other) :
    Scanned w' t :=
  ⟨⟨scanner, found, hscan, hfound, hrun, fun h => by
    obtain ⟨p, hp⟩ := h
    rw [hstate] at hp
    cases hp⟩, hline⟩

theorem margin (h : Scanned w s) :
    ∃ m, Scanned { w with text := w.text ++ m, atLineStart := false } s ∧
      ∀ text ≠ "", w.write text =
        { w with text := w.text ++ m ++ text, atLineStart := false } := by
  by_cases hw : w.atLineStart = true
  · refine ⟨Writer.margin w.level, ?_, fun text ht => by simp [Writer.write, ht, hw]⟩
    obtain ⟨scanner, found, hscan, hfound, hrun, hstring⟩ := h.exists_scanner
    have hs := h.atLineStart hw
    have hblank : ∀ c ∈ List.replicate (Writer.indentWidth * w.level) ' ', isOrdinary c = true := by
      intro c hc
      rw [List.eq_of_mem_replicate hc]
      rfl
    obtain ⟨hf, hstate⟩ := Scanner.foldl_isOrdinary hfound hblank
    by_cases hzero : List.replicate (Writer.indentWidth * w.level) ' ' = []
    · have hempty : Writer.margin w.level = "" := by rw [Writer.margin, hzero]
      rw [hempty]
      exact ⟨⟨scanner, found, by simpa using hscan, hfound, hrun, hstring⟩, by simp⟩
    · refine of_outside ?_ hf (hstate hzero) ?_ (by simp)
      · rw [String.toList_append, List.foldl_append, hscan, Writer.margin, String.toList_ofList]
      · have hblanks := Survey.run_blanks hs (Writer.indentWidth * w.level)
        rw [marks, String.toList_ofList] at hblanks
        rw [Survey.run_append, hrun]
        exact hblanks
  · have hw : w.atLineStart = false := by simpa using hw
    refine ⟨"", ⟨?_, by simp⟩, fun text ht => by simp [Writer.write, ht, hw]⟩
    simpa using h.exists_scanner

theorem write_marks {text : String} (h : Scanned w s) (ht : s.run (marks text) = some t) :
    Scanned (w.write text) t := by
  by_cases hempty : text = ""
  · subst hempty
    cases ht
    simpa [Writer.write] using h
  obtain ⟨m, hm, hwrite⟩ := h.margin
  obtain ⟨scanner, found, hscan, hfound, hrun, -⟩ := hm.exists_scanner
  obtain ⟨hf, hstate⟩ := Scanner.foldl_isOrdinary hfound (Survey.isOrdinary_of_run ht)
  rw [hwrite text hempty]
  refine of_outside (by rw [String.toList_append, List.foldl_append, hscan]) hf
    (hstate (by simpa using hempty)) ?_ (by simp)
  rw [Survey.run_append, hrun]
  exact ht

theorem write_quoted {text : String} (h : Scanned w s) (q : Quote) (payload : String)
    (hq : text.toList = q.first :: doubled q.last payload.toList ++ [q.last])
    (ht : s.step (.token ⟨q, payload⟩) = some t) :
    Scanned (w.write text) t := by
  have hempty : text ≠ "" := by
    rintro rfl
    cases hq
  obtain ⟨m, hm, hwrite⟩ := h.margin
  obtain ⟨scanner, found, hscan, hfound, hrun, hstring⟩ := hm.exists_scanner
  have hafter : q = .apostrophe → ¬ scanner.afterString := by
    rintro rfl hs
    simp [Survey.step, hstring hs] at ht
  have hf := Scanner.foldl_quoted hfound q payload.toList hafter
  rw [hwrite text hempty]
  refine ⟨⟨_, found ++ [.token ⟨q, payload⟩], by
    rw [String.toList_append, List.foldl_append, hscan, hq, hf], ?_, ?_, ?_⟩, by simp⟩
  · simp [Scanner.finished?, Scanner.closed]
  · rw [Survey.run_append, hrun]
    show (s.step (.token ⟨q, payload⟩)).bind _ = some t
    rw [ht]
    rfl
  · rintro ⟨p, hp⟩
    cases hp
    simp only [Survey.step] at ht
    split at ht
    · cases ht
    · cases ht
      rfl

theorem write_national {text : String} (h : Scanned w s)
    (ht : s.run (.mark 'N' :: [.token (.string text)]) = some t) :
    Scanned (w.write (quoteString text true)) t := by
  obtain ⟨u, hu, ht⟩ := Survey.run_cons ht
  have hquoted : quoteString text true = "N" ++ quoteString text false := by
    apply String.toList_injective
    simp [quoteString]
  have hw : w.write (quoteString text true) = (w.write "N").write (quoteString text false) := by
    have hne : quoteString text false ≠ "" := by simp [quoteString]
    rw [hquoted]
    unfold Writer.write
    by_cases hl : w.atLineStart = true <;> simp [hl, hne, String.append_assoc]
  rw [hw]
  have hmark : s.run (marks "N") = some u := by
    show (s.step (.mark 'N')).bind _ = some u
    rw [hu]
    rfl
  refine (h.write_marks hmark).write_quoted .apostrophe text ?_ ?_
  · simp [quoteString, Quote.first, Quote.last]
  · simpa [Survey.run, Token.string] using ht

theorem newLine (h : Scanned w s) (ht : s.run [.mark '\n'] = some t) :
    Scanned w.newLine t := by
  obtain ⟨scanner, found, hscan, hfound, hrun, -⟩ := h.exists_scanner
  have hordinary : ∀ c ∈ ['\n'], isOrdinary c = true := fun c hc => List.mem_singleton.1 hc ▸ rfl
  obtain ⟨hf, hstate⟩ := Scanner.foldl_isOrdinary hfound hordinary
  refine of_outside (by rw [Writer.newLine, String.toList_append, List.foldl_append, hscan]; rfl) hf
    (hstate (by simp)) ?_ ?_
  · rw [Survey.run_append, hrun]
    exact ht
  · intro _
    cases ht
    rfl

theorem write (h : Scanned w s) {p : Piece} (ht : s.run (p.lexemes params) = some t) :
    Scanned (p.write params w) t := by
  cases p with
  | word text => exact h.write_marks ht
  | name text =>
    refine h.write_quoted .bracket text (by simp [quoteIdentifier, Quote.first,
      Quote.last]) ?_
    simpa [Piece.lexemes, Survey.run, Token.name] using ht
  | literal l =>
    cases l with
    | word text => exact h.write_marks ht
    | string unicode text =>
      cases unicode with
      | true => exact h.write_national ht
      | false =>
        refine h.write_quoted .apostrophe text
          (by simp [Literal.sql, quoteString, Quote.first, Quote.last]) ?_
        simpa [Piece.lexemes, Survey.run, Token.string] using ht
  | placeholder p => exact h.write_marks ht
  | line => exact h.newLine ht
  | indent =>
    cases ht
    exact ⟨h.exists_scanner, h.atLineStart⟩
  | outdent =>
    cases ht
    exact ⟨h.exists_scanner, h.atLineStart⟩

theorem writePieces (h : Scanned w s) {pieces : List Piece}
    (ht : s.run (pieces.flatMap (Piece.lexemes params)) = some t) :
    Scanned (writePieces params w pieces) t := by
  induction pieces generalizing w s with
  | nil =>
    cases ht
    exact h
  | cons p rest ih =>
    rw [List.flatMap_cons, Survey.run_append] at ht
    obtain ⟨u, hu, ht⟩ := Option.bind_eq_some_iff.1 ht
    exact ih (h.write hu) ht

end Scanned

/-- A text whose pieces pass a survey is scanned to lexemes that pass it with the same account. -/
theorem Emission.exists_scan {x : Emission} {text : SqlText} (h : x.sqlText = .ok text) {t : Survey}
    (ht : Survey.run {} (x.lexemes text.params) = some t) :
    ∃ l, scan text.sql.toList = some l ∧ Survey.run {} l = some t := by
  unfold sqlText at h
  dsimp only at h
  split at h
  · cases h
  cases h
  obtain ⟨scanner, found, hscan, hfound, hrun, -⟩ :=
    (Scanned.start.writePieces ht).exists_scanner
  refine ⟨found, ?_, hrun⟩
  rw [scan, ← hfound, ← hscan]
  rfl

end Tsql
