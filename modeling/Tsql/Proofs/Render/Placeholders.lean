import Tsql.Proofs.Render.Numbering
import Tsql.Proofs.Render.Outline

/-!
# The variables of a rendering

`Read` says what a scan of a text has come to at an ending, and which variables it has found; each piece
that does not run together with what stands before it goes on from there. So the variables of a text are
the placeholders of its pieces, each by the number of its own cell, as long as a sketch of the pieces finds
nothing garbled (`Drawn.run`).
-/

namespace Tsql

open Text

namespace Text

theorem isOrdinary_of_isNameChar {c : Char} (h : isNameChar c = true) : isOrdinary c = true := by
  have hne : ∀ d, isNameChar d = false → c ≠ d := by
    rintro d hd rfl
    rw [hd] at h
    cases h
  simp only [isOrdinary, Bool.and_eq_true, decide_eq_true_eq]
  exact ⟨⟨hne _ (by decide), hne _ (by decide)⟩, hne _ (by decide)⟩

theorem isNameChar_digitChar {d : Nat} (h : d < 10) : isNameChar (digitChar d) = true := by
  revert d
  decide

theorem isNameChar_placeholderName (n : Nat) : ∀ c ∈ (placeholderName n).toList, isNameChar c = true := by
  intro c hc
  rw [placeholderName, String.toList_append, List.mem_append] at hc
  rcases hc with hc | hc
  · have hmark : "@p".toList.all isNameChar = true := by decide
    exact List.all_eq_true.1 hmark c hc
  · rw [natText, String.toList_ofList] at hc
    obtain ⟨d, hd, rfl⟩ := exists_of_mem_digits hc
    exact isNameChar_digitChar hd

theorem Reader.flush_found_of_ne {r : Reader} {c : Char} {rest : List Char}
    (hp : r.pending = c :: rest) (hc : c ≠ '@') : r.flush.found = r.found := by
  simp [flush, hp, hc]

end Text

def Ending.Describes (state : ScanState) (r : Reader) : Ending → Prop
  | .letters => state = .outside ∧ ∃ c rest, r.pending = c :: rest ∧ c ≠ '@'
  | .named | .loose => True
  | .clear | .closed | .headed | .spaced => state = .outside ∧ r.pending = []

/-- The text was scanned outside of tokens, and its variables are the given ones. -/
def Read (scanner : Scanner) (e : Ending) (names : List String) : Prop :=
  ∃ found, scanner.finished? = some found ∧ e.Describes scanner.state (Reader.run {} found) ∧
    (Reader.run {} found).flush.found = names

namespace Read

variable {scanner : Scanner} {e e' : Ending} {names : List String}

theorem start : Read {} .clear [] := ⟨[], rfl, ⟨rfl, rfl⟩, rfl⟩

theorem of_isOpen (h : Read scanner e names) (he : e.isOpen = true) :
    ∃ found, scanner = ⟨found, .outside⟩ ∧ Reader.run {} found = ⟨[], names⟩ := by
  obtain ⟨found, hfound, hends, hnames⟩ := h
  have hopen : scanner.state = .outside ∧ (Reader.run {} found).pending = [] := by
    cases e <;> first | exact hends | cases he
  obtain ⟨hstate, hpending⟩ := hopen
  rw [Reader.flush_eq_self hpending] at hnames
  obtain ⟨lexemes, state⟩ := scanner
  cases hstate
  cases hfound
  refine ⟨lexemes, rfl, ?_⟩
  show Reader.mk (Reader.run {} lexemes).pending (Reader.run {} lexemes).found = _
  rw [hpending, hnames]

theorem reopen (h : Read scanner e names) (he : e.isOpen = true) (he' : e' ≠ .letters) :
    Read scanner e' names := by
  obtain ⟨found, rfl, hrun⟩ := h.of_isOpen he
  refine ⟨found, rfl, ?_, by rw [hrun]; rfl⟩
  rw [hrun]
  cases e' <;> first | exact ⟨rfl, rfl⟩ | exact True.intro | contradiction

theorem settle (h : Read scanner e names) : Read scanner e.settled names := by
  obtain ⟨found, hfound, hends, hnames⟩ := h
  refine ⟨found, hfound, ?_, hnames⟩
  cases e <;> exact hends

/-- A character that belongs to no word and to no token. -/
theorem separator (h : Read scanner e names) {c : Char} (hn : isNameChar c = false)
    (ho : isOrdinary c = true) : Read (scanner.next c) .clear names := by
  obtain ⟨found, hfound, -, hnames⟩ := h
  have hrun : Reader.run {} (found ++ [.mark c]) = (Reader.run {} found).flush := by
    rw [Reader.run_append]
    simp [Reader.run, Reader.step, hn]
  rw [Scanner.next_isOrdinary hfound ho]
  refine ⟨_, rfl, ?_, ?_⟩
  · rw [hrun]
    exact ⟨rfl, rfl⟩
  · rw [hrun, Reader.flush_flush, hnames]

/-- A character of a word that is no variable. -/
theorem letter (h : Read scanner e names) {c : Char} (hn : isNameChar c = true)
    (he : e = .letters ∨ e.isOpen = true ∧ c ≠ '@') : Read (scanner.next c) .letters names := by
  have hword : ∃ found, scanner.finished? = some found ∧ (Reader.run {} found).found = names ∧
      ∃ d rest, (Reader.run {} found).pending ++ [c] = d :: rest ∧ d ≠ '@' := by
    rcases he with rfl | ⟨ho, hc⟩
    · obtain ⟨found, hfound, ⟨-, d, rest, hd, hne⟩, hnames⟩ := h
      rw [Reader.flush_found_of_ne hd hne] at hnames
      exact ⟨found, hfound, hnames, d, rest ++ [c], by rw [hd]; rfl, hne⟩
    · obtain ⟨found, rfl, hrun⟩ := h.of_isOpen ho
      exact ⟨found, rfl, by rw [hrun], c, [], by rw [hrun]; rfl, hc⟩
  obtain ⟨found, hfound, hnames, d, rest, hd, hne⟩ := hword
  have hrun : Reader.run {} (found ++ [.mark c]) =
      { Reader.run {} found with pending := d :: rest } := by
    rw [Reader.run_append, ← hd]
    simp [Reader.run, Reader.step, hn]
  rw [Scanner.next_isOrdinary hfound (isOrdinary_of_isNameChar hn)]
  refine ⟨_, rfl, ?_, ?_⟩
  · rw [hrun]
    exact ⟨rfl, d, rest, rfl, hne⟩
  · rw [hrun, Reader.flush_found_of_ne rfl hne, ← hnames]

theorem mark (h : Read scanner e names) {c : Char} (hc : e.mark c = some e') :
    Read (scanner.next c) e' names := by
  unfold Ending.mark at hc
  split at hc
  · next hn =>
    split at hc
    · next ho =>
      split at hc
      · cases hc
      · next hat =>
        cases hc
        exact h.letter hn (.inr ⟨ho, hat⟩)
    · split at hc
      · next hl =>
        cases hc
        exact h.letter hn (.inl hl)
      · cases hc
  · next hn =>
    split at hc
    · next ho =>
      cases hc
      exact h.separator (by simpa using hn) ho
    · cases hc

theorem chars (h : Read scanner e names) {s : List Char} (hs : e.chars s = some e') :
    Read (s.foldl Scanner.next scanner) e' names := by
  induction s generalizing scanner e with
  | nil =>
    cases hs
    exact h
  | cons c rest ih =>
    obtain ⟨e₁, hc, hs⟩ := Option.bind_eq_some_iff.1 hs
    exact ih (h.mark hc) hs

theorem blanks (h : Read scanner e names) (he : e.isOpen = true) (n : Nat) :
    Read ((List.replicate n ' ').foldl Scanner.next scanner) e names := by
  have hne : e ≠ .letters := by
    rintro rfl
    cases he
  induction n generalizing scanner with
  | zero => exact h
  | succ n ih =>
    have hblank := (h.separator (c := ' ') (by decide) (by decide)).reopen rfl hne
    exact ih hblank

theorem word (h : Read scanner e names) {s : String} (hs : e.word s = some e') :
    Read (s.toList.foldl Scanner.next scanner) e' names := by
  have hblank := h.separator (c := ' ') (by decide) (by decide)
  have hparen := h.separator (c := ')') (by decide) (by decide)
  unfold Ending.word at hs
  split at hs
  · next hword =>
    cases hs
    subst hword
    exact hblank.reopen rfl (by cases e <;> decide)
  split at hs
  · next hword =>
    cases hs
    subst hword
    exact hparen.reopen rfl (by decide)
  split at hs
  · next hword =>
    cases hs
    subst hword
    exact (hparen.separator (c := ' ') (by decide) (by decide)).reopen rfl (by decide)
  exact h.settle.chars hs

/-- A word that stands by itself. -/
theorem readable (h : Read scanner e names) (he : e.isOpen = true) {s : String}
    (hs : isReadable s = true) : Read (s.toList.foldl Scanner.next scanner) .loose names := by
  obtain ⟨found, rfl, hrun⟩ := h.of_isOpen he
  obtain ⟨l, hscan, hl⟩ := isReadable_iff.1 hs
  refine ⟨found ++ l, Scanner.finished?_foldl_of_scan hscan, True.intro, ?_⟩
  rw [Reader.run_append, hrun, Reader.run_of_variableNames rfl hl]

theorem quoted (h : Read scanner e names) (q : Quote) (text : List Char)
    (hq : q = .apostrophe → scanner.state = .outside) (he' : e' = .named ∨ e' = .loose) :
    Read ((q.first :: doubled q.last text ++ [q.last]).foldl Scanner.next scanner) e' names := by
  obtain ⟨found, hfound, -, hnames⟩ := h
  have hafter : q = .apostrophe → ¬ scanner.afterString := by
    rintro hq' ⟨payload, hp⟩
    rw [hq hq'] at hp
    cases hp
  rw [Scanner.foldl_quoted hfound q text hafter]
  refine ⟨_, rfl, by rcases he' with rfl | rfl <;> exact True.intro, ?_⟩
  rw [Reader.run_append, ← hnames]
  exact congrArg Reader.found (Reader.flush_flush _)

theorem name (h : Read scanner e names) (s : String) :
    Read ((quoteIdentifier s).toList.foldl Scanner.next scanner) .named names := by
  have hchars : (quoteIdentifier s).toList =
      Quote.bracket.first :: doubled Quote.bracket.last s.toList ++ [Quote.bracket.last] := by
    simp [quoteIdentifier, Quote.first, Quote.last]
  rw [hchars]
  exact h.quoted .bracket s.toList (by simp) (.inl rfl)

theorem string (h : Read scanner e names) (he : e.isOpen = true) (unicode : Bool) (s : String) :
    Read ((Literal.string unicode s).sql.toList.foldl Scanner.next scanner) .loose names := by
  have htoken : ∀ {scanner : Scanner} {e : Ending}, Read scanner e names → scanner.state = .outside →
      Read ((quoteString s false).toList.foldl Scanner.next scanner) .loose names := by
    intro scanner e h hstate
    have hchars : (quoteString s false).toList =
        Quote.apostrophe.first :: doubled Quote.apostrophe.last s.toList ++ [Quote.apostrophe.last] := by
      simp [quoteString, Quote.first, Quote.last]
    rw [hchars]
    exact h.quoted .apostrophe s.toList (fun _ => hstate) (.inr rfl)
  cases unicode with
  | false =>
    obtain ⟨found, rfl, -⟩ := h.of_isOpen he
    exact htoken h rfl
  | true =>
    have hchars : (Literal.string true s).sql.toList = 'N' :: (quoteString s false).toList := by
      simp [Literal.sql, quoteString]
    have hmark := h.letter (c := 'N') (by decide) (.inr ⟨he, by decide⟩)
    rw [hchars, List.foldl_cons]
    obtain ⟨-, -, ⟨hstate, -⟩, -⟩ := id hmark
    exact htoken hmark hstate

theorem placeholder (h : Read scanner e names) (he : e.isOpen = true) (n : Nat) :
    Read ((placeholderName n).toList.foldl Scanner.next scanner) .loose
      (names ++ [placeholderName n]) := by
  obtain ⟨found, rfl, hrun⟩ := h.of_isOpen he
  have hname := isNameChar_placeholderName n
  have hfinished := (Scanner.foldl_isOrdinary (s := ⟨found, .outside⟩) rfl
    fun c hc => isOrdinary_of_isNameChar (hname c hc)).1
  refine ⟨_, hfinished, True.intro, ?_⟩
  rw [Reader.run_append, hrun, Reader.run_name hname rfl, List.nil_append]
  have hhead : (placeholderName n).toList.head? = some '@' := by
    rw [placeholderName, String.toList_append]
    rfl
  simp only [Reader.flush, hhead, if_true, String.ofList_toList]

/-- A piece that does not run together with what stands before it. -/
theorem piece (params : List Param) (h : Read scanner e names) {p : Piece} (hp : e.piece p = some e') :
    Read ((p.text params).toList.foldl Scanner.next scanner) e'
      (names ++ (p.param?.map (Param.placeholderIn params)).toList) := by
  have hsilent : p.param? = none →
      names ++ (p.param?.map (Param.placeholderIn params)).toList = names := by
    intro hnone
    rw [hnone]
    exact List.append_nil names
  have hloose : (if e.isOpen then some Ending.loose else none) = some e' →
      e.isOpen = true ∧ e' = .loose := by
    intro hif
    split at hif
    · next ho => exact ⟨ho, (Option.some.inj hif).symm⟩
    · cases hif
  cases p with
  | word s =>
    rw [hsilent rfl]
    rcases Option.or_eq_some_iff.1 hp with hword | ⟨-, hp⟩
    · exact h.word hword
    · split at hp
      · next hs =>
        cases hp
        rw [Bool.and_eq_true] at hs
        exact h.readable hs.1 hs.2
      · cases hp
  | name s =>
    cases hp
    rw [hsilent rfl]
    exact h.name s
  | literal l =>
    rw [hsilent rfl]
    cases l with
    | word s => exact h.settle.chars hp
    | string unicode s =>
      obtain ⟨ho, rfl⟩ := hloose hp
      exact h.string ho unicode s
  | placeholder q =>
    obtain ⟨ho, rfl⟩ := hloose hp
    exact h.placeholder ho _
  | line =>
    cases hp
    rw [hsilent rfl]
    have hline := h.separator (c := '\n') (by decide) (by decide)
    have hchars : (Piece.text params .line).toList = ['\n'] := by
      rw [Piece.text]
      decide
    rw [hchars]
    exact hline
  | indent =>
    cases hp
    rw [hsilent rfl]
    exact h.settle
  | outdent =>
    cases hp
    rw [hsilent rfl]
    exact h.settle

end Read

/-! ### Writing -/

/-- What was written so far, as a scan and a reader see it. -/
structure Drawn (w : Writer) (e : Ending) (names : List String) : Prop where
  read : Read (w.text.toList.foldl Scanner.next {}) e names
  atLineStart : w.atLineStart = true → e.isOpen = true

namespace Drawn

variable {w : Writer} {e e' : Ending} {names names' : List String}

theorem start : Drawn {} .clear [] := ⟨Read.start, nofun⟩

/-- A text is written behind the margin of its line, if it is the first one. -/
theorem write (h : Drawn w e names) {s : String} (hempty : s = "" → e.isOpen = true → e'.isOpen = true)
    (hs : ∀ {scanner : Scanner}, Read scanner e names →
      Read (s.toList.foldl Scanner.next scanner) e' names') :
    Drawn (w.write s) e' names' := by
  unfold Writer.write
  split
  · next hnil =>
    have hread := hs h.read
    rw [hnil] at hread
    exact ⟨hread, fun hw => hempty hnil (h.atLineStart hw)⟩
  split
  · next hw =>
    have hmargin := h.read.blanks (h.atLineStart hw) (Writer.indentWidth * w.level)
    refine ⟨?_, nofun⟩
    simp only [Writer.margin, String.toList_append, String.toList_ofList, List.foldl_append]
    exact hs hmargin
  · next hw =>
    refine ⟨?_, fun hw' => absurd hw' hw⟩
    simp only [String.toList_append, List.foldl_append]
    exact hs h.read

theorem piece (params : List Param) (h : Drawn w e names) {p : Piece} (hp : e.piece p = some e') :
    Drawn (p.write params w) e' (names ++ (p.param?.map (Param.placeholderIn params)).toList) := by
  have hread : ∀ {scanner : Scanner}, Read scanner e names →
      Read ((p.text params).toList.foldl Scanner.next scanner) e'
        (names ++ (p.param?.map (Param.placeholderIn params)).toList) :=
    fun h => h.piece params hp
  cases p with
  | word s =>
    refine h.write ?_ hread
    rintro rfl he
    cases hp
    exact Ending.settled_isOpen he
  | name s =>
    refine h.write ?_ hread
    intro hnil
    simp [quoteIdentifier] at hnil
  | literal l =>
    refine h.write ?_ hread
    cases l with
    | word s =>
      rintro rfl he
      cases hp
      exact Ending.settled_isOpen he
    | string unicode s =>
      intro hnil
      simp [Literal.sql, quoteString] at hnil
  | placeholder q =>
    refine h.write ?_ hread
    intro hnil
    simp [placeholderName] at hnil
  | line =>
    cases hp
    refine ⟨?_, fun _ => rfl⟩
    show Read ((w.text ++ "\n").toList.foldl Scanner.next {}) .clear _
    rw [String.toList_append, List.foldl_append]
    exact hread h.read
  | indent =>
    cases hp
    exact ⟨hread h.read, fun hw => Ending.settled_isOpen (h.atLineStart hw)⟩
  | outdent =>
    cases hp
    exact ⟨hread h.read, fun hw => Ending.settled_isOpen (h.atLineStart hw)⟩

/-- As long as nothing runs together, the variables of a text are the placeholders of its pieces. -/
theorem run (params : List Param) {s : Sketch} (h : Drawn w s.ending names) {pieces : List Piece}
    (hg : (s.run pieces).garbled = false) :
    Drawn (writePieces params w pieces) (s.run pieces).ending
      (names ++ (pieces.filterMap Piece.param?).map (Param.placeholderIn params)) := by
  induction pieces generalizing w s names with
  | nil => simpa [writePieces, Sketch.run] using h
  | cons p rest ih =>
    have hstep : (s.step p).garbled = false := Sketch.garbled_of_run hg
    obtain ⟨e', he'⟩ : ∃ e', s.ending.piece p = some e' := by
      simp only [Sketch.step, Bool.or_eq_false_iff, Option.isNone_eq_false_iff] at hstep
      exact Option.isSome_iff_exists.1 hstep.2
    have hending : (s.step p).ending = e' := by
      rw [Sketch.step, he']
      rfl
    have hp : Drawn (p.write params w) (s.step p).ending _ := hending ▸ h.piece params he'
    have hnames : (p :: rest).filterMap Piece.param? = p.param?.toList ++ rest.filterMap Piece.param? := by
      cases hparam : p.param? <;> simp [hparam]
    have hrest := ih hp hg
    rw [hnames, List.map_append, ← List.append_assoc, ← Option.toList_map]
    exact hrest

end Drawn

end Tsql
