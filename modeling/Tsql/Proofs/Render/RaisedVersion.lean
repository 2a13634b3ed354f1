import Tsql.Proofs.Render.Derivation
import Tsql.Proofs.Render.SideBySideCommands

/-!
# The later version

A command that can be rendered for the earlier version can be rendered for the later one, with the same
parameters, and the texts differ in the calls of `Trim` alone: `Target.generate_raised`. `RaisedPieces` says
this of pieces and `RaisedText` of texts, each given the operands of these calls in the order of the text.
-/

namespace Tsql

open Text Emission

/-! ### Raised renderings -/

/-- The second pieces are the first with each call of `Trim` in its later form. -/
inductive RaisedPieces (s : Scope) : List Expr → List Piece → List Piece → Prop where
  | same (pieces : List Piece) : RaisedPieces s [] pieces pieces
  | append {as bs : List Expr} {ps ps' qs qs' : List Piece} (hp : RaisedPieces s as ps ps')
      (hq : RaisedPieces s bs qs qs') : RaisedPieces s (as ++ bs) (ps ++ qs) (ps' ++ qs')
  | trim {as : List Expr} {x : Expr} {ps' : List Piece} (hx : (x.value s).failure = none)
      (h : RaisedPieces s as (x.value s).pieces ps') :
      RaisedPieces s (x :: as) ([.word "LTRIM(RTRIM("] ++ (x.value s).pieces ++ [.word "))"])
        ([.word "TRIM", .word "("] ++ ps' ++ [.word ")"])

/-- The second text is the first with each call of `Trim` in its later form; what it is called on has the
text of its operand. -/
inductive RaisedText (s : Scope) (params : List Param) : List Expr → String → String → Prop where
  | same (text : String) : RaisedText s params [] text text
  | append {as bs : List Expr} {a a' b b' : String} (ha : RaisedText s params as a a')
      (hb : RaisedText s params bs b b') : RaisedText s params (as ++ bs) (a ++ b) (a' ++ b')
  | trim {as : List Expr} {x : Expr} {level : Nat} {a a' : String}
      (hx : (x.value s).Lays params level a) (h : RaisedText s params as a a') :
      RaisedText s params (x :: as) ("LTRIM(RTRIM(" ++ a ++ "))") ("TRIM(" ++ a' ++ ")")

variable {s s' : Scope} {as : List Expr} {ps ps' : List Piece} {params : List Param}

theorem RaisedText.eq_of_nil {a a' : String} (h : RaisedText s params as a a') (hnone : as = []) :
    a' = a := by
  induction h with
  | same text => rfl
  | append _ _ iha ihb =>
    obtain ⟨ha, hb⟩ := List.append_eq_nil_iff.1 hnone
    rw [iha ha, ihb hb]
  | trim => cases hnone

theorem RaisedPieces.param?_eq (h : RaisedPieces s as ps ps') :
    ps'.filterMap Piece.param? = ps.filterMap Piece.param? := by
  induction h with
  | same pieces => rfl
  | append _ _ ihp ihq => rw [List.filterMap_append, List.filterMap_append, ihp, ihq]
  | trim _ _ ih =>
    simp only [List.filterMap_append, ih]
    rfl

/-! ### The text of raised pieces -/

/-- What stands before the first text of a line. -/
def Writer.front (w : Writer) : String := if w.atLineStart then margin w.level else ""

theorem Writer.write_first (w : Writer) (text : String) {s : String} (hs : s ≠ "") :
    write { w with text } s = { w with text := text ++ w.front ++ s, atLineStart := false } := by
  unfold write front
  rw [if_neg hs]
  obtain ⟨_, level, atLineStart⟩ := w
  cases atLineStart <;> simp

/-- Inside a line texts stand one after the other. -/
theorem Writer.write_inside (level : Nat) (text s : String) :
    write ⟨text, level, false⟩ s = ⟨text ++ s, level, false⟩ := by
  by_cases hs : s = "" <;> simp [write, hs]

/-- Raised pieces are written as a raised text, and leave the level and the line as the others do. -/
theorem RaisedPieces.raised (h : RaisedPieces s as ps ps') (params : List Param) (w : Writer) :
    ∃ (a a' : String) (v : Writer), RaisedText s params as a a' ∧
      (∀ text, writePieces params { w with text } ps = { v with text := text ++ a }) ∧
      ∀ text, writePieces params { w with text } ps' = { v with text := text ++ a' } := by
  induction h generalizing w with
  | same pieces =>
    obtain ⟨a, ha⟩ := exists_writePieces_at params w pieces
    exact ⟨a, a, _, .same a, ha, ha⟩
  | append _ _ ihp ihq =>
    obtain ⟨a, a', v, ha, hps, hps'⟩ := ihp w
    obtain ⟨b, b', u, hb, hqs, hqs'⟩ := ihq v
    refine ⟨a ++ b, a' ++ b', u, ha.append hb, fun text => ?_, fun text => ?_⟩
    · rw [writePieces_append, hps, hqs, String.append_assoc]
    · rw [writePieces_append, hps', hqs', String.append_assoc]
  | @trim as x ps' hx h ih =>
    -- The operand stands behind an opening word, wherever the call stands.
    obtain ⟨a, a', ⟨front, level, atLineStart⟩, ha, hps, hps'⟩ := ih ⟨"", w.level, false⟩
    obtain ⟨a₀, hlays⟩ : ∃ a₀, (x.value s).Lays params w.level a₀ := by
      obtain ⟨-, -, d, -, hd⟩ := x.derivesIn s .value hx
      exact ⟨_, hd params w.level⟩
    have hwritten : (⟨a, level, atLineStart⟩ : Writer) = ⟨a₀, w.level, false⟩ := by
      have h := (hps "").symm.trans (hlays.write ⟨"", w.level, false⟩ rfl)
      simpa [Writer.write_inside] using h
    obtain ⟨rfl, rfl, rfl⟩ := Writer.mk.inj hwritten
    refine ⟨w.front ++ ("LTRIM(RTRIM(" ++ a ++ "))"), w.front ++ ("TRIM(" ++ a' ++ ")"),
      ⟨front, w.level, false⟩, (RaisedText.same w.front).append (.trim hlays ha), fun text => ?_,
      fun text => ?_⟩
    · have hopen : writePieces params { w with text } [.word "LTRIM(RTRIM("] =
          ⟨text ++ w.front ++ "LTRIM(RTRIM(", w.level, false⟩ :=
        w.write_first text (s := "LTRIM(RTRIM(") (by decide)
      have hclose : writePieces params ⟨text ++ w.front ++ "LTRIM(RTRIM(" ++ a, w.level, false⟩
          [.word "))"] = _ := Writer.write_inside w.level _ "))"
      rw [writePieces_append, writePieces_append, hopen, hps (text ++ w.front ++ "LTRIM(RTRIM("), hclose]
      simp only [String.append_assoc]
    · have hopen : writePieces params { w with text } [.word "TRIM", .word "("] =
          ⟨text ++ w.front ++ "TRIM(", w.level, false⟩ := by
        show Writer.write (Writer.write { w with text } "TRIM") "(" = _
        rw [Writer.write_write]
        exact w.write_first text (by decide)
      have hclose : writePieces params ⟨text ++ w.front ++ "TRIM(" ++ a', w.level, false⟩ [.word ")"] = _ :=
        Writer.write_inside w.level _ ")"
      rw [writePieces_append, writePieces_append, hopen, hps' (text ++ w.front ++ "TRIM("), hclose]
      simp only [String.append_assoc]

/-! ### The two versions side by side -/

/-- A rendering for the later version that is raised from one for the earlier version, unless that stopped
with an error. -/
def Emission.RaisesTo (s : Scope) (as : List Expr) (x y : Emission) : Prop :=
  x.failure = none → y.failure = none ∧ RaisedPieces s as x.pieces y.pieces

theorem Emission.RaisesTo.lockstep (s : Scope) : Lockstep .id (RaisesTo s) where
  nothing _ := ⟨rfl, .same _⟩
  piece p _ := ⟨rfl, by rw [p.rename_id]; exact .same _⟩
  fail _ {_ _} _ h := by cases h
  append {_ _ x x' y y'} hx hy h := by
    obtain ⟨hfx, hfy⟩ := failure_append.1 h
    obtain ⟨hfx', hpx⟩ := hx hfx
    obtain ⟨hfy', hpy⟩ := hy hfy
    rw [pieces_append hfx, pieces_append hfx']
    exact ⟨failure_append.2 ⟨hfx', hfy'⟩, hpx.append hpy⟩

/-- Only the earlier version lacks a function. -/
theorem SideBySide.raised (hversion : s.version = .sql13) (hversion' : s'.version = .sql14)
    (haliases : s'.aliases = s.aliases.map (AliasMap.rename .id))
    (hinlined : s'.inlined = s.inlined.map (Bindings.rename .id)) :
    SideBySide .id s s' (RaisesTo s) where
  toLockstep := RaisesTo.lockstep s
  aliases_eq := haliases
  inlined_eq := hinlined
  trim {as x y} hx := by
    rw [hversion, hversion']
    intro h
    have hfx : (x.value s).failure = none := (failure_append.1 (failure_append.1 h).1).2
    obtain ⟨hfy, hp⟩ := hx hfx
    have hpieces : (trimCall .sql13 (x.value s)).pieces =
        [.word "LTRIM(RTRIM("] ++ (x.value s).pieces ++ [.word "))"] := by
      show (word "LTRIM(RTRIM(" ++ x.value s ++ word "))").pieces = _
      rw [pieces_append (failure_append.1 h).1, pieces_append rfl]
      rfl
    have hopen : (word "TRIM" ++ word "(" ++ y).failure = none := failure_append.2 ⟨rfl, hfy⟩
    have hpieces' : (trimCall .sql14 y).pieces = [.word "TRIM", .word "("] ++ y.pieces ++ [.word ")"] := by
      show (word "TRIM" ++ word "(" ++ y ++ word ")").pieces = _
      rw [pieces_append hopen, pieces_append rfl]
      rfl
    rw [hpieces, hpieces']
    exact ⟨failure_append.2 ⟨hopen, rfl⟩, .trim hfx hp⟩
  stringAgg key xs xs' hx := by
    rw [hversion]
    intro h
    cases h

namespace Target

variable {t : Target}

/-- Raising the version breaks no command and changes nothing but calls of `Trim`: what can be rendered for
the earlier version can be rendered for the later one, with the same parameters, and each `LTRIM(RTRIM(x))`
that stands for such a call has become `TRIM(x)`, in the pieces as well as in the text. -/
theorem generate_raised (hversion : t.version = .sql13) {c : Command} {text : SqlText}
    (h : t.generate c = .ok text) :
    ∃ raised, { t with version := .sql14 }.generate c = .ok raised ∧ raised.params = text.params ∧
      RaisedPieces (t.commandScope c) c.trims (t.command c).pieces
        ({ t with version := .sql14 }.command c).pieces ∧
      RaisedText (t.commandScope c) text.params c.trims text.sql raised.sql ∧
      (c.trims = [] → raised = text) := by
  have halike : t.Alike .id { t with version := .sql14 } :=
    ⟨(TypeMap.rename_id t.types).symm, (TempTables.rename_id t.temps).symm⟩
  have hside : SideBySide .id (t.commandScope c)
      ({ t with version := .sql14 }.commandScope (c.rename .id)) (RaisesTo (t.commandScope c)) :=
    .raised hversion rfl (aliases_commandScope halike c) rfl
  have hraises := hside.command halike c
  rw [c.rename_id] at hraises
  obtain ⟨hf, hp⟩ := hraises (failure_of_sqlText h)
  have hparams : Piece.numbering [] ({ t with version := .sql14 }.command c).pieces =
      Piece.numbering [] (t.command c).pieces := by
    rw [Piece.numbering_eq, Piece.numbering_eq, hp.param?_eq]
  obtain rfl : text = _ := Except.ok.inj (h.symm.trans (sqlText_of_failure (failure_of_sqlText h)))
  obtain ⟨a, a', v, ha, hfirst, hsecond⟩ := hp.raised (Piece.numbering [] (t.command c).pieces) {}
  have hsql := congrArg Writer.text (hfirst "")
  have hsql' := congrArg Writer.text (hsecond "")
  simp only [String.empty_append] at hsql hsql'
  refine ⟨_, sqlText_of_failure hf, hparams, hp, ?_, fun hnone => ?_⟩
  · rw [hparams]
    exact hsql ▸ hsql' ▸ ha
  · have htext : a' = a := ha.eq_of_nil hnone
    rw [hparams]
    exact congrArg (SqlText.mk · _) (hsql'.trans (htext.trans hsql.symm))

/-- A code that a parameter gives, with the blanks at its ends taken off twice. -/
def trimmedTwice : Command :=
  .query (.select
    { output := .empty ⟨1⟩ "Trimmed" .derived
      columns := [⟨.trim (.trim (.param ⟨⟨7⟩, .string⟩)), ⟨⟨1⟩, "Code", .string⟩⟩] } none)

theorem generate_raised_trimmedTwice :
    { version := .sql13 : Target }.generate trimmedTwice =
        .ok ⟨"SELECT LTRIM(RTRIM(LTRIM(RTRIM(@p1)))) AS [Code];", [⟨⟨7⟩, .string⟩]⟩ ∧
      ∃ raised, { version := .sql14 : Target }.generate trimmedTwice = .ok raised ∧
        raised.params = [⟨⟨7⟩, .string⟩] ∧ raised.sql = "SELECT TRIM(TRIM(@p1)) AS [Code];" ∧
        RaisedText { version := .sql13, aliases := some {} } [⟨⟨7⟩, .string⟩]
          [.trim (.param ⟨⟨7⟩, .string⟩), .param ⟨⟨7⟩, .string⟩]
          "SELECT LTRIM(RTRIM(LTRIM(RTRIM(@p1)))) AS [Code];" raised.sql := by
  have hgenerated : { version := .sql13 : Target }.generate trimmedTwice =
      .ok ⟨"SELECT LTRIM(RTRIM(LTRIM(RTRIM(@p1)))) AS [Code];", [⟨⟨7⟩, .string⟩]⟩ := by decide +kernel
  obtain ⟨raised, hraised, hparams, -, htext, -⟩ := generate_raised rfl hgenerated
  have hsql : raised.sql = "SELECT TRIM(TRIM(@p1)) AS [Code];" := by
    have h : { version := .sql14 : Target }.generate trimmedTwice =
        .ok ⟨"SELECT TRIM(TRIM(@p1)) AS [Code];", [⟨⟨7⟩, .string⟩]⟩ := by decide +kernel
    rw [Except.ok.inj (hraised.symm.trans h)]
  exact ⟨hgenerated, raised, hraised, hparams, hsql, htext⟩

end Target

end Tsql
