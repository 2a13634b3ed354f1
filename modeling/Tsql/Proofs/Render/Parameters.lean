import Tsql.Proofs.Render.CommandOutline
import Tsql.Proofs.Render.Placeholders
import Tsql.Render.Binding

/-!
# Placeholders and parameters

The variables of a command's text are the placeholders of its parameters. `SqlText.Numbers` says so of a
text and the parameters of its command in the order of a walk of it: each occurrence is written as the
placeholder of its own cell, and the placeholders go from one on as they first occur. What is supplied when
the text is executed, or declared in front of it, are these placeholders in order, with the values that the
cells have then (`Target.generate_numbers`).

A user-defined type is written as it is called. So the name of one that is itself a variable, or that opens
a token, is left out here where it belongs to a rowset's column; no other part of a command names its types.
-/

namespace Tsql

open Text Emission

/-- The variables of a text are the placeholders of its parameters, which occur in the given order. -/
structure SqlText.Numbers (text : SqlText) (occurrences : List Param) : Prop where
  /-- The parameters are different cells. -/
  distinct : (text.params.map Param.id).Nodup
  /-- The number of an occurrence is the place of its own cell. -/
  own : ∀ p ∈ occurrences, ∃ q, text.params[paramNumber text.params p - 1]? = some q ∧ q.id = p.id
  variables_eq : ∃ l, scan text.sql.toList = some l ∧
    variableNames l = occurrences.map (Param.placeholderIn text.params) ∧
    (variableNames l).eraseDups = placeholderNames text.params.length

/-- The parameters of a text under their placeholders. -/
def SqlText.named (text : SqlText) : List (String × Param) :=
  (placeholderNames text.params.length).zip text.params

/-- A parameter is supplied under its placeholder, with the value that its cell has. -/
def BoundParam.Supplies (b : Bindings) (item : String × Param) (bound : BoundParam) : Prop :=
  bound.name = item.1 ∧ bound.direction = .input ∧
    ∃ type, defaultType item.2.type = .ok type ∧ bound.info = type.info ∧
      toNative type (b.get item.2.id) = .ok bound.value

/-- A line declares a parameter as its placeholder, with the literal of the value that its cell has. -/
def Declares (b : Bindings) (item : String × Param) (line : String) : Prop :=
  ∃ type literal, defaultType item.2.type = .ok type ∧
    literalSql type (b.get item.2.id) = .ok literal ∧
    line = s!"DECLARE {item.1} {type.sql} = {literal};\n"

/-! ### Numbers -/

theorem Target.numbers_of_generate {t : Target} {c : Command} {text : SqlText}
    (h : ∀ m ∈ c.tables, t.garbles m = false) (hgen : t.generate c = .ok text) :
    text.Numbers c.params := by
  have hf : (t.command c).failure = none := failure_of_sqlText hgen
  obtain ⟨aliases, haliases⟩ := exists_aliases hf
  have hshows := command_shows t haliases
  have hparams : (t.command c).pieces.filterMap Piece.param? = c.params := hshows.params hf
  have htext : text = ⟨(writePieces (Param.numbered c.params) {} (t.command c).pieces).text,
      Param.numbered c.params⟩ := by
    unfold generate Emission.sqlText at hgen
    dsimp only at hgen
    split at hgen
    · cases hgen
    · rw [← Except.ok.inj hgen]
      simp only [written, Piece.numbering_eq, hparams]
      rfl
  have hclear : (Sketch.run {} (t.command c).pieces).garbled = false := by
    obtain ⟨-, -, -, -, hgarbled⟩ := hshows.run .clear rfl hf {} rfl
    have hnone : (t.commandOutline aliases c).garbled = false := by
      rw [Target.commandOutline, List.any_eq_false]
      exact fun m hm => by simp [h m hm]
    by_contra hg
    rcases hgarbled (by simpa using hg) with hg | hg
    · cases hg
    · rw [hnone] at hg
      cases hg
  have hdrawn := Drawn.start.run (Param.numbered c.params) hclear
  rw [hparams, List.nil_append] at hdrawn
  subst htext
  refine ⟨Param.nodup_ids_numbered _, fun p hp => Param.getElem?_paramNumber (Param.exists_numbered hp),
    ?_⟩
  obtain ⟨l, hscan, -, hl⟩ := hdrawn.read
  have hvariables : variableNames l = c.params.map (Param.placeholderIn (Param.numbered c.params)) := hl
  exact ⟨l, hscan, hvariables, by rw [hvariables]; exact Param.eraseDups_placeholders _⟩

/-! ### Supplying -/

theorem placeholders_eq_zip (params : List Param) :
    placeholders params = (placeholderNames params.length).zip params := by
  apply List.ext_getElem
  · simp [placeholders, placeholderNames]
  · intro i _ _
    simp [placeholders, placeholderNames, Nat.add_comm]

theorem SqlText.supplies_of_bind {text : SqlText} {b : Bindings} {bound : List BoundParam}
    (h : text.bind b = .ok bound) : List.Forall₂ (BoundParam.Supplies b) text.named bound := by
  unfold bind at h
  rw [placeholders_eq_zip] at h
  refine (Result.mapM_eq_ok h).imp fun item bound hb => ?_
  obtain ⟨type, htype, hb⟩ := Result.bind_eq_ok hb
  obtain ⟨value, hvalue, rfl⟩ := Result.map_eq_ok hb
  exact ⟨rfl, rfl, type, htype, rfl, hvalue⟩

theorem SqlText.declares_of_debugSql {text : SqlText} {b : Bindings} {out : String}
    (h : text.debugSql b = .ok out) :
    ∃ lines, List.Forall₂ (Declares b) text.named lines ∧ out = String.join lines ++ text.sql := by
  unfold debugSql at h
  rw [placeholders_eq_zip] at h
  obtain ⟨lines, hlines, rfl⟩ := Result.map_eq_ok h
  refine ⟨lines, (Result.mapM_eq_ok hlines).imp fun item line hl => ?_, rfl⟩
  obtain ⟨type, htype, hl⟩ := Result.bind_eq_ok hl
  obtain ⟨literal, hliteral, hl⟩ := Result.bind_eq_ok hl
  exact ⟨type, literal, htype, hliteral, (Except.ok.inj hl).symm⟩

/-- A command's text has the placeholders of its parameters as its variables, and the parameters are
supplied and declared under just these names. -/
theorem Target.generate_numbers {t : Target} {c : Command} {text : SqlText}
    (h : ∀ m ∈ c.tables, t.garbles m = false) (hgen : t.generate c = .ok text) :
    text.Numbers c.params ∧ ∀ b,
      (∀ bound, text.bind b = .ok bound → List.Forall₂ (BoundParam.Supplies b) text.named bound) ∧
      ∀ out, text.debugSql b = .ok out →
        ∃ lines, List.Forall₂ (Declares b) text.named lines ∧ out = String.join lines ++ text.sql :=
  ⟨numbers_of_generate h hgen, fun _ =>
    ⟨fun _ => SqlText.supplies_of_bind, fun _ => SqlText.declares_of_debugSql⟩⟩

def labelledRows : Model :=
  { Model.empty ⟨1⟩ "rows" (.jsonRowset ⟨⟨1⟩, .string⟩) with
    columns := [{ id := ⟨1⟩, name := "Label", type := .custom "Label" }] }

def Target.labelled (typeName : String) : Target :=
  { version := .sql13, types := { overrides := [(⟨1⟩, .udt typeName)] } }

/-- The rows that have the label of a second parameter, or any if there is none. -/
def labelQuery : Command :=
  .query (.select
    { output := Model.empty ⟨2⟩ "Found" .derived
      filter := some (.binary .or
        (.binary .equal (labelledRows.ref ⟨⟨1⟩, "Label", .custom "Label"⟩) (.param ⟨⟨2⟩, .string⟩))
        (.builtin .isNull [.param ⟨⟨2⟩, .string⟩] .boolean)) }
    (some (.table labelledRows)))

def labelText : SqlText where
  sql := "SELECT *\nFROM OPENJSON(@p1) WITH ([Label] dbo.Label) [@rows]\n" ++
    "WHERE (([@rows].[Label] = @p2) OR (@p2 IS NULL));"
  params := [⟨⟨1⟩, .string⟩, ⟨⟨2⟩, .string⟩]

theorem Target.generate_numbers_labels :
    (Target.labelled "dbo.Label").generate labelQuery = .ok labelText ∧
      labelText.Numbers [⟨⟨1⟩, .string⟩, ⟨⟨2⟩, .string⟩, ⟨⟨2⟩, .string⟩] ∧
      labelText.named = [("@p1", ⟨⟨1⟩, .string⟩), ("@p2", ⟨⟨2⟩, .string⟩)] ∧
      ∃ bound, labelText.bind {} = .ok bound ∧
        List.Forall₂ (BoundParam.Supplies {}) labelText.named bound := by
  have hgen : (Target.labelled "dbo.Label").generate labelQuery = .ok labelText := by
    decide +kernel
  have h : ∀ m ∈ labelQuery.tables, (Target.labelled "dbo.Label").garbles m = false := by
    decide +kernel
  have hbind : labelText.bind {} = .ok (["@p1", "@p2"].map fun name =>
      ⟨name, (SqlType.nVarChar .max).info, .input, true, .dbNull⟩) := by
    decide +kernel
  obtain ⟨hnumbers, hsupplied⟩ := generate_numbers h hgen
  exact ⟨hgen, hnumbers, by decide +kernel, _, hbind, (hsupplied {}).1 _ hbind⟩

/-- A type may be called like a placeholder: this one is no parameter's. -/
theorem Target.generate_numbers_typeName :
    ∃ text, (Target.labelled "@p2").generate (.query (.table labelledRows)) = .ok text ∧
      text.sql = "SELECT [@rows].[Label]\nFROM OPENJSON(@p1) WITH ([Label] @p2) [@rows];" ∧
      (scan text.sql.toList).map variableNames = some ["@p1", "@p2"] ∧
      ¬ text.Numbers (Command.params (.query (.table labelledRows))) := by
  refine ⟨⟨_, [⟨⟨1⟩, .string⟩]⟩, by decide +kernel, rfl, by decide +kernel, ?_⟩
  rintro ⟨-, -, l, hscan, hnames, -⟩
  have htwo : (scan "SELECT [@rows].[Label]\nFROM OPENJSON(@p1) WITH ([Label] @p2) [@rows];".toList).map
      variableNames = some ["@p1", "@p2"] := by
    decide +kernel
  rw [hscan, Option.map_some, hnames] at htwo
  revert htwo
  decide +kernel

end Tsql
