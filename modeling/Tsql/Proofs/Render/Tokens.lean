import Tsql.Proofs.Render.TableSpelling

/-!
# Names, data and comments in rendered text

Names and data never leave their tokens: a scan of a command or of a table definition finds the names and
the data of its tree in order, and everything else it finds is balanced and stays within statements
(`Target.rendered_consists`). Nothing begins a comment but a negation whose operand begins with a minus
sign (`Target.rendered_opensCommentIff`): the operand of a negation directly follows its sign, while binary
operators stand between blanks.
-/

namespace Tsql

open Text Emission

/-- A text that is scanned to some tokens in order, with as many statements around them. -/
def Consists (sql : String) (tokens : List Token) (statements : Nat) : Prop :=
  ∃ l, scan sql.toList = some l ∧ l.filterMap Lexeme.token? = tokens ∧ Terminated l statements

/-- A text that opens a comment with two minus signs exactly if `expected`, and none with a slash and a
star. -/
def OpensCommentIff (sql : String) (expected : Bool) : Prop :=
  ∃ l, scan sql.toList = some l ∧ (Introduces '-' '-' l ↔ expected = true) ∧
    ¬ Introduces '/' '*' l

/-- A survey of an expression's text, from its beginning to its end. -/
theorem Emission.Spells.opensCommentIff {x : Emission} {start : Start} {a : Trace} {text : SqlText}
    (hx : x.Spells start (some .loose) a) (h : x.sqlText = .ok text) :
    OpensCommentIff text.sql a.introduces := by
  obtain ⟨last, -, hrun⟩ :=
    hx.harmless .loose rfl (failure_of_sqlText h) text.params {} rfl
  obtain ⟨l, hscan, hl⟩ := Emission.exists_scan h hrun
  refine ⟨l, hscan, ?_, (Survey.not_introduces_of_run hl).2⟩
  simpa [Survey.past, Start.introduces] using (Survey.introduces_of_run hl).symm

/-- A command and a table definition consist of the names and the data that the walk of the tree meets,
each in a token of its own, and of whole statements. -/
theorem Target.rendered_consists (t : Target) :
    (∀ c text, t.HasPlainRowsets c.tables → t.generate c = .ok text →
      Consists text.sql (t.commandTrace c).tokens c.statementCount) ∧
    (∀ b m isTemp sql, t.HasPlainTypes m.columns → t.createTableSql b m isTemp = .ok sql →
      Consists sql (t.createTableTrace b m isTemp).tokens (m.statementCount isTemp)) := by
  constructor
  · intro c text hplain h
    obtain ⟨l, hscan, htokens, hterminated, -⟩ := (Terminates.command hplain).exists_scan h
    exact ⟨l, hscan, htokens, hterminated⟩
  · intro b m isTemp sql hplain h
    obtain ⟨text, htext, rfl⟩ := Result.map_eq_ok h
    obtain ⟨l, hscan, htokens, hterminated, -⟩ :=
      (Terminates.createTable hplain b isTemp).exists_scan htext
    exact ⟨l, hscan, htokens, hterminated⟩

/-- A table whose names and description look like SQL. -/
def hostile : Model :=
  { Model.empty ⟨1⟩ "x]; DROP TABLE y --" .table with
    schema := some "a.b"
    columns := [{ id := ⟨1⟩, name := "it's", type := .string }]
    description := some "');\n--" }

theorem Target.hasPlainRowsets_hostile :
    ({ version := .sql13 } : Target).HasPlainRowsets [hostile] := by
  intro m hm p hp
  rw [List.mem_singleton.1 hm] at hp
  cases hp

theorem Target.hasPlainTypes_hostile :
    ({ version := .sql13 } : Target).HasPlainTypes hostile.columns := by
  intro c hc n
  rw [List.mem_singleton.1 hc]
  rintro ⟨⟩

def hostileQuery : String :=
  "SELECT [x]]; DROP TABLE y --].[it's]\nFROM [a.b].[x]]; DROP TABLE y --] [x]]; DROP TABLE y --];"

def hostileDefinition : String :=
  "CREATE TABLE [a.b].[x]]; DROP TABLE y --] (\n    [it's] NVARCHAR(MAX) NOT NULL\n);\n" ++
    "EXEC sp_addextendedproperty @name=N'MS_Description', @value=N''');\n--', " ++
    "@level0type=N'Schema', @level0name=N'a.b', @level1type=N'Table', " ++
    "@level1name=N'x]; DROP TABLE y --';"

theorem Target.generate_hostile :
    ({ version := .sql13 } : Target).generate (.query (.table hostile)) = .ok ⟨hostileQuery, []⟩ := by
  decide +kernel

theorem Target.createTableSql_hostile :
    ({ version := .sql13 } : Target).createTableSql {} hostile false = .ok hostileDefinition := by
  decide +kernel

theorem Target.commandTrace_hostile :
    ({ version := .sql13 } : Target).commandTrace (.query (.table hostile)) =
      { tokens := [.name "x]; DROP TABLE y --", .name "it's", .name "a.b",
          .name "x]; DROP TABLE y --", .name "x]; DROP TABLE y --"] } := by
  decide +kernel

theorem Target.createTableTrace_hostile :
    ({ version := .sql13 } : Target).createTableTrace {} hostile false =
      { tokens := [.name "a.b", .name "x]; DROP TABLE y --", .name "it's",
          .string "MS_Description", .string "');\n--", .string "Schema", .string "a.b",
          .string "Table", .string "x]; DROP TABLE y --"] } := by
  decide +kernel

theorem Target.rendered_consists_hostile :
    ({ version := .sql13 } : Target).generate (.query (.table hostile)) = .ok ⟨hostileQuery, []⟩ ∧
    Consists hostileQuery [.name "x]; DROP TABLE y --", .name "it's", .name "a.b",
      .name "x]; DROP TABLE y --", .name "x]; DROP TABLE y --"] 1 ∧
    ({ version := .sql13 } : Target).createTableSql {} hostile false = .ok hostileDefinition ∧
    Consists hostileDefinition [.name "a.b", .name "x]; DROP TABLE y --", .name "it's",
      .string "MS_Description", .string "');\n--", .string "Schema", .string "a.b",
      .string "Table", .string "x]; DROP TABLE y --"] 2 := by
  obtain ⟨hcommand, htable⟩ := rendered_consists { version := .sql13 }
  have hquery := hcommand (.query (.table hostile)) _ hasPlainRowsets_hostile generate_hostile
  have hdefinition := htable {} hostile false _ hasPlainTypes_hostile createTableSql_hostile
  rw [commandTrace_hostile] at hquery
  rw [createTableTrace_hostile] at hdefinition
  exact ⟨generate_hostile, hquery, createTableSql_hostile, hdefinition⟩

/-- A command, a table definition or an expression opens a comment exactly where a negation in it has an
operand whose text begins with a minus sign. -/
theorem Target.rendered_opensCommentIff (t : Target) :
    (∀ c text, t.HasPlainRowsets c.tables → t.generate c = .ok text →
      OpensCommentIff text.sql (t.commandTrace c).introduces) ∧
    (∀ b m isTemp sql, t.HasPlainTypes m.columns → t.createTableSql b m isTemp = .ok sql →
      OpensCommentIff sql (t.createTableTrace b m isTemp).introduces) ∧
    (∀ (scope : Scope) x text, (Expr.value scope x).sqlText = .ok text →
      OpensCommentIff text.sql (x.trace scope).introduces) ∧
    (∀ (scope : Scope) x text, (Expr.predicate scope x).sqlText = .ok text →
      OpensCommentIff text.sql (x.trace scope).introduces) := by
  refine ⟨?_, ?_, ?_, ?_⟩
  · intro c text hplain h
    obtain ⟨l, hscan, -, -, hcomments⟩ := (Terminates.command hplain).exists_scan h
    exact ⟨l, hscan, hcomments⟩
  · intro b m isTemp sql hplain h
    obtain ⟨text, htext, rfl⟩ := Result.map_eq_ok h
    obtain ⟨l, hscan, -, -, hcomments⟩ :=
      (Terminates.createTable hplain b isTemp).exists_scan htext
    exact ⟨l, hscan, hcomments⟩
  · intro scope x text h
    exact (x.value_spells scope).opensCommentIff h
  · intro scope x text h
    exact (x.predicate_spells scope).opensCommentIff h

def minusNegative : Expr :=
  .binary .subtract (.constant (.int32 1) .int32) (.constant (.int32 (-5)) .int32)

theorem Target.rendered_opensCommentIff_subtraction :
    OpensCommentIff hostileQuery false ∧ OpensCommentIff hostileDefinition false ∧
    (minusNegative.value { version := .sql13 }).sqlText = .ok ⟨"(1 - -5)", []⟩ ∧
    OpensCommentIff "(1 - -5)" false ∧
    (minusNegative.predicate { version := .sql13 }).sqlText = .ok ⟨"((1 - -5) = 1)", []⟩ ∧
    OpensCommentIff "((1 - -5) = 1)" false := by
  have hvalue : (minusNegative.value { version := .sql13 }).sqlText = .ok ⟨"(1 - -5)", []⟩ := by
    decide +kernel
  have hpredicate : (minusNegative.predicate { version := .sql13 }).sqlText =
      .ok ⟨"((1 - -5) = 1)", []⟩ := by
    decide +kernel
  obtain ⟨hcommand, htable, hexpr, hcondition⟩ := rendered_opensCommentIff { version := .sql13 }
  have hquery := hcommand (.query (.table hostile)) _ hasPlainRowsets_hostile generate_hostile
  have hdefinition := htable {} hostile false _ hasPlainTypes_hostile createTableSql_hostile
  rw [commandTrace_hostile] at hquery
  rw [createTableTrace_hostile] at hdefinition
  exact ⟨hquery, hdefinition, hvalue, hexpr { version := .sql13 } minusNegative _ hvalue,
    hpredicate, hcondition { version := .sql13 } minusNegative _ hpredicate⟩

/-- The negation of a negative number: the rest of the line is a comment. -/
theorem Expr.value_negated_negative :
    (Expr.value { version := .sql13 } (.unary .negate (.constant (.int32 (-5)) .int32))).sqlText =
      .ok ⟨"(--5)", []⟩ ∧
    ∃ l, scan "(--5)".toList = some l ∧ Introduces '-' '-' l := by
  constructor
  · decide +kernel
  · exact ⟨"(--5)".toList.map .mark, by decide +kernel, by decide +kernel⟩

end Tsql
