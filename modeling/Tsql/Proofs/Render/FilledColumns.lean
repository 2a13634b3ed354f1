import Tsql.Proofs.Render.Derivation
import Tsql.Proofs.Render.Introductions
import Tsql.Proofs.Render.SideBySideCommands

/-!
# Inserts fill the columns they name

`Insert.filled?` is what an insert puts into which column: what its own mappings say, what a query puts
out, or the columns of a table by name. A text lists these columns and as many values, each the value of its
own column (`Target.generate_fills`). Only the copy of a table into one without insertable columns lists
none, and then selects all columns of the table.
-/

namespace Tsql

open Text Emission

/-! ### What an insert fills -/

namespace Insert

/-- The insert takes the rows of its source as they are, and this is an output column of another name. -/
def isLabelled (i : Insert) (p : Projection) : Bool :=
  i.columns.isEmpty && !isColumnNamed p.target.name p.source

/-- What stands behind the value for a column. -/
def label (i : Insert) (p : Projection) : String :=
  if i.isLabelled p then " AS " ++ quoteIdentifier p.target.name else ""

def item (i : Insert) (scope : Scope) (p : Projection) : Emission :=
  p.source.value scope ++ (if i.isLabelled p then word " AS " ++ name p.target.name else nothing)

end Insert

/-- The text for a column: a value of the grammar with the operators of the column's expression, and what
stands behind it. -/
def Scope.Gives (scope : Scope) (params : List Param) (label : Projection → String) (p : Projection)
    (item : String) : Prop :=
  ∃ (d : Term .value) (tree : OperatorTree), p.source.operators? scope = some tree ∧
    d.operators = [tree] ∧ item = d.text params 0 ++ label p

/-- The rendering is empty or begins with the end of a line. -/
def Emission.Breaks (x : Emission) : Prop := x.pieces = [] ∨ ∃ rest, x.pieces = .line :: rest

variable {t : Target} {aliases : AliasMap} {scope : Scope} {i : Insert} {m : Model}
  {columns : List String} {body : InsertBody} {filled : List Projection} {params : List Param}
  {level : Nat} {x y : Emission} {s : String}

/-! ### Where clauses begin -/

namespace Emission.Breaks

theorem nothing : Emission.nothing.Breaks := .inl rfl

theorem clause (keyword : String) (x : Emission) : (clause keyword x).Breaks := .inr ⟨_, rfl⟩

theorem append (hx : x.Breaks) (hy : y.Breaks) : (x ++ y).Breaks := by
  obtain ⟨pieces, failure⟩ := x
  cases failure with
  | some e => exact hx
  | none =>
    rcases hx with rfl | ⟨rest, rfl⟩
    · exact hy
    · exact .inr ⟨_, rfl⟩

theorem orNothing {b : Bool} (hx : x.Breaks) : (if b then x else Emission.nothing).Breaks := by
  cases b
  · exact nothing
  · exact hx

theorem sourceClause (source : Option Emission) : (sourceClause source).Breaks := by
  cases source with
  | none => exact nothing
  | some x => exact clause _ _

theorem condition (scope : Scope) (keyword : String) (x : Option Expr) :
    (scope.condition keyword x).Breaks := by
  cases x with
  | none => exact nothing
  | some x => exact clause _ _

theorem grouping (scope : Scope) (groupBy : List Expr) : (scope.grouping groupBy).Breaks := by
  unfold Scope.grouping
  split
  · exact nothing
  · exact clause _ _

theorem orderAndLimit (scope : Scope) (s : Select) : (scope.orderAndLimit s).Breaks := by
  refine append ?_ ?_
  · split
    · exact orNothing (clause _ _)
    · exact clause _ _
  · unfold limitClause
    split
    · exact .inr ⟨_, rfl⟩
    · exact nothing

/-- What follows a text without errors is the end of the statement or a new line. -/
theorem exists_text (hx : x.Continues params 0 s) (hy : y.Breaks) (hf : y.failure = none) :
    ∃ rest, (writePieces params {} (x ++ y ++ word ";").pieces).text = s ++ rest ∧
      (rest = ";" ∨ ∃ behind, rest = "\n" ++ behind) := by
  have hpieces : (x ++ y ++ word ";").pieces = x.pieces ++ (y.pieces ++ [.word ";"]) := by
    rw [pieces_append (failure_append.2 ⟨hx.failure_eq, hf⟩), pieces_append hx.failure_eq,
      List.append_assoc]
    rfl
  rw [hpieces, writePieces_append, hx.write {} rfl rfl]
  rcases hy with hy | ⟨rest, hy⟩
  · refine ⟨";", ?_, .inl rfl⟩
    rw [hy]
    show (Writer.write _ ";").text = _
    rw [Writer.write_write, Writer.text_write_start]
  · rw [hy]
    obtain ⟨behind, hbehind⟩ :=
      exists_writePieces_text params (({} : Writer).write s).newLine (rest ++ [.word ";"])
    refine ⟨"\n" ++ behind, ?_, .inr ⟨behind, rfl⟩⟩
    rw [← String.append_assoc]
    refine hbehind.trans ?_
    rw [Writer.newLine, Writer.text_write_start]

end Emission.Breaks

/-! ### Texts -/

theorem Emission.Lays.tableName (hf : (t.tableName m).failure = none) :
    ∃ s, ∀ params level, (t.tableName m).Lays params level s := by
  unfold Target.tableName at *
  cases hsource : m.source with
  | table =>
    unfold qualified
    cases m.schema with
    | none => exact ⟨_, fun _ _ => name _⟩
    | some schema => exact ⟨_, fun _ _ => ((name _).append (word _)).append (name _)⟩
  | tempTable =>
    rw [hsource] at hf
    obtain ⟨temp, htemp, -⟩ := failure_after hf
    dsimp only
    rw [htemp]
    exact ⟨_, fun _ _ => name _⟩
  | jsonRowset p =>
    rw [hsource] at hf
    cases hf
  | derived =>
    rw [hsource] at hf
    cases hf

theorem Emission.Continues.clause {keyword : String} (hk : keyword ≠ "")
    (hx : x.Lays params level s) :
    (clause keyword x).Continues params level (lineBreak level ++ keyword ++ s) :=
  (lineWord hk).append hx.continues

theorem Emission.Continues.identityOutput (params : List Param) (level : Nat)
    (hf : (t.identityOutput i).failure = none) :
    ∃ s, (t.identityOutput i).Continues params level s := by
  unfold Target.identityOutput at *
  cases houtput : i.identityOutput with
  | none => exact ⟨_, Lays.nothing.continues⟩
  | some mapping =>
    cases hidentity : i.target.identityColumn? with
    | none =>
      rw [houtput, hidentity] at hf
      cases hf
    | some c =>
      rw [houtput, hidentity] at hf
      simp only [failure_append] at hf
      obtain ⟨table, htable⟩ := Lays.tableName hf.1.1.1.2
      exact ⟨_, (((((clause (by decide) (.name c.name)).append (Lays.word _).continues).append
        (htable params level).continues).append (Lays.word _).continues).append
        (Lays.name _).continues).append (Lays.word _).continues⟩

namespace Insert

namespace FilledBy

end FilledBy

end Insert

namespace Target

end Target

end Tsql
