import Tsql.Proofs.Naming.TempTables
import Tsql.Proofs.Render.Writes
import Tsql.Proofs.Result
import Tsql.Render.Table

/-!
# Which table a text creates

`createdTable?` reads the name in brackets behind `CREATE TABLE`. The definition of a temporary table
gives back the name that the table was given; no other text that a target writes begins like a
definition.
-/

namespace Tsql

open Text Emission

/-- A text in brackets, read behind the first one. Inside, the closing bracket is written twice. -/
def readBracketed : List Char → Option (List Char)
  | [] => none
  | [c] => if c = ']' then some [] else none
  | c :: d :: r =>
    if c = ']' then if d = ']' then (readBracketed r).map (']' :: ·) else some []
    else (readBracketed (d :: r)).map (c :: ·)

theorem readBracketed_cons {c : Char} (hc : c ≠ ']') (r : List Char) :
    readBracketed (c :: r) = (readBracketed r).map (c :: ·) := by
  cases r <;> simp [readBracketed, hc]

theorem readBracketed_doubled {c : Char} (hc : c ≠ ']') (s r : List Char) :
    readBracketed (doubled ']' s ++ ']' :: c :: r) = some s := by
  induction s with
  | nil => simp [doubled, readBracketed, hc]
  | cons d rest ih =>
    by_cases hd : d = ']'
    · subst hd
      simp [doubled, readBracketed, ih]
    · rw [doubled, if_neg hd, List.cons_append, readBracketed_cons hd, ih]
      rfl

theorem toList_quoteIdentifier (name : String) :
    (quoteIdentifier name).toList = '[' :: (doubled ']' name.toList ++ [']']) := by
  simp [quoteIdentifier]

def nameBehind? (opening s : String) : Option String :=
  (s.toList.dropPrefix? (opening.toList ++ ['['])).bind fun rest => (readBracketed rest).map String.ofList

theorem nameBehind?_self (opening name rest : String) :
    nameBehind? opening (opening ++ quoteIdentifier name ++ " " ++ rest) = some name := by
  have hlist : (opening ++ quoteIdentifier name ++ " " ++ rest).toList =
      (opening.toList ++ ['[']) ++ (doubled ']' name.toList ++ ']' :: ' ' :: rest.toList) := by
    simp [toList_quoteIdentifier]
  rw [nameBehind?, hlist, List.dropPrefix?_append_of_beq _ (beq_self_eq_true _), Option.bind_some,
    readBracketed_doubled (by decide), Option.map_some, String.ofList_toList]

/-- What stands before the name of a table that is created. -/
def creationHead : List Char := 'C' :: "REATE TABLE [".toList

/-- The name of the table that a text creates, if it begins by creating one. -/
def createdTable? (sql : String) : Option String :=
  (sql.toList.dropPrefix? creationHead).bind fun rest => (readBracketed rest).map String.ofList

theorem createdTable?_creation (name rest : String) :
    createdTable? ("CREATE TABLE " ++ quoteIdentifier name ++ " (\n    " ++ rest) = some name := by
  have hhead : creationHead = "CREATE TABLE ".toList ++ ['['] := by decide +kernel
  have htext : "CREATE TABLE " ++ quoteIdentifier name ++ " (\n    " ++ rest =
      "CREATE TABLE " ++ quoteIdentifier name ++ " " ++ ("(\n    " ++ rest) := by
    simp only [String.append_assoc]
    rfl
  rw [createdTable?, hhead, htext]
  exact nameBehind?_self "CREATE TABLE " name ("(\n    " ++ rest)

/-- The words other than `CREATE TABLE ` that the texts of a target begin with. -/
def otherOpenings : List String :=
  ["SELECT ", "(", "INSERT INTO ", "UPDATE ", "DELETE ", "DROP TABLE "]

theorem createdTable?_of_otherOpening {w : String} (h : w ∈ otherOpenings) (rest : String) :
    createdTable? (w ++ rest) = none := by
  have hfirst : ∀ w ∈ otherOpenings, w.toList.head?.any (· ≠ 'C') = true := by decide +kernel
  obtain ⟨c, hc, hne⟩ := (Option.any_eq_true _ _).1 (hfirst w h)
  obtain ⟨r, hr⟩ := List.head?_eq_some_iff.1 hc
  replace hne : ¬ (c == 'C') = true := fun h => of_decide_eq_true hne (beq_iff_eq.1 h)
  rw [createdTable?, String.toList_append, hr, List.cons_append, creationHead, List.dropPrefix?,
    if_neg hne]
  rfl

namespace Emission

variable {a b : Emission}

/-- A rendering without error begins with one of the other words. -/
def OpensOtherwise (x : Emission) : Prop :=
  x.failure = none → ∃ w ∈ otherOpenings, [.word w] <+: x.pieces

namespace OpensOtherwise

theorem word {w : String} (h : w ∈ otherOpenings) : (Emission.word w).OpensOtherwise :=
  fun _ => ⟨w, h, List.prefix_rfl⟩

theorem fail (e : Error) : (Emission.fail e).OpensOtherwise := nofun

theorem append (h : a.OpensOtherwise) : (a ++ b).OpensOtherwise := by
  intro hf
  obtain ⟨w, hw, hp⟩ := h (failure_append.1 hf).1
  exact ⟨w, hw, hp.trans (pieces_prefix_append a b)⟩

theorem after {α : Type} {r : Result α} {f : α → Emission} (h : ∀ y, (f y).OpensOtherwise) :
    (Emission.after r f).OpensOtherwise := by
  cases r with
  | error e => exact fail e
  | ok y => exact h y

theorem createdTable?_eq_none {text : SqlText} (hx : a.OpensOtherwise) (h : a.sqlText = .ok text) :
    createdTable? text.sql = none := by
  obtain ⟨w, hw, hp⟩ := hx (failure_of_sqlText h)
  obtain ⟨rest, hrest⟩ := sqlText_of_prefix h hp (by simp [Piece.isFlat])
  rw [hrest]
  simpa [Piece.text] using createdTable?_of_otherOpening hw rest

end OpensOtherwise

end Emission

namespace Target

open OpensOtherwise

variable {t : Target} {m : Model} {sql : String}

theorem select_opensOtherwise (scope : Scope) (outermost : Bool) (body : Select)
    (source : Option Emission) : (scope.select outermost body source).OpensOtherwise := by
  unfold Scope.select
  repeat apply OpensOtherwise.append
  exact .word (by decide)

theorem query_opensOtherwise (aliases : AliasMap) (outermost : Bool) (s : Statement) :
    (t.query aliases outermost s).OpensOtherwise := by
  cases s with
  | table m =>
    rw [query]
    refine .after fun _ => ?_
    repeat apply OpensOtherwise.append
    exact .word (by decide)
  | select body source => cases source <;> rw [query] <;> exact select_opensOtherwise _ _ _ _
  | union output left right kind =>
    rw [query]
    unfold unionOf nested
    repeat apply OpensOtherwise.append
    exact .word (by decide)
  | join left right kind condition =>
    rw [query]
    exact .fail _

theorem command_opensOtherwise (c : Command) : (t.command c).OpensOtherwise := by
  have hinsert : (Emission.word "INSERT INTO ").OpensOtherwise := .word (by decide)
  cases c with
  | query s => exact (OpensOtherwise.after fun _ => query_opensOtherwise _ _ _).append
  | insert i => exact hinsert.append.append.append
  | insertRow i => exact hinsert.append.append.append.append
  | update u =>
    refine .append ?_
    unfold update
    split
    · exact .fail _
    · refine .after fun _ => .after fun _ => ?_
      exact (OpensOtherwise.word (by decide)).append.append.append.append
  | delete d =>
    refine .append (.after fun _ => .after fun _ => ?_)
    exact (OpensOtherwise.word (by decide)).append.append.append

theorem createdTable?_generate {c : Command} {text : SqlText} (h : t.generate c = .ok text) :
    createdTable? text.sql = none :=
  (command_opensOtherwise c).createdTable?_eq_none h

theorem createdTable?_drop {isTemp : Bool} (h : t.dropTableSql m isTemp = .ok sql) :
    createdTable? sql = none := by
  obtain ⟨text, htext, rfl⟩ := Result.map_eq_ok h
  have hdrop : (t.dropTable m isTemp).OpensOtherwise :=
    (OpensOtherwise.word (by decide)).append.append
  exact hdrop.createdTable?_eq_none htext

/-- What the definition of a temporary table begins with. -/
theorem createTable_prefix {b : Bindings} (h : (t.createTable b m true).failure = none) :
    ∃ given, t.temps.get? m.id = some given ∧
      [Piece.word "CREATE TABLE ", .name given, .word " (\n    "] <+:
        (t.createTable b m true).pieces := by
  unfold createTable at h ⊢
  obtain ⟨hopened, -⟩ := failure_append.1 (failure_append.1 (failure_append.1 h).1).1
  obtain ⟨hhead, -⟩ := failure_append.1 hopened
  obtain ⟨hname, hcolumns⟩ := failure_append.1 hhead
  obtain ⟨given, hgiven, -⟩ := failure_after (failure_append.1 hname).2
  have hne : ¬ m.columns.isEmpty = true := by
    intro hempty
    rw [if_pos hempty] at hcolumns
    cases hcolumns
  refine ⟨given, TempTables.require_eq_ok.1 hgiven, ?_⟩
  rw [if_neg hne, definedName, if_pos rfl, hgiven]
  refine .trans ?_ (pieces_prefix_append ..)
  refine .trans ?_ (pieces_prefix_append ..)
  refine .trans ?_ (pieces_prefix_append ..)
  exact List.prefix_rfl

theorem exists_createTableSql {b : Bindings} (h : t.createTableSql b m true = .ok sql) :
    ∃ given rest, t.temps.get? m.id = some given ∧
      sql = "CREATE TABLE " ++ quoteIdentifier given ++ " (\n    " ++ rest := by
  obtain ⟨text, htext, rfl⟩ := Result.map_eq_ok h
  obtain ⟨given, hgiven, hp⟩ := createTable_prefix (failure_of_sqlText htext)
  obtain ⟨rest, hrest⟩ := sqlText_of_prefix htext hp (by simp [Piece.isFlat])
  exact ⟨given, rest, hgiven, by simpa [Piece.text, String.append_assoc] using hrest⟩

/-- The definition of a temporary table tells the name that the table was given. -/
theorem createdTable?_create {b : Bindings} (h : t.createTableSql b m true = .ok sql) :
    createdTable? sql = t.temps.get? m.id := by
  obtain ⟨given, rest, hgiven, rfl⟩ := exists_createTableSql h
  rw [hgiven]
  exact createdTable?_creation given rest

end Target

end Tsql
