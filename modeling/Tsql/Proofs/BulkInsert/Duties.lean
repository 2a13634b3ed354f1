import Tsql.Proofs.BulkInsert.KeyUpdates
import Tsql.Proofs.Render.CreatedTable
import Tsql.Proofs.Rowset
import Tsql.Proofs.Session.Stages

/-!
# The requests of a bulk insert

A run sends requests of seven kinds. `Duty.stage` is the command or the table that a request is written
for, and `Duty.Says` what one reads in its text: which table is filled, where the new identities go, and
by which columns keys are replaced. The lemmas here lead from the one to the other.
-/

namespace Tsql.BulkInsert

open Text

/-- A rowset that is read from its parameter. -/
structure SentRowset extends Rowset where
  source_eq : model.source = .jsonRowset param
  rowId_plain : '[' ∉ rowId.name.toList

/-- A rowset that was built is read from its parameter. -/
theorem exists_sentRowset {supply supply' : Supply} {d : DataSet} {types : TypeMap}
    {columns : List Column} {rowset : Rowset}
    (h : Rowset.build supply d types columns = .ok (rowset, supply')) :
    ∃ sent : SentRowset, sent.toRowset = rowset := by
  obtain ⟨-, hsource, -, hname, -⟩ := Rowset.build_ok h
  exact ⟨⟨rowset, hsource, by rw [hname]; decide⟩, rfl⟩

/-- A request of a run by what it does. -/
inductive Duty where
  | insert (target : Model) (rowset : SentRowset)
  | create (m : IdentityMap)
  | insertKeyed (target : Model) (rowset : SentRowset) (m : IdentityMap) (identity : Column)
  | read (m : IdentityMap) (identity : Column)
  | realign (m : IdentityMap) (pairs : SentRowset)
  | follow (m : IdentityMap) (child : Model × Field)
  | drop (m : IdentityMap)

namespace Duty

def stage : Duty → Stage
  | insert target rowset => .execute (rowsetInsert target rowset.toRowset none)
  | create m => .create m.model
  | insertKeyed target rowset m _ => .execute (rowsetInsert target rowset.toRowset (some m.model))
  | read m identity => .query (m.readCommand identity)
  | realign m pairs => .execute (m.realignCommand pairs.toRowset)
  | follow m child => .execute (m.remapCommand child.1 child.2)
  | drop m => .drop m.model

/-- What the text of a duty says where the mapping table is called `mapping`. -/
def Says (t : Target) (mapping : String) : Duty → String → Prop
  | insert target _, sql => ∃ (i : RowsetInsert) (own columns : String), sql = i.sqlWith "" ∧
      i.target = own ++ " (" ++ columns ++ ")" ∧ t.NamesTable target own
  | create _, sql => ∃ rest, sql = "CREATE TABLE " ++ quoteIdentifier mapping ++ " (" ++ rest
  | insertKeyed target _ _ identity, sql => ∃ (i : KeyedInsert) (own columns : String),
      sql = i.sql ∧ i.target = own ++ " (" ++ columns ++ ")" ∧ t.NamesTable target own ∧
        i.identity = identity.name ∧ i.mapping = mapping
  | read _ _, sql => ∃ q : MappingQuery, sql = q.sql ∧ q.mapping = mapping
  | realign _ _, sql => ∃ (u : KeyUpdate) (layout : String), sql = u.sql ∧
      u.target = quoteIdentifier mapping ∧ u.column = "NewValue" ∧ u.key = "OldValue" ∧
        u.source = "OPENJSON(" ++ placeholderName 1 ++ ") WITH (" ++ layout ++ ")"
  | follow _ child, sql => ∃ u : KeyUpdate, sql = u.sql ∧
      (child.1.source = .tempTable → t.NamesTable child.1 u.target) ∧ u.column = child.2.name ∧
        u.key = child.2.name ∧ u.source = quoteIdentifier mapping
  | drop _, sql => sql = "DROP TABLE " ++ quoteIdentifier mapping ++ ";"

/-- A request that a target writes for a duty. -/
structure SentAs (t : Target) (mapping : String) (duty : Duty) (q : Request) : Prop where
  stage : duty.stage.SentAs t q
  text : duty.Says t mapping q.sql

section Texts

variable {t : Target} {mapping : String} {m : IdentityMap} {identity : Column} {q : Request}

theorem says_insert {target : Model} {rowset : SentRowset}
    (h : (insert target rowset).stage.SentAs t q) :
    (insert target rowset).Says t mapping q.sql := by
  obtain ⟨-, text, htext, hsql⟩ := h
  have houtput : (t.identityOutput { target, identityOutput := none
                                     source := .select (rowsetSelect rowset.toRowset)
                                       (some (.table rowset.model)) }).Writes
      [rowset.param] [] "" := .nothing
  obtain ⟨i, own, columns, rfl, htarget, hnamed, -⟩ :=
    RowsetInsert.of_generate rowset.source_eq rowset.rowId_plain houtput htext
  exact ⟨i, own, columns, hsql.symm, htarget, hnamed⟩

variable (hn : t.temps.get? m.model.id = some mapping)

include hn

theorem says_create (h : (create m).stage.SentAs t q) : (create m).Says t mapping q.sql := by
  obtain ⟨-, b, hsql⟩ := h
  obtain ⟨given, rest, hgiven, hsql⟩ := Target.exists_createTableSql hsql
  obtain rfl := Option.some.inj (hn.symm.trans hgiven)
  refine ⟨"\n    " ++ rest, ?_⟩
  rw [hsql, show " (\n    " = " (" ++ "\n    " from rfl]
  simp only [String.append_assoc]

theorem says_drop (h : (drop m).stage.SentAs t q) : (drop m).Says t mapping q.sql :=
  Except.ok.inj (h.2.symm.trans (Target.dropTableSql_temp hn))

variable (hm : m.Made identity)

include hm

theorem says_insertKeyed {target : Model} {rowset : SentRowset}
    (hi : target.identityColumn? = some identity)
    (h : (insertKeyed target rowset m identity).stage.SentAs t q) :
    (insertKeyed target rowset m identity).Says t mapping q.sql := by
  obtain ⟨-, text, htext, hsql⟩ := h
  obtain ⟨i, own, columns, rfl, htarget, hnamed, hidentity, hmapping, -⟩ :=
    KeyedInsert.of_generate hm hi rowset.source_eq rowset.rowId_plain hn htext
  exact ⟨i, own, columns, hsql.symm, htarget, hnamed, hidentity, hmapping⟩

theorem says_read (h : (read m identity).stage.SentAs t q) :
    (read m identity).Says t mapping q.sql := by
  obtain ⟨-, text, htext, hsql⟩ := h
  obtain ⟨i, rfl, hmapping, -⟩ := MappingQuery.of_generate hm hn htext
  exact ⟨i, hsql.symm, hmapping⟩

theorem says_realign {pairs : SentRowset} (h : (realign m pairs).stage.SentAs t q) :
    (realign m pairs).Says t mapping q.sql := by
  obtain ⟨-, text, htext, hsql⟩ := h
  obtain ⟨u, layout, rfl, hparts⟩ := KeyUpdate.of_realign hm pairs.source_eq hn htext
  exact ⟨u, layout, hsql.symm, hparts⟩

theorem says_follow {child : Model × Field} (h : (follow m child).stage.SentAs t q) :
    (follow m child).Says t mapping q.sql := by
  obtain ⟨-, text, htext, hsql⟩ := h
  obtain ⟨u, params, rfl, hparts⟩ := KeyUpdate.of_remap hm hn htext
  exact ⟨u, hsql.symm, hparts⟩

end Texts

end Duty

end Tsql.BulkInsert
