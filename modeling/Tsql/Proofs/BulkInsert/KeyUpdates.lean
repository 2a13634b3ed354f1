import Tsql.Proofs.BulkInsert.Commands

/-!
# The texts of updates by old and new keys

A mapping table is corrected from a rowset, and a foreign key follows a mapping table, by updates of
one shape: a column takes the new key of the row of another source whose old key it is joined on.
-/

namespace Tsql

open Text Emission

/-- An update of one column from the new keys of a source, which is joined on its old keys. -/
structure KeyUpdate where
  /-- The updated table, its alias, the column that is set and the one that is compared. -/
  target : String
  targetAlias : String
  column : String
  key : String
  /-- Where the keys come from. -/
  source : String
  sourceAlias : String

def KeyUpdate.sql (u : KeyUpdate) : String :=
  "UPDATE " ++ quoteIdentifier u.targetAlias
    ++ "\nSET " ++ quoteIdentifier u.column ++ " = "
    ++ quoteIdentifier u.sourceAlias ++ "." ++ quoteIdentifier "NewValue"
    ++ "\nFROM " ++ u.target ++ " " ++ quoteIdentifier u.targetAlias
    ++ "\nINNER JOIN " ++ u.source ++ " " ++ quoteIdentifier u.sourceAlias
    ++ " ON " ++ quoteIdentifier u.targetAlias ++ "." ++ quoteIdentifier u.key ++ " = "
    ++ quoteIdentifier u.sourceAlias ++ "." ++ quoteIdentifier "OldValue" ++ ";"

section Parts

variable {t : Target} {aliases : AliasMap} {target source : Model} {a b : String}

theorem Scope.writes_columnRef (params : List Param) (ha : aliases.get? target.id = some a)
    (f : Field) : ((t.scope aliases).column ⟨target.id, f⟩).Writes params []
      (quoteIdentifier a ++ "." ++ quoteIdentifier f.name) :=
  Scope.writes_column (t := t) params ha f

theorem Target.command_joinedUpdate (t : Target) (target source : Model) (column key new old : Field) :
    t.command (IdentityMap.joinedUpdate target column (source.ref new) source
        (⟨target.id, key⟩, ⟨source.id, old⟩)) =
      after (t.temps.aliases [target, source]) (fun aliases =>
        after (aliases.require target) fun targetName =>
          word "UPDATE " ++ name targetName
            ++ clause "SET " ((t.scope aliases).assignment ⟨source.ref new, column⟩)
            ++ clause "FROM " (t.tableSource aliases target ++ line ++ word "INNER JOIN" ++ word " "
              ++ t.tableSource aliases source
              ++ (word " ON " ++ (t.scope aliases).equality (⟨target.id, key⟩, ⟨source.id, old⟩)))
            ++ nothing) ++ word ";" := rfl

theorem Target.writes_joinedUpdate {params u v : List Param} {s s' : String}
    (column key new old : Field) (ha : aliases.get? target.id = some a)
    (hb : aliases.get? source.id = some b) (hnew : new.name = "NewValue")
    (hold : old.name = "OldValue")
    (htarget : (t.tableSource aliases target).Writes params u (s ++ " " ++ quoteIdentifier a))
    (hsource : (t.tableSource aliases source).Writes params v (s' ++ " " ++ quoteIdentifier b)) :
    (word "UPDATE " ++ name a
      ++ clause "SET " ((t.scope aliases).assignment ⟨source.ref new, column⟩)
      ++ clause "FROM " (t.tableSource aliases target ++ line ++ word "INNER JOIN" ++ word " "
        ++ t.tableSource aliases source
        ++ (word " ON " ++ (t.scope aliases).equality (⟨target.id, key⟩, ⟨source.id, old⟩)))
      ++ nothing ++ word ";").Writes params (u ++ v)
      (KeyUpdate.sql ⟨s, a, column.name, key.name, s', b⟩) := by
  have hassign : ((t.scope aliases).assignment ⟨source.ref new, column⟩).Writes params [] _ :=
    ((Writes.name column.name).append (.word " = ")).append (Scope.writes_column params hb new)
  have hequal : ((t.scope aliases).equality (⟨target.id, key⟩, ⟨source.id, old⟩)).Writes params [] _ :=
    ((Scope.writes_columnRef params ha key).append (.word " = ")).append
      (Scope.writes_columnRef params hb old)
  have hjoin := ((((htarget.append .line).append (.word "INNER JOIN")).append (.word " ")).append
    hsource).append ((Writes.word " ON ").append hequal)
  have hall := (((((Writes.word "UPDATE ").append (.name a)).append
    (writes_clause params "SET " hassign)).append (writes_clause params "FROM " hjoin)).append
      .nothing).append (.word ";")
  refine hall.of_eq (by simp) ?_
  unfold KeyUpdate.sql
  rw [show "\nSET " = "\n" ++ "SET " from rfl, show "\nFROM " = "\n" ++ "FROM " from rfl,
    show "\nINNER JOIN " = "\n" ++ ("INNER JOIN" ++ " ") from rfl, ← hnew, ← hold]
  simp only [String.append_assoc, String.empty_append]

theorem Target.writes_tableSource {m : Model} (ha : aliases.get? m.id = some a)
    (hf : (t.tableSource aliases m).failure = none) :
    ∃ params s, (t.tableSource aliases m).Writes params params (s ++ " " ++ quoteIdentifier a) ∧
      (m.source = .tempTable → t.NamesTable m s) ∧ params.foldl internParam [] = params := by
  cases hs : m.source with
  | jsonRowset p =>
    obtain ⟨layout, hw⟩ := writes_rowsetSource hs ha hf [p]
    exact ⟨[p], _, hw.of_eq rfl (by rw [show ") " = ")" ++ " " from rfl, ← String.append_assoc]),
      nofun, rfl⟩
  | derived =>
    simp only [Target.tableSource, AliasMap.require_eq ha, after, hs] at hf
    cases hf
  | table | tempTable =>
    simp only [Target.tableSource, AliasMap.require_eq ha, after, hs, failure_append] at hf ⊢
    obtain ⟨s, hw, hnamed⟩ := writes_tableName hf.1.1 []
    exact ⟨[], s, (hw.append (.word " ")).append (.name a), fun _ => hnamed, rfl⟩

/-- What an update of one column needs in order to be rendered. -/
theorem Target.of_joinedUpdate {column key new old : Field} {text : SqlText}
    (h : t.generate (IdentityMap.joinedUpdate target column (source.ref new) source
      (⟨target.id, key⟩, ⟨source.id, old⟩)) = .ok text)
    (hnew : new.name = "NewValue") (hold : old.name = "OldValue") :
    ∃ aliases a b, aliases.get? target.id = some a ∧ aliases.get? source.id = some b ∧
      (t.tableSource aliases target).failure = none ∧
      (t.tableSource aliases source).failure = none ∧
      ∀ {params u v s s'},
        (t.tableSource aliases target).Writes params u (s ++ " " ++ quoteIdentifier a) →
        (t.tableSource aliases source).Writes params v (s' ++ " " ++ quoteIdentifier b) →
        (u ++ v).foldl internParam [] = params →
        text = ⟨KeyUpdate.sql ⟨s, a, column.name, key.name, s', b⟩, params⟩ := by
  have hf := failure_of_sqlText h
  rw [t.command_joinedUpdate, failure_append] at hf
  obtain ⟨aliases, hal, hf⟩ := failure_after hf.1
  obtain ⟨a, ha⟩ := TempTables.get?_of_aliases hal (m := target) (by simp)
  obtain ⟨b, hb⟩ := TempTables.get?_of_aliases hal (m := source) (by simp)
  rw [AliasMap.require_eq ha] at hf
  dsimp only [after, clause] at hf
  simp only [failure_append] at hf
  obtain ⟨⟨-, -, ⟨⟨⟨⟨htarget, -⟩, -⟩, -⟩, hsource⟩, -⟩, -⟩ := hf
  refine ⟨aliases, a, b, ha, hb, htarget, hsource, fun hs hs' hp => ?_⟩
  have hw := Target.writes_joinedUpdate column key new old ha hb hnew hold hs hs'
  have hc : t.command (IdentityMap.joinedUpdate target column (source.ref new) source
      (⟨target.id, key⟩, ⟨source.id, old⟩)) = _ := t.command_joinedUpdate ..
  rw [hal] at hc
  dsimp only [after] at hc
  rw [AliasMap.require_eq ha] at hc
  rw [Target.generate, hc] at h
  exact Except.ok.inj (h.symm.trans (hw.sqlText hp))

end Parts

variable {t : Target} {m : IdentityMap} {identity : Column} {table : String} {text : SqlText}

theorem KeyUpdate.of_realign {rowset : Rowset} (hm : m.Made identity)
    (hr : rowset.model.source = .jsonRowset rowset.param)
    (ht : t.temps.get? m.model.id = some table)
    (h : t.generate (m.realignCommand rowset) = .ok text) :
    ∃ (u : KeyUpdate) (layout : String), text = ⟨u.sql, [rowset.param]⟩ ∧
      u.target = quoteIdentifier table ∧ u.column = "NewValue" ∧ u.key = "OldValue" ∧
      u.source = "OPENJSON(" ++ placeholderName 1 ++ ") WITH (" ++ layout ++ ")" := by
  obtain ⟨aliases, a, b, ha, hb, -, hsource, htext⟩ :=
    Target.of_joinedUpdate h hm.newName hm.oldName
  have hone : paramNumber [rowset.param] rowset.param = 1 := by simp [paramNumber]
  obtain ⟨layout, hs⟩ := Target.writes_rowsetSource hr hb hsource [rowset.param]
  have htarget := Target.writes_tempSource [rowset.param] hm.source_eq ht ha
  rw [hone, show ") " = ")" ++ " " from rfl, ← String.append_assoc] at hs
  exact ⟨_, layout, htext htarget hs rfl, rfl, hm.newName, hm.oldName, rfl⟩

/-- The text of the update by which a foreign key follows a mapping table. -/
theorem KeyUpdate.of_remap {child : Model} {f : Field} (hm : m.Made identity)
    (ht : t.temps.get? m.model.id = some table)
    (h : t.generate (m.remapCommand child f) = .ok text) :
    ∃ (u : KeyUpdate) (params : List Param), text = ⟨u.sql, params⟩ ∧
      (child.source = .tempTable → t.NamesTable child u.target) ∧ u.column = f.name ∧
      u.key = f.name ∧ u.source = quoteIdentifier table := by
  obtain ⟨aliases, a, b, ha, hb, hchild, -, htext⟩ :=
    Target.of_joinedUpdate h hm.newName hm.oldName
  obtain ⟨params, s, hs, hnamed, hp⟩ := Target.writes_tableSource ha hchild
  have hsource := Target.writes_tempSource params hm.source_eq ht hb
  exact ⟨_, params, htext hs hsource (by rwa [List.append_nil]), hnamed, rfl, rfl, rfl⟩

/-- The text of a temporary table's removal. -/
theorem Target.dropTableSql_temp {m : Model} (ht : t.temps.get? m.id = some table) :
    t.dropTableSql m true = .ok ("DROP TABLE " ++ quoteIdentifier table ++ ";") := by
  have hd : t.dropTable m true = word "DROP TABLE " ++ name table ++ word ";" := by
    show word "DROP TABLE " ++ after (t.temps.require m) name ++ word ";" = _
    simp only [TempTables.require, ht, after]
  have hw : (word "DROP TABLE " ++ name table ++ word ";").Writes [] [] _ :=
    ((Writes.word "DROP TABLE ").append (.name table)).append (.word ";")
  rw [Target.dropTableSql, hd, hw.sqlText rfl]
  rfl

end Tsql
