import Tsql.Proofs.Naming.Alias
import Tsql.Proofs.Render.Writes

/-!
# The table that an update or a delete names

An update and a delete name the rows they change by an alias. The aliases of a source are kept in
one flat map: `Statement.joinedTables` are the tables that its clause introduces itself,
`Statement.nestedModels` are the outputs of its nested queries and what stands inside these. The
alias is that of a joined table exactly where no nested model is the target.
-/

namespace Tsql

open Text Emission

namespace Statement

/-- The tables of a source that are reached through joins only. -/
def joinedTables : Statement → List Model
  | table m => [m]
  | select .. | union .. => []
  | join left right _ _ => left.joinedTables ++ right.joinedTables

/-- The models of a source other than its joined tables. -/
def nestedModels : Statement → List Model
  | table _ => []
  | select body source => (select body source).sources true
  | union output left right kind => (union output left right kind).sources true
  | join left right _ _ => left.nestedModels ++ right.nestedModels

theorem sources_perm (s : Statement) :
    (s.sources true).Perm (s.joinedTables ++ s.nestedModels) := by
  induction s using joinedTables.induct with
  | case1 m => simp [sources, joinedTables, nestedModels]
  | case2 body source => simp [joinedTables, nestedModels]
  | case3 output left right kind => simp [joinedTables, nestedModels]
  | case4 left right kind condition hleft hright =>
    rw [sources, joinedTables, nestedModels]
    refine (hleft.append hright).trans ?_
    rw [List.append_assoc, List.append_assoc, ← List.append_assoc left.nestedModels,
      ← List.append_assoc right.joinedTables]
    exact (List.perm_append_comm.append_right _).append_left _

/-- Among models with different identities, one is a joined table exactly if it is no nested one. -/
theorem mem_joinedTables_iff {s : Statement} (hn : ((s.sources true).map Model.id).Nodup)
    {id : ModelId} (hid : ∃ m ∈ s.sources true, m.id = id) :
    (∃ m ∈ s.joinedTables, m.id = id) ↔ ∀ m ∈ s.nestedModels, m.id ≠ id := by
  have hn' := ((s.sources_perm.map Model.id).nodup_iff).1 hn
  rw [List.map_append] at hn'
  have hdisj := (List.nodup_append.1 hn').2.2
  constructor
  · rintro ⟨m, hm, rfl⟩ n hnest hne
    exact hdisj _ (List.mem_map_of_mem hm) _ (List.mem_map_of_mem hnest) hne.symm
  · intro hnone
    obtain ⟨m, hm, rfl⟩ := hid
    rcases List.mem_append.1 (s.sources_perm.mem_iff.1 hm) with hm | hm
    · exact ⟨m, hm, rfl⟩
    · exact absurd rfl (hnone m hm)

end Statement

/-- What an update or a delete works on: its keyword, the model whose rows change, the source. -/
structure RowTarget where
  keyword : String
  model : Model
  source : Statement

/-- The target of a command that changes rows in place. -/
def Command.rowTarget? : Command → Option RowTarget
  | .update u => some ⟨"UPDATE ", u.target, u.source.getD (.table u.target)⟩
  | .delete d => some ⟨"DELETE ", d.target, d.source.getD (.table d.target)⟩
  | _ => none

namespace RowTarget

variable {t : Target} {target : RowTarget} {x y : Emission}

def Begins (target : RowTarget) (t : Target) (x : Emission) : Prop :=
  ∃ aliases a, t.temps.sourceAliases target.source = .ok aliases ∧
    aliases.get? target.model.id = some a ∧
    [.word target.keyword, .name a, .line] <+: x.pieces

theorem Begins.append (h : target.Begins t x) : target.Begins t (x ++ y) := by
  obtain ⟨aliases, a, haliases, ha, hp⟩ := h
  exact ⟨aliases, a, haliases, ha, hp.trans (pieces_prefix_append x y)⟩

theorem begins_after {body : AliasMap → String → Emission}
    (hbody : ∀ aliases a,
      [.word target.keyword, .name a, .line] <+: (body aliases a).pieces)
    (h : (after (t.temps.sourceAliases target.source) fun aliases =>
      after (aliases.require target.model) (body aliases)).failure = none) :
    target.Begins t (after (t.temps.sourceAliases target.source) fun aliases =>
      after (aliases.require target.model) (body aliases)) := by
  obtain ⟨aliases, haliases, h⟩ := failure_after h
  obtain ⟨a, ha, -⟩ := failure_after h
  refine ⟨aliases, a, haliases, AliasMap.require_eq_ok.1 ha, ?_⟩
  rw [haliases]
  show _ <+: (after (aliases.require target.model) (body aliases)).pieces
  rw [ha]
  exact hbody aliases a

/-- The keyword, the alias and a line end stand before whatever clauses follow. -/
theorem prefix_clause (keyword a first : String) (body : Emission) :
    [.word keyword, .name a, .line] <+:
      (word keyword ++ name a ++ clause first body).pieces := ⟨.word first :: body.pieces, rfl⟩

end RowTarget

theorem Target.begins_command {t : Target} {c : Command} {target : RowTarget}
    (hc : c.rowTarget? = some target) (h : (t.command c).failure = none) :
    target.Begins t (t.command c) := by
  cases c with
  | query s => cases hc
  | insert i => cases hc
  | insertRow i => cases hc
  | update u =>
    cases hc
    obtain ⟨h, -⟩ := failure_append.1 h
    refine .append ?_
    unfold update at h ⊢
    split at h
    · cases h
    next hassign =>
    rw [if_neg hassign]
    refine RowTarget.begins_after (fun aliases a => ?_) h
    exact ((RowTarget.prefix_clause ..).trans (pieces_prefix_append ..)).trans
      (pieces_prefix_append ..)
  | delete d =>
    cases hc
    obtain ⟨h, -⟩ := failure_append.1 h
    refine .append (RowTarget.begins_after (fun aliases a => ?_) h)
    exact (RowTarget.prefix_clause ..).trans (pieces_prefix_append ..)

/-- An update or a delete begins with the alias of its target, which is that of a joined table of its
source exactly if the target does not stand for a nested query or inside of one. -/
theorem Target.generate_rowTarget {t : Target} {c : Command} {target : RowTarget} {text : SqlText}
    (hc : c.rowTarget? = some target) (h : t.generate c = .ok text) :
    ∃ aliases a rest, t.temps.sourceAliases target.source = .ok aliases ∧
      text.sql = target.keyword ++ quoteIdentifier a ++ "\n" ++ rest ∧
      aliases.get? target.model.id = some a ∧
      ((∃ m ∈ target.source.joinedTables, m.id = target.model.id) ↔
        ∀ m ∈ target.source.nestedModels, m.id ≠ target.model.id) := by
  obtain ⟨aliases, a, haliases, ha, hp⟩ := begins_command hc (failure_of_sqlText h)
  obtain ⟨rest, hrest⟩ := sqlText_of_prefix h hp (by simp [Piece.isFlat])
  refine ⟨aliases, a, rest, haliases, ?_, ha, ?_⟩
  · rw [hrest]
    simp [Piece.text, String.append_assoc]
  · exact Statement.mem_joinedTables_iff (TempTables.nodup_of_aliases haliases)
      (TempTables.mem_of_get?_aliases haliases ha)

def customers : Model :=
  { Model.empty ⟨1⟩ "Customer" .table with
    columns := [{ id := ⟨1⟩, name := "Name", type := .string }] }

def customerNames : Statement :=
  .select
    { output := Model.empty ⟨2⟩ "Recent" .derived
      columns := [⟨customers.ref ⟨⟨1⟩, "Name", .string⟩, ⟨⟨2⟩, "Name", .string⟩⟩] }
    (some (.table customers))

def customerInvoices : Statement :=
  let invoices : Model :=
    { Model.empty ⟨3⟩ "Invoice" .table with
      columns := [{ id := ⟨3⟩, name := "Customer", type := .string }] }
  .join (.table invoices) (.table customers) .inner
    { pairs := [(⟨invoices.id, ⟨⟨3⟩, "Customer", .string⟩⟩, ⟨customers.id, ⟨⟨1⟩, "Name", .string⟩⟩)] }

theorem Target.generate_rowTarget_joined :
    let c : Command := .delete { target := customers, source := some customerInvoices }
    let sql := "DELETE [Customer]\nFROM [Invoice] [Invoice]\n" ++
      "INNER JOIN [Customer] [Customer] ON [Invoice].[Customer] = [Customer].[Name];"
    ∃ aliases a rest, ({ version := .sql13 } : Target).generate c = .ok ⟨sql, []⟩ ∧
      ({} : TempTables).sourceAliases customerInvoices = .ok aliases ∧
      sql = "DELETE " ++ quoteIdentifier a ++ "\n" ++ rest ∧
      aliases.get? customers.id = some a ∧ ∃ m ∈ customerInvoices.joinedTables, m.id = customers.id := by
  intro c sql
  have hc : c.rowTarget? = some ⟨"DELETE ", customers, customerInvoices⟩ := rfl
  have h : ({ version := .sql13 } : Target).generate c = .ok ⟨sql, []⟩ := by decide +kernel
  obtain ⟨aliases, a, rest, haliases, htext, ha, hjoined⟩ := generate_rowTarget hc h
  have hnested : customerInvoices.nestedModels = [] := rfl
  exact ⟨aliases, a, rest, h, haliases, htext, ha, hjoined.2 (by simp [hnested])⟩

/-- A table that stands in a nested query only is accepted as the target: the alias is unknown outside
of the query, and the name is that of the whole table. -/
theorem Target.generate_rowTarget_nested :
    ({ version := .sql13 } : Target).generate
        (.delete { target := customers, source := some customerNames }) =
      .ok ⟨"DELETE [Customer]\nFROM (\n    SELECT [Customer].[Name]\n" ++
        "    FROM [Customer] [Customer]\n) [Recent];", []⟩ ∧
    ¬ ∃ m ∈ customerNames.joinedTables, m.id = customers.id := by
  constructor
  · decide +kernel
  · simp [customerNames, Statement.joinedTables]

end Tsql
