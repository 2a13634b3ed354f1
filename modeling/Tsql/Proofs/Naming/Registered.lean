import Tsql.Proofs.Naming.Alias
import Tsql.Proofs.Naming.Unique

/-!
# Which nodes of a statement have an alias

`Statement.nodes` goes through all nodes of a statement and tells which of them stand where a row source
stands: under a `FROM` or a join, or at the root of a statement that is itself a source. Every table is
registered, a query only as a source. `TempTables.aliases_exact` says that the aliases of a statement can
be made exactly if no model is registered twice and each temporary table has a name, and that they are
then one for each registered node, all different in lower case.
-/

namespace Tsql

open Text

namespace Statement

def nodes (asSource : Bool) : Statement → List (Bool × Statement)
  | table m => [(asSource, table m)]
  | select body none => [(asSource, select body none)]
  | select body (some source) => (asSource, select body (some source)) :: source.nodes true
  | union output left right kind =>
    (asSource, union output left right kind) :: (left.nodes false ++ right.nodes false)
  | join left right kind condition =>
    (asSource, join left right kind condition) :: (left.nodes true ++ right.nodes true)

/-- The model that a node registers: a table always, a query as a row source. -/
def registered? : Bool × Statement → Option Model
  | (_, table m) => some m
  | (true, select body _) => some body.output
  | (true, union output _ _ _) => some output
  | _ => none

def registered (asSource : Bool) (s : Statement) : List Model := (s.nodes asSource).filterMap registered?

theorem sources_eq_registered (asSource : Bool) (s : Statement) :
    s.sources asSource = s.registered asSource := by
  unfold registered
  induction asSource, s using nodes.induct with
  | case1 asSource m => rfl
  | case2 asSource body => cases asSource <;> rfl
  | case3 asSource body source ih =>
    rw [nodes, sources, ih]
    cases asSource <;> rfl
  | case4 asSource output left right kind hleft hright =>
    rw [nodes, sources, hleft, hright, List.filterMap_cons, List.filterMap_append]
    cases asSource <;> rfl
  | case5 asSource left right kind condition hleft hright =>
    rw [nodes, sources, hleft, hright, List.filterMap_cons, List.filterMap_append]
    cases asSource <;> rfl

end Statement

namespace TempTables

variable {t : TempTables} {m : Model} {acc acc' : AliasMap × UniqueNames} {models : List Model}

/-- The model is no temporary table, or one that has a name. -/
def IsRealized (t : TempTables) (m : Model) : Prop :=
  m.source = .tempTable → ∃ name, t.get? m.id = some name

theorem exists_aliasBase : (∃ base, t.aliasBase m = .ok base) ↔ t.IsRealized m := by
  unfold aliasBase IsRealized
  cases m.source with
  | tempTable =>
    unfold require
    cases t.get? m.id with
    | none => simp [Except.map]
    | some name => simp [Except.map]
  | _ => simp

theorem exists_addAlias :
    (∃ acc', t.addAlias acc m = .ok acc') ↔ acc.1.get? m.id = none ∧ t.IsRealized m := by
  rw [← exists_aliasBase]
  unfold addAlias
  dsimp only
  split
  · next name hsome => simp [hsome]
  · next hnone =>
    cases t.aliasBase m with
    | error e => simp [hnone, bind, Except.bind]
    | ok base => simp [hnone, bind, Except.bind]

theorem exists_foldlM :
    (∃ acc', models.foldlM t.addAlias acc = .ok acc') ↔
      (models.map Model.id).Nodup ∧ (∀ m ∈ models, m.id ∉ acc.1.keys) ∧ ∀ m ∈ models, t.IsRealized m := by
  induction models generalizing acc with
  | nil => simp [pure, Except.pure]
  | cons m rest ih =>
    rw [List.foldlM_cons]
    constructor
    · rintro ⟨acc', h⟩
      obtain ⟨acc₁, ha, h⟩ := Result.bind_eq_ok h
      obtain ⟨hfree, hrealized⟩ := exists_addAlias.1 ⟨acc₁, ha⟩
      obtain ⟨hnodup, hnew, hall⟩ := ih.1 ⟨acc', h⟩
      rw [keys_of_addAlias ha] at hnew
      refine ⟨?_, ?_, ?_⟩
      · rw [List.map_cons, List.nodup_cons]
        refine ⟨fun hmem => ?_, hnodup⟩
        obtain ⟨n, hn, hid⟩ := List.mem_map.1 hmem
        exact hnew n hn (hid ▸ List.mem_cons_self)
      · intro n hn
        rcases List.mem_cons.1 hn with rfl | hn
        · exact AliasMap.not_mem_keys.2 hfree
        · exact fun hmem => hnew n hn (List.mem_cons_of_mem _ hmem)
      · intro n hn
        rcases List.mem_cons.1 hn with rfl | hn
        · exact hrealized
        · exact hall n hn
    · rintro ⟨hnodup, hnew, hall⟩
      rw [List.map_cons, List.nodup_cons] at hnodup
      obtain ⟨acc₁, ha⟩ := exists_addAlias.2
        ⟨AliasMap.not_mem_keys.1 (hnew m List.mem_cons_self), hall m List.mem_cons_self⟩
      have hrest : ∀ n ∈ rest, n.id ∉ acc₁.1.keys := by
        intro n hn hmem
        rw [keys_of_addAlias ha] at hmem
        rcases List.mem_cons.1 hmem with hid | hmem
        · exact hnodup.1 (hid ▸ List.mem_map_of_mem hn)
        · exact hnew n (List.mem_cons_of_mem _ hn) hmem
      obtain ⟨acc', h⟩ := ih.2 ⟨hnodup.2, hrest, fun n hn => hall n (List.mem_cons_of_mem _ hn)⟩
      exact ⟨acc', by rw [ha]; exact h⟩

/-- The aliases so far, in lower case, are the used names, and no two of them are the same. -/
def InStep (acc : AliasMap × UniqueNames) : Prop :=
  acc.2.used = acc.1.entries.map (fun e => lowercase e.2) ∧ acc.2.used.Nodup

theorem InStep.addAlias (hacc : InStep acc) (h : t.addAlias acc m = .ok acc') : InStep acc' := by
  obtain ⟨hused, hnodup⟩ := hacc
  unfold TempTables.addAlias at h
  dsimp only at h
  split at h
  · cases h
  obtain ⟨base, -, h⟩ := Result.bind_eq_ok h
  cases h
  constructor
  · rw [UniqueNames.used_next, hused, List.map_cons]
  · rw [UniqueNames.used_next, List.nodup_cons]
    exact ⟨acc.2.lowercase_next_notMem base, hnodup⟩

theorem InStep.foldlM (hacc : InStep acc) (h : models.foldlM t.addAlias acc = .ok acc') :
    InStep acc' := by
  induction models generalizing acc with
  | nil =>
    cases h
    exact hacc
  | cons m rest ih =>
    rw [List.foldlM_cons] at h
    obtain ⟨acc₁, ha, h⟩ := Result.bind_eq_ok h
    exact ih (hacc.addAlias ha) h

/-- The aliases of some models: they can be made exactly if no model occurs twice and the temporary
tables among them have names; then they are one for each model, all different in lower case. -/
structure NamesExactly (t : TempTables) (models : List Model) (r : Result AliasMap) : Prop where
  ok_iff : (∃ aliases, r = .ok aliases) ↔
    (models.map Model.id).Nodup ∧ ∀ m ∈ models, t.IsRealized m
  keys : ∀ aliases, r = .ok aliases → aliases.keys.Perm (models.map Model.id)
  distinct : ∀ aliases, r = .ok aliases → (aliases.entries.map fun e => lowercase e.2).Nodup

theorem aliases_namesExactly (t : TempTables) (models : List Model) :
    t.NamesExactly models (t.aliases models) where
  ok_iff := by
    have hstart : ∀ m ∈ models, m.id ∉ (({}, {}) : AliasMap × UniqueNames).1.keys :=
      fun m _ => List.not_mem_nil
    have hfold : (∃ aliases, t.aliases models = .ok aliases) ↔
        ∃ acc', models.foldlM t.addAlias ({}, {}) = .ok acc' := by
      rw [aliases]
      cases models.foldlM t.addAlias ({}, {}) with
      | error e => simp [Except.map]
      | ok acc => simp [Except.map]
    rw [hfold, exists_foldlM]
    exact and_congr_right fun _ => and_iff_right hstart
  keys aliases h := by
    obtain ⟨acc, hf, rfl⟩ := Result.map_eq_ok h
    rw [(keys_of_foldlM hf).1]
    rw [show AliasMap.keys (({}, {}) : AliasMap × UniqueNames).1 = [] from rfl, List.append_nil]
    exact List.reverse_perm _
  distinct aliases h := by
    obtain ⟨acc, hf, rfl⟩ := Result.map_eq_ok h
    have hstart : InStep ({}, {}) := ⟨rfl, List.nodup_nil⟩
    obtain ⟨hused, hnodup⟩ := hstart.foldlM hf
    rwa [hused] at hnodup

/-- The aliases of a statement, be it an outermost query or itself a source, are made exactly for its
registered nodes. -/
theorem aliases_exact (t : TempTables) (s : Statement) :
    t.NamesExactly (s.registered false) (t.queryAliases s) ∧
      t.NamesExactly (s.registered true) (t.sourceAliases s) := by
  rw [queryAliases, sourceAliases, Statement.sources_eq_registered, Statement.sources_eq_registered]
  exact ⟨aliases_namesExactly t _, aliases_namesExactly t _⟩

end TempTables

end Tsql
