import Tsql.Naming.Alias
import Tsql.Proofs.Result

/-!
# Aliases of all sources

Once the aliases of some models were made, each of the models has one, the models are different, and
nothing else has an alias.
-/

namespace Tsql

variable {t : TempTables} {m : Model} {acc acc' : AliasMap × UniqueNames}

namespace AliasMap

def keys (a : AliasMap) : List ModelId := a.entries.map Prod.fst

theorem not_mem_keys {a : AliasMap} {id : ModelId} : id ∉ a.keys ↔ a.get? id = none := by
  rw [keys, get?, List.lookup_eq_none_iff]
  simp only [List.mem_map, not_exists, not_and, bne_iff_ne, ne_eq]
  exact ⟨fun h p hp he => h p hp he.symm, fun h p hp he => h p hp he.symm⟩

end AliasMap

namespace TempTables

/-- A model that was given an alias had none before. -/
theorem addAlias_ok (h : t.addAlias acc m = .ok acc') :
    acc.1.get? m.id = none ∧ ∃ name, acc'.1.entries = (m.id, name) :: acc.1.entries := by
  unfold addAlias at h
  dsimp only at h
  split at h
  · cases h
  next hnone =>
  obtain ⟨base, -, h⟩ := Result.bind_eq_ok h
  cases h
  exact ⟨hnone, _, rfl⟩

theorem keys_of_addAlias (h : t.addAlias acc m = .ok acc') : acc'.1.keys = m.id :: acc.1.keys := by
  obtain ⟨-, name, he⟩ := addAlias_ok h
  rw [AliasMap.keys, he, List.map_cons]
  rfl

theorem get?_of_addAlias (h : t.addAlias acc m = .ok acc') :
    (∃ name, acc'.1.get? m.id = some name) ∧
      ∀ id name, acc.1.get? id = some name → acc'.1.get? id = some name := by
  obtain ⟨hnone, name, he⟩ := addAlias_ok h
  refine ⟨⟨name, by simp [AliasMap.get?, he]⟩, fun id s hs => ?_⟩
  have hne : id ≠ m.id := by
    rintro rfl
    rw [hnone] at hs
    cases hs
  rw [AliasMap.get?, he, List.lookup_cons, beq_eq_false_iff_ne.2 hne]
  exact hs

theorem get?_of_foldlM {models : List Model} (h : models.foldlM t.addAlias acc = .ok acc') :
    (∀ m ∈ models, ∃ name, acc'.1.get? m.id = some name) ∧
      ∀ id name, acc.1.get? id = some name → acc'.1.get? id = some name := by
  induction models generalizing acc with
  | nil =>
    cases h
    exact ⟨by simp, fun _ _ hs => hs⟩
  | cons m rest ih =>
    rw [List.foldlM_cons] at h
    obtain ⟨acc₁, ha, h⟩ := Result.bind_eq_ok h
    obtain ⟨⟨name, hm⟩, hkeep⟩ := get?_of_addAlias ha
    obtain ⟨hrest, hkeep'⟩ := ih h
    refine ⟨fun n hn => ?_, fun id s hs => hkeep' id s (hkeep id s hs)⟩
    rcases List.mem_cons.1 hn with rfl | hn
    · exact ⟨name, hkeep' _ _ hm⟩
    · exact hrest n hn

theorem get?_of_aliases {models : List Model} {aliases : AliasMap}
    (h : t.aliases models = .ok aliases) (hm : m ∈ models) :
    ∃ name, aliases.get? m.id = some name := by
  obtain ⟨acc, hf, rfl⟩ := Result.map_eq_ok h
  exact (get?_of_foldlM hf).1 m hm

/-- A model is given an alias only once, so the models with aliases are listed without repetition. -/
theorem keys_of_foldlM {models : List Model} (h : models.foldlM t.addAlias acc = .ok acc') :
    acc'.1.keys = (models.map Model.id).reverse ++ acc.1.keys ∧
      (acc.1.keys.Nodup → acc'.1.keys.Nodup) := by
  induction models generalizing acc with
  | nil =>
    cases h
    exact ⟨rfl, id⟩
  | cons m rest ih =>
    rw [List.foldlM_cons] at h
    obtain ⟨acc₁, ha, h⟩ := Result.bind_eq_ok h
    obtain ⟨hnone, -⟩ := addAlias_ok ha
    obtain ⟨hkeys, hnodup⟩ := ih h
    refine ⟨by rw [hkeys, keys_of_addAlias ha]; simp, fun hn => hnodup ?_⟩
    rw [keys_of_addAlias ha]
    exact List.nodup_cons.2 ⟨AliasMap.not_mem_keys.2 hnone, hn⟩

theorem nodup_of_aliases {models : List Model} {aliases : AliasMap}
    (h : t.aliases models = .ok aliases) : (models.map Model.id).Nodup := by
  obtain ⟨acc, hf, -⟩ := Result.map_eq_ok h
  obtain ⟨hkeys, hnodup⟩ := keys_of_foldlM hf
  have := hnodup List.nodup_nil
  rw [hkeys] at this
  exact ((models.map Model.id).reverse_perm.nodup_iff).1 (by simpa [AliasMap.keys] using this)

theorem mem_of_get?_aliases {models : List Model} {aliases : AliasMap}
    (h : t.aliases models = .ok aliases) {id : ModelId} {name : String}
    (hg : aliases.get? id = some name) : ∃ m ∈ models, m.id = id := by
  obtain ⟨acc, hf, rfl⟩ := Result.map_eq_ok h
  have hmem : id ∈ acc.1.keys := by
    by_contra hn
    rw [AliasMap.not_mem_keys.1 hn] at hg
    cases hg
  rw [(keys_of_foldlM hf).1] at hmem
  simpa [AliasMap.keys] using hmem

end TempTables

theorem AliasMap.require_eq {aliases : AliasMap} {name : String}
    (h : aliases.get? m.id = some name) : aliases.require m = .ok name := by
  simp only [require, h]

theorem AliasMap.require_eq_ok {aliases : AliasMap} {name : String} :
    aliases.require m = .ok name ↔ aliases.get? m.id = some name := by
  unfold require
  cases aliases.get? m.id <;> simp

end Tsql
