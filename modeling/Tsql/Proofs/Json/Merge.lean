import Mathlib.Data.List.Induction
import Mathlib.Data.String.Basic
import Tsql.Proofs.Json.Objects

/-!
# Objects laid over objects

A normalized object has its keys in ascending order, each once, so that laying it over another object is
decided key by key (`getField?_mergeFields`): a key of the upper object is merged with the entry below it, any
other key keeps its entry. What a key of an object that was read comes to is its last entry, `lastField?`.
-/

namespace Tsql.Json

/-- The keys ascend, so none occurs twice. -/
def Ascending (fields : List (String × Json)) : Prop := fields.Pairwise fun f g => f.1 < g.1

theorem mem_putField {key : String} {value : Json} {fields : List (String × Json)} {f : String × Json}
    (hf : f ∈ putField key value fields) : f = (key, value) ∨ f ∈ fields := by
  induction fields with
  | nil => exact .inl (List.mem_singleton.1 hf)
  | cons g rest ih =>
    obtain ⟨k, v⟩ := g
    unfold putField at hf
    split_ifs at hf
    · rcases List.mem_cons.1 hf with rfl | hf
      · exact .inl rfl
      · exact .inr (List.mem_cons_of_mem _ hf)
    · rcases List.mem_cons.1 hf with rfl | hf
      · exact .inl rfl
      · exact .inr hf
    · rcases List.mem_cons.1 hf with rfl | hf
      · exact .inr List.mem_cons_self
      · exact (ih hf).imp_right (List.mem_cons_of_mem _)

theorem ascending_putField (key : String) (value : Json) {fields : List (String × Json)}
    (h : Ascending fields) : Ascending (putField key value fields) := by
  induction fields with
  | nil => exact List.pairwise_singleton _ _
  | cons g rest ih =>
    obtain ⟨k, v⟩ := g
    obtain ⟨hfirst, hrest⟩ := List.pairwise_cons.1 h
    unfold putField
    split_ifs with heq hlt
    · exact List.pairwise_cons.2 ⟨fun f hf => heq ▸ hfirst f hf, hrest⟩
    · refine List.pairwise_cons.2 ⟨fun f hf => ?_, h⟩
      rcases List.mem_cons.1 hf with rfl | hf
      · exact hlt
      · exact lt_trans hlt (hfirst f hf)
    · refine List.pairwise_cons.2 ⟨fun f hf => ?_, ih hrest⟩
      rcases mem_putField hf with rfl | hf
      · exact lt_of_le_of_ne (not_lt.1 hlt) (Ne.symm heq)
      · exact hfirst f hf

theorem ascending_orderFields (fields : List (String × Json)) : Ascending (orderFields fields) := by
  have hentered {entered : List (String × Json)} (h : Ascending entered) :
      Ascending (fields.foldl (fun acc f => putField f.1 f.2 acc) entered) := by
    induction fields generalizing entered with
    | nil => exact h
    | cons f rest ih => exact ih (ascending_putField f.1 f.2 h)
  exact hentered .nil

theorem getField?_eq_none {key : String} {fields : List (String × Json)} (h : ∀ f ∈ fields, f.1 ≠ key) :
    getField? key fields = none := by
  induction fields with
  | nil => rfl
  | cons f rest ih =>
    rw [getField?, if_neg (h f (by simp)), ih fun g hg => h g (by simp [hg])]

/-- An entry of the upper object is merged with the entry of its key; other entries stay. -/
theorem getField?_mergeFields (key : String) (base : List (String × Json)) {upper : List (String × Json)}
    (h : Ascending upper) : getField? key (mergeFields base upper) =
      match getField? key upper with
      | some v => some (mergeOption (getField? key base) v)
      | none => getField? key base := by
  induction upper generalizing base with
  | nil =>
    rw [mergeFields]
    rfl
  | cons f rest ih =>
    obtain ⟨k, v⟩ := f
    obtain ⟨hfirst, hrest⟩ := List.pairwise_cons.1 h
    rw [mergeFields, ih _ hrest, getField?]
    by_cases hk : k = key
    · subst hk
      have hnone : getField? k rest = none := getField?_eq_none fun g hg => (hfirst g hg).ne'
      rw [hnone, if_pos rfl]
      exact getField?_putField_self k _ base
    · rw [if_neg hk, getField?_putField_of_ne (Ne.symm hk)]

def lastField? (key : String) (fields : List (String × Json)) : Option Json := getField? key fields.reverse

theorem getField?_orderFields_eq_last (key : String) (fields : List (String × Json)) :
    getField? key (orderFields fields) = lastField? key fields := by
  induction fields using List.reverseRecOn with
  | nil => rfl
  | append_singleton rest f ih =>
    obtain ⟨k, v⟩ := f
    rw [lastField?, List.reverse_append, List.reverse_singleton, List.singleton_append, getField?]
    show getField? key (List.foldl _ [] (rest ++ [(k, v)])) = _
    rw [List.foldl_append]
    show getField? key (putField k v (orderFields rest)) = _
    by_cases hk : k = key
    · subst hk
      rw [getField?_putField_self, if_pos rfl]
    · rw [getField?_putField_of_ne (Ne.symm hk), ih, if_neg hk]
      rfl

theorem normalizeFields_eq_map (fields : List (String × Json)) :
    normalizeFields fields = fields.map fun f => (f.1, f.2.normalize) := by
  induction fields with
  | nil => rfl
  | cons f rest ih => rw [normalizeFields, ih, List.map_cons]

theorem lastField?_normalizeFields (key : String) (fields : List (String × Json)) :
    lastField? key (normalizeFields fields) = (lastField? key fields).map normalize := by
  rw [lastField?, lastField?, normalizeFields_eq_map, ← List.map_reverse]
  induction fields.reverse with
  | nil => rfl
  | cons f rest ih =>
    rw [List.map_cons, getField?, getField?, ih]
    split <;> rfl

end Tsql.Json
