import Mathlib.Data.List.Induction
import Mathlib.Data.List.Nodup
import Tsql.Session.BulkInsert

/-!
# Replacements from pairs

What the replacement of old keys by new ones holds once all pairs are entered.
-/

namespace Tsql.Remapping

theorem get?_insert_self (m : Remapping) (old : Int) (new : Value) :
    (m.insert old new).get? old = some new := by
  simp [get?, insert]

theorem get?_insert_of_ne (m : Remapping) {i old : Int} (h : i ≠ old) (new : Value) :
    (m.insert old new).get? i = m.get? i := by
  have hb : (i == old) = false := by simpa using h
  rw [get?, insert, List.lookup_cons, hb]
  show List.lookup i (m.entries.filter fun e => e.1 ≠ old) = m.entries.lookup i
  induction m.entries with
  | nil => rfl
  | cons e r ih =>
    obtain ⟨j, v⟩ := e
    by_cases hj : j = old
    · subst hj
      simpa [List.lookup_cons, hb] using ih
    · rw [List.filter_cons_of_pos (by simpa using hj), List.lookup_cons, List.lookup_cons, ih]

theorem ofPairs_concat (pairs : List KeyPair) (p : KeyPair) :
    ofPairs (pairs ++ [p]) = (ofPairs pairs).insert p.1 p.2 := by
  simp [ofPairs]

theorem get?_ofPairs {pairs : List KeyPair} {old : Int} {new : Value} (hm : (old, new) ∈ pairs)
    (h : ∀ p ∈ pairs, p.1 = old → p.2 = new) : (ofPairs pairs).get? old = some new := by
  induction pairs using List.reverseRecOn with
  | nil => simp at hm
  | append_singleton rest p ih =>
    rw [ofPairs_concat]
    by_cases hp : p.1 = old
    · rw [← h p (by simp) hp, hp]
      exact get?_insert_self _ _ _
    · rw [get?_insert_of_ne _ (Ne.symm hp)]
      refine ih ?_ fun q hq => h q (by simp [hq])
      rcases List.mem_append.1 hm with hm | hm
      · exact hm
      · exact absurd (congrArg Prod.fst (List.mem_singleton.1 hm)).symm hp

theorem get?_ofPairs_eq_none {pairs : List KeyPair} {old : Int}
    (h : ∀ p ∈ pairs, p.1 ≠ old) : (ofPairs pairs).get? old = none := by
  induction pairs using List.reverseRecOn with
  | nil => rfl
  | append_singleton rest p ih =>
    rw [ofPairs_concat, get?_insert_of_ne _ (h p (by simp)).symm]
    exact ih fun q hq => h q (by simp [hq])

/-- Pairs that give each old key one new key are the graph of the replacement. -/
theorem get?_ofPairs_iff {pairs : List KeyPair}
    (h : ∀ p ∈ pairs, ∀ q ∈ pairs, p.1 = q.1 → p.2 = q.2) {old : Int} {new : Value} :
    (ofPairs pairs).get? old = some new ↔ (old, new) ∈ pairs := by
  constructor
  · intro hg
    by_cases hm : ∀ p ∈ pairs, p.1 ≠ old
    · rw [get?_ofPairs_eq_none hm] at hg
      cases hg
    · push Not at hm
      obtain ⟨p, hp, rfl⟩ := hm
      have hget : (ofPairs pairs).get? p.1 = some p.2 :=
        get?_ofPairs hp fun q hq hk => h q hq p hp hk
      rwa [← Option.some.inj (hget.symm.trans hg)]
  · intro hm
    exact get?_ofPairs hm fun p hp hk => h p hp _ hm hk

/-- Pairs of different old keys are all entered. -/
theorem entries_ofPairs {pairs : List KeyPair} (h : (pairs.map Prod.fst).Nodup) :
    (ofPairs pairs).entries = pairs.reverse := by
  induction pairs using List.reverseRecOn with
  | nil => rfl
  | append_singleton rest p ih =>
    rw [List.map_append, List.nodup_append] at h
    obtain ⟨hrest, -, hne⟩ := h
    rw [ofPairs_concat, insert, ih hrest, List.reverse_append]
    have hkeep : (rest.reverse.filter fun e => e.1 ≠ p.1) = rest.reverse := by
      rw [List.filter_eq_self]
      intro q hq
      have := hne q.1 (List.mem_map_of_mem (List.mem_reverse.1 hq)) p.1 (by simp)
      simpa using this
    rw [hkeep]
    rfl

theorem size_ofPairs {pairs : List KeyPair} (h : (pairs.map Prod.fst).Nodup) :
    (ofPairs pairs).size = pairs.length := by
  rw [size, entries_ofPairs h, List.length_reverse]

end Tsql.Remapping
