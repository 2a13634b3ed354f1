import Tsql.Naming.TempTables
import Tsql.Proofs.Naming.Unique

/-!
# Names of temporary tables, after changes

What the names are after one table is realized or forgotten. A registry is kept by another one that
has all its names; what else the other one has does not matter to whoever looks these names up.
-/

namespace Tsql.TempTables

open Text

variable {t less more : TempTables} {m : Model} {id : ModelId} {name : String}

theorem require_eq_ok : t.require m = .ok name ↔ t.get? m.id = some name := by
  unfold require
  cases t.get? m.id <;> simp

theorem exists_get? : (∃ name, t.get? id = some name) ↔ id ∈ t.names.map Prod.fst := by
  rw [← Option.isSome_iff_exists, get?, List.lookup_isSome_iff, List.mem_map]
  constructor
  · rintro ⟨e, he, hid⟩
    exact ⟨e, he, (beq_iff_eq.1 hid).symm⟩
  · rintro ⟨e, he, rfl⟩
    exact ⟨e, he, beq_self_eq_true _⟩

/-- A new name is a mark and a name that was not used before. -/
theorem realize_of_new (hnew : t.get? m.id = none) :
    t.realize m = ("#" ++ (t.supply.next m.name).1,
      ⟨(m.id, "#" ++ (t.supply.next m.name).1) :: t.names, (t.supply.next m.name).2⟩) := by
  unfold realize
  rw [hnew]

theorem used_realize (hnew : t.get? m.id = none) :
    t.supply.used ⊆ (t.realize m).2.supply.used := by
  rw [realize_of_new hnew, UniqueNames.used_next]
  exact List.subset_cons_self _ _

theorem get?_realize_self (hnew : t.get? m.id = none) :
    (t.realize m).2.get? m.id = some ("#" ++ (t.supply.next m.name).1) := by
  rw [realize_of_new hnew, get?, List.lookup_cons_self]

theorem lowercase_marked (stem : String) : lowercase ("#" ++ stem) = "#" ++ lowercase stem := by
  have hmark : IsCaseless '#' := by
    refine ⟨by decide, by decide, by decide, ?_, ?_⟩ <;> decide +kernel
  apply String.toList_injective
  have hstem := lowercaseAfter_behind hmark [] [] stem.toList
  rw [List.nil_append] at hstem
  simp [lowercase, lowercaseAfter, hstem, hmark.2.2.1]

theorem get?_realize_of_ne (t : TempTables) (hne : id ≠ m.id) :
    (t.realize m).2.get? id = t.get? id := by
  unfold realize
  split
  · rfl
  · rw [get?, List.lookup_cons, beq_eq_false_iff_ne.2 hne]
    rfl

theorem get?_forget_of_ne (t : TempTables) {other : ModelId} (hne : id ≠ other) :
    (t.forget other).get? id = t.get? id := by
  rw [get?, get?, forget]
  induction t.names with
  | nil => rfl
  | cons e rest ih =>
    obtain ⟨i, name⟩ := e
    by_cases hi : i = other
    · subst hi
      rw [List.filter_cons_of_neg (by simp), List.lookup_cons, beq_eq_false_iff_ne.2 hne]
      exact ih
    · rw [List.filter_cons_of_pos (by simpa using hi), List.lookup_cons, List.lookup_cons, ih]

/-- A new name that is taken back is still given away. -/
theorem forget_realize_of_new (hnew : t.get? m.id = none) :
    (t.realize m).2.forget m.id = { t with supply := (t.supply.next m.name).2 } := by
  have hother : t.names.filter (fun e => e.1 ≠ m.id) = t.names := by
    rw [List.filter_eq_self]
    intro e he
    have hne := List.lookup_eq_none_iff.1 hnew e he
    exact decide_eq_true (bne_iff_ne.1 hne).symm
  rw [realize_of_new hnew]
  show TempTables.mk (List.filter _ (_ :: t.names)) _ = _
  rw [List.filter_cons_of_neg (by simp), hother]

/-- The tables of the first registry have the same names in the second. -/
def IsKeptBy (less more : TempTables) : Prop :=
  ∀ id name, less.get? id = some name → more.get? id = some name

namespace IsKeptBy

theorem realize (hnew : t.get? m.id = none) : t.IsKeptBy (t.realize m).2 := by
  intro id name h
  have hne : id ≠ m.id := by
    rintro rfl
    rw [hnew] at h
    cases h
  rw [get?_realize_of_ne t hne, h]

/-- A name that is given and taken back leaves the others alone. -/
theorem forget_realize (hnew : t.get? m.id = none) : t.IsKeptBy ((t.realize m).2.forget m.id) := by
  intro id name h
  have hne : id ≠ m.id := by
    rintro rfl
    rw [hnew] at h
    cases h
  rw [get?_forget_of_ne _ hne, get?_realize_of_ne t hne, h]

end IsKeptBy

end Tsql.TempTables
