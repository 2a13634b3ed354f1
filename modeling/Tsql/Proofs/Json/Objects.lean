import Mathlib.Tactic.SplitIfs
import Tsql.Json.Basic

/-!
# Fields of objects

What a field holds after others were entered.
-/

namespace Tsql.Json

def intField? (key : String) : Json → Option Int
  | .object fields => match getField? key fields with
    | some (.number (.integer i)) => some i
    | _ => none
  | _ => none

theorem getField?_putField_self (key : String) (value : Json) (fields : List (String × Json)) :
    getField? key (putField key value fields) = some value := by
  induction fields with
  | nil => simp [putField, getField?]
  | cons f r ih =>
    obtain ⟨k, v⟩ := f
    unfold putField
    split_ifs with h
    · simp [getField?]
    · simp [getField?]
    · rw [getField?, if_neg fun e => h e.symm, ih]

theorem getField?_putField_of_ne {key other : String} (h : other ≠ key) (value : Json)
    (fields : List (String × Json)) :
    getField? other (putField key value fields) = getField? other fields := by
  induction fields with
  | nil => simp [putField, getField?, h.symm]
  | cons f r ih =>
    obtain ⟨k, v⟩ := f
    unfold putField
    split_ifs with hk
    · subst hk
      simp [getField?, h.symm]
    · simp [getField?, h.symm]
    · rw [getField?, getField?, ih]

theorem getField?_foldl_putField {key : String} {fields : List (String × Json)}
    (h : ∀ f ∈ fields, f.1 ≠ key) (entered : List (String × Json)) :
    getField? key (fields.foldl (fun acc (k, v) => putField k v acc) entered) =
      getField? key entered := by
  induction fields generalizing entered with
  | nil => rfl
  | cons f r ih =>
    rw [List.foldl_cons, ih (fun g hg => h g (by simp [hg]))]
    exact getField?_putField_of_ne (h f (by simp)).symm _ _

/-- An entry holds where none of its key is entered later. -/
theorem getField?_orderFields {key : String} {value : Json} {before after : List (String × Json)}
    (h : ∀ f ∈ after, f.1 ≠ key) :
    getField? key (orderFields (before ++ (key, value) :: after)) = some value := by
  rw [orderFields, List.foldl_append, List.foldl_cons, getField?_foldl_putField h]
  exact getField?_putField_self key value _

/-- The first field of an object is kept where no other has its key. -/
theorem getField?_orderFields_head {key : String} {value : Json} {fields : List (String × Json)}
    (h : ∀ f ∈ fields, f.1 ≠ key) :
    getField? key (orderFields ((key, value) :: fields)) = some value :=
  @getField?_orderFields key value [] fields h

theorem getField?_orderFields_eq_none {key : String} {fields : List (String × Json)}
    (h : ∀ f ∈ fields, f.1 ≠ key) : getField? key (orderFields fields) = none := by
  rw [orderFields, getField?_foldl_putField h]
  rfl

end Tsql.Json
