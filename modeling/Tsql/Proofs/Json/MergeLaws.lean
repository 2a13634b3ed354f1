import Mathlib.Data.List.Sort
import Tsql.Proofs.Json.Merge

/-!
# Laws of merging

The values that are merged have their keys in order (`Ordered`), as every value that is read has
(`ordered_normalize`). So an object is known by what its keys hold (`Ascending.ext`), and merging, which
goes through the fields of the upper object one by one, can be compared key by key: `merge_laws`.
-/

namespace Tsql.Json

variable {fields others : List (String × Json)} {a b : Json}

/-! ### Objects as maps -/

theorem Ascending.getField?_eq_some_iff (h : Ascending fields) {key : String} {value : Json} :
    getField? key fields = some value ↔ (key, value) ∈ fields := by
  induction fields with
  | nil => simp [getField?]
  | cons f rest ih =>
    obtain ⟨k, v⟩ := f
    obtain ⟨hfirst, hrest⟩ := List.pairwise_cons.1 h
    rw [getField?, List.mem_cons, ← ih hrest]
    by_cases hk : k = key
    · subst hk
      have hnone : getField? k rest = none := getField?_eq_none fun g hg => (hfirst g hg).ne'
      simp [hnone, eq_comm]
    · simp [hk, Ne.symm hk]

theorem Ascending.ext (h : Ascending fields) (h' : Ascending others)
    (heq : ∀ key, getField? key fields = getField? key others) : fields = others := by
  have : Std.Irrefl fun f g : String × Json => f.1 < g.1 := ⟨fun f => lt_irrefl f.1⟩
  have : Std.Antisymm fun f g : String × Json => f.1 < g.1 := ⟨fun f g hfg hgf => absurd hfg hgf.not_gt⟩
  refine h.eq_of_mem_iff h' fun ⟨key, value⟩ => ?_
  rw [← h.getField?_eq_some_iff, ← h'.getField?_eq_some_iff, heq]

/-- The keys of all objects inside a value are in order. -/
inductive Ordered : Json → Prop where
  | null : Ordered .null
  | bool (b : Bool) : Ordered (.bool b)
  | number (n : JsonNumber) : Ordered (.number n)
  | string (s : String) : Ordered (.string s)
  | array {items : List Json} (h : ∀ j ∈ items, Ordered j) : Ordered (.array items)
  | object {fields : List (String × Json)} (h : Ascending fields) (hv : ∀ f ∈ fields, Ordered f.2) :
    Ordered (.object fields)

theorem Ordered.of_object (h : Ordered (.object fields)) :
    Ascending fields ∧ ∀ f ∈ fields, Ordered f.2 := by
  cases h with
  | object h hv => exact ⟨h, hv⟩

def IsObject (j : Json) : Prop := ∃ fields, j = .object fields

/-- Induction over objects inside of objects; arrays are not gone into. -/
theorem Ordered.byObjects {motive : ∀ j : Json, j.Ordered → Prop}
    (plain : ∀ (j : Json) (h : j.Ordered), ¬ j.IsObject → motive j h)
    (object : ∀ (fields : List (String × Json)) (h : Ascending fields) (hv : ∀ f ∈ fields, Ordered f.2),
      (∀ f (hf : f ∈ fields), motive f.2 (hv f hf)) → motive (.object fields) (.object h hv))
    {j : Json} (h : j.Ordered) : motive j h := by
  induction h with
  | object h hv ih => exact object _ h hv ih
  | _ =>
    apply plain
    rintro ⟨_, ⟨⟩⟩

theorem mem_orderFields {f : String × Json} (hf : f ∈ orderFields fields) : f ∈ fields := by
  induction fields using List.reverseRecOn with
  | nil => exact hf
  | append_singleton rest g ih =>
    rw [orderFields, List.foldl_append] at hf
    rcases mem_putField hf with rfl | hf
    · simp
    · exact List.mem_append_left _ (ih hf)

mutual

/-- A value that was read is in order. -/
theorem ordered_normalize (j : Json) : j.normalize.Ordered := by
  cases j with
  | array items => exact .array (ordered_normalizeItems items)
  | object fields =>
    exact .object (ascending_orderFields _) fun f hf => ordered_normalizeFields fields f (mem_orderFields hf)
  | null => exact .null
  | bool b => exact .bool b
  | number n => exact .number n
  | string s => exact .string s

theorem ordered_normalizeItems (items : List Json) : ∀ j ∈ normalizeItems items, j.Ordered := by
  cases items with
  | nil => simp [normalizeItems]
  | cons j rest =>
    rw [normalizeItems]
    exact List.forall_mem_cons.2 ⟨ordered_normalize j, ordered_normalizeItems rest⟩

theorem ordered_normalizeFields (fields : List (String × Json)) :
    ∀ f ∈ normalizeFields fields, f.2.Ordered := by
  match fields with
  | [] => simp [normalizeFields]
  | (k, v) :: rest =>
    rw [normalizeFields]
    exact List.forall_mem_cons.2 ⟨ordered_normalize v, ordered_normalizeFields rest⟩

end

/-! ### Merging -/

def field? (key : String) : Json → Option Json
  | .object fields => getField? key fields
  | _ => none

def keys (j : Json) : Set String := {key | (j.field? key).isSome = true}

@[simp] theorem merge_objects (fields upper : List (String × Json)) :
    merge (.object fields) (.object upper) = .object (mergeFields fields upper) := by
  rw [merge]

/-- Unless both are objects the upper value takes the place of the other one. -/
theorem merge_eq_upper (h : ¬ (a.IsObject ∧ b.IsObject)) : merge a b = b := by
  cases b with
  | object upper =>
    cases a with
    | object fields => exact absurd ⟨⟨_, rfl⟩, _, rfl⟩ h
    | _ =>
      rw [merge]
      rintro _ ⟨⟩
  | _ =>
    rw [merge]
    rintro _ ⟨⟩

/-- What a key of merged objects holds: its two entries merged, or the only one. -/
def mergeEntries : Option Json → Option Json → Option Json
  | some v, some w => some (merge v w)
  | some v, none => some v
  | none, w => w

theorem mergeEntries_eq_some {below above : Option Json} {value : Json}
    (h : mergeEntries below above = some value) : below = some value ∨ above = some value ∨
      ∃ v w, below = some v ∧ above = some w ∧ value = merge v w := by
  cases below <;> cases above <;> simp_all [mergeEntries, eq_comm]

theorem isSome_mergeEntries {below above : Option Json} :
    (mergeEntries below above).isSome = true ↔ below.isSome = true ∨ above.isSome = true := by
  cases below <;> cases above <;> simp [mergeEntries]

theorem getField?_mergeFields_eq (hothers : Ascending others) (key : String) :
    getField? key (mergeFields fields others) =
      mergeEntries (getField? key fields) (getField? key others) := by
  rw [getField?_mergeFields key fields hothers]
  cases getField? key others <;> cases getField? key fields <;> simp [mergeEntries, mergeOption]

theorem ascending_mergeFields (h : Ascending fields) (upper : List (String × Json)) :
    Ascending (mergeFields fields upper) := by
  induction upper generalizing fields with
  | nil => rwa [mergeFields]
  | cons f rest ih =>
    obtain ⟨k, v⟩ := f
    rw [mergeFields]
    exact ih (ascending_putField k _ h)

theorem Ordered.merge (ha : a.Ordered) (hb : b.Ordered) : (merge a b).Ordered := by
  induction hb using Ordered.byObjects generalizing a with
  | plain b hb hplain => rwa [merge_eq_upper fun h => hplain h.2]
  | object upper hupper hv ih =>
    by_cases h : a.IsObject
    · obtain ⟨fields, rfl⟩ := h
      obtain ⟨hfields, hvalues⟩ := ha.of_object
      have hmerged := ascending_mergeFields hfields upper
      rw [merge_objects]
      refine .object hmerged fun ⟨key, value⟩ hmem => ?_
      have hget := hmerged.getField?_eq_some_iff.2 hmem
      rw [getField?_mergeFields_eq hupper] at hget
      rcases mergeEntries_eq_some hget with hbelow | habove | ⟨v, w, hbelow, habove, rfl⟩
      · exact hvalues _ (hfields.getField?_eq_some_iff.1 hbelow)
      · exact hv _ (hupper.getField?_eq_some_iff.1 habove)
      · exact ih (key, w) (hupper.getField?_eq_some_iff.1 habove)
          (hvalues (key, v) (hfields.getField?_eq_some_iff.1 hbelow))
    · rw [merge_eq_upper fun hboth => h hboth.1]
      exact .object hupper hv

theorem merge_self (ha : a.Ordered) : merge a a = a := by
  induction ha using Ordered.byObjects with
  | plain a ha hplain => exact merge_eq_upper fun h => hplain h.1
  | object fields h hv ih =>
    rw [merge_objects]
    refine congrArg Json.object ((ascending_mergeFields h fields).ext h fun key => ?_)
    rw [getField?_mergeFields_eq h]
    cases hentry : getField? key fields with
    | none => rfl
    | some v => exact congrArg some (ih (key, v) (h.getField?_eq_some_iff.1 hentry))

/-- What lies above already changes nothing when it is laid over once more. -/
theorem merge_merge (ha : a.Ordered) (hb : b.Ordered) : merge (merge a b) b = merge a b := by
  induction hb using Ordered.byObjects generalizing a with
  | plain b hb hplain => rw [merge_eq_upper fun h => hplain h.2, merge_eq_upper fun h => hplain h.2]
  | object upper hupper hv ih =>
    by_cases h : a.IsObject
    · obtain ⟨fields, rfl⟩ := h
      obtain ⟨hfields, hvalues⟩ := ha.of_object
      have hmerged := ascending_mergeFields hfields upper
      rw [merge_objects, merge_objects]
      refine congrArg Json.object ((ascending_mergeFields hmerged upper).ext hmerged fun key => ?_)
      rw [getField?_mergeFields_eq hupper, getField?_mergeFields_eq hupper]
      cases habove : getField? key upper with
      | none => cases getField? key fields <;> rfl
      | some w =>
        have hw := hupper.getField?_eq_some_iff.1 habove
        cases hbelow : getField? key fields with
        | none => exact congrArg some (merge_self (hv _ hw))
        | some v =>
          exact congrArg some (ih _ hw (hvalues (key, v) (hfields.getField?_eq_some_iff.1 hbelow)))
    · rw [merge_eq_upper (a := a) fun hboth => h hboth.1]
      exact merge_self (.object hupper hv)

/-- Merging is decided key by key; laying a value over itself, an empty object over an object, or a value
over what it was laid over already changes nothing. -/
theorem merge_laws {a b : Json} (ha : a.Ordered) (hb : b.Ordered) :
    (¬ (a.IsObject ∧ b.IsObject) → merge a b = b) ∧
      (a.IsObject → b.IsObject → (merge a b).IsObject ∧ (merge a b).keys = a.keys ∪ b.keys ∧
        ∀ key, (merge a b).field? key = mergeEntries (a.field? key) (b.field? key)) ∧
      (merge a b).Ordered ∧
      merge a a = a ∧
      (a.IsObject → merge a (.object []) = a) ∧
      merge (merge a b) b = merge a b := by
  refine ⟨merge_eq_upper, ?_, ha.merge hb, merge_self ha, ?_, merge_merge ha hb⟩
  · rintro ⟨fields, rfl⟩ ⟨upper, rfl⟩
    have hentry (key : String) : (merge (.object fields) (.object upper)).field? key =
        mergeEntries (getField? key fields) (getField? key upper) := by
      rw [merge_objects]
      exact getField?_mergeFields_eq hb.of_object.1 key
    refine ⟨⟨_, merge_objects _ _⟩, Set.ext fun key => ?_, hentry⟩
    rw [Set.mem_union, keys, Set.mem_ofPred_eq, hentry, isSome_mergeEntries]
    rfl
  · rintro ⟨fields, rfl⟩
    rw [merge_objects, mergeFields]

/-- An object with an object and an array inside. -/
def nested : Json :=
  .object [("list", .array [ofInt 1, ofInt 2]), ("outer", .object [("a", ofInt 1), ("b", ofInt 2)])]

def overNested : Json :=
  .object [("flag", .bool true), ("list", .array []), ("outer", .object [("b", .object []), ("c", .null)])]

theorem merge_laws_nested :
    nested.Ordered ∧ overNested.Ordered ∧
      (merge nested overNested).keys = nested.keys ∪ overNested.keys ∧
      merge nested overNested = .object [("flag", .bool true), ("list", .array []),
        ("outer", .object [("a", ofInt 1), ("b", .object []), ("c", .null)])] ∧
      merge (merge nested overNested) overNested = merge nested overNested := by
  have hnested : nested.Ordered := by
    rw [show nested = nested.normalize by rfl]
    exact ordered_normalize _
  have hover : overNested.Ordered := by
    rw [show overNested = overNested.normalize by rfl]
    exact ordered_normalize _
  obtain ⟨-, hobjects, -, -, -, hagain⟩ := merge_laws hnested hover
  exact ⟨hnested, hover, (hobjects ⟨_, rfl⟩ ⟨_, rfl⟩).2.1, by cbv, hagain⟩

end Tsql.Json
