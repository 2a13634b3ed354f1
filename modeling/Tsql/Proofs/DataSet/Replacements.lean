import Mathlib.Data.Set.Card
import Tsql.Proofs.DataSet.SealedKeys

/-!
# Replaced columns

What replacing a column changes (`DataSet.Replaced`) and counts (`DataSet.encard_remap`). Rows have one value
for each column of their model whatever was called before (`isFull_invariant`), so a column of the model has a
cell in each of them. Numbers are looked up as the cells held them before, so that replacements may lead to
each other: `remap_substitutes`.
-/

namespace Tsql

theorem encard_positions {α : Type} (p : α → Bool) (l : List α) :
    {k : Nat | ∃ x, l[k]? = some x ∧ p x = true}.encard = l.countP p := by
  induction l with
  | nil => simp
  | cons a l ih =>
    have hsplit : {k : Nat | ∃ x, (a :: l)[k]? = some x ∧ p x = true} =
        {k | k = 0 ∧ p a = true} ∪ Nat.succ '' {k | ∃ x, l[k]? = some x ∧ p x = true} := by
      ext k
      cases k <;> simp
    have hfirst : {k : Nat | k = 0 ∧ p a = true}.encard = if p a then 1 else 0 := by
      split <;> simp_all
    rw [hsplit, Set.encard_union_eq ?_, Nat.succ_injective.encard_image, ih, hfirst, List.countP_cons]
    · split <;> simp [add_comm]
    · rw [Set.disjoint_left]
      rintro k ⟨rfl, -⟩ ⟨j, -, hj⟩
      cases hj

namespace DataSet

variable {m : Remapping} {d e : DataSet} {f : Field} {n : Nat}

/-- A data set whose cells were replaced, those of a column as often as it says. -/
structure Replaced (m : Remapping) (times : Nat → Nat) (d e : DataSet) : Prop where
  model_eq : e.model = d.model
  counter_eq : e.counter = d.counter
  suspended_eq : e.suspended = d.suspended
  isSealed_eq : e.rows.map DataRow.isSealed = d.rows.map DataRow.isSealed
  cell_eq : ∀ k i, e.cell? k i = (d.cell? k i).map m.replace^[times i]

theorem Replaced.refl (m : Remapping) (d : DataSet) : d.Replaced m (fun _ => 0) d :=
  ⟨rfl, rfl, rfl, rfl, fun _ _ => by simp⟩

theorem Replaced.trans {s t : Nat → Nat} {last : DataSet} (h : d.Replaced m s e)
    (h' : e.Replaced m t last) : d.Replaced m (fun i => t i + s i) last where
  model_eq := h'.model_eq.trans h.model_eq
  counter_eq := h'.counter_eq.trans h.counter_eq
  suspended_eq := h'.suspended_eq.trans h.suspended_eq
  isSealed_eq := h'.isSealed_eq.trans h.isSealed_eq
  cell_eq k i := by rw [h'.cell_eq, h.cell_eq, Option.map_map, Function.iterate_add]

theorem Replaced.of_remap (h : d.remap f m = .ok (n, e)) :
    d.Replaced m (fun i => if d.model.ordinal? f.id = some i then 1 else 0) e := by
  obtain ⟨o, ho, -, rfl⟩ := remap_ok h
  refine ⟨rfl, rfl, rfl, ?_, fun k i => ?_⟩
  · rw [List.map_map]
    exact List.map_congr_left fun r _ => remapRow_isSealed m o r
  · rw [cell?_remap, ho]
    by_cases hi : i = o
    · simp [hi]
    · simp [hi, Ne.symm hi]

def replaceable (m : Remapping) (d : DataSet) : Set (Nat × Nat) :=
  {p | ((d.cell? p.1 p.2).bind m.valueFor?).isSome = true}

/-- What a replacement of one column counts. -/
theorem encard_remap {i : Nat} (h : d.remap f m = .ok (n, e)) (hi : d.model.ordinal? f.id = some i) :
    {k | (k, i) ∈ d.replaceable m}.encard = n := by
  obtain ⟨o, ho, rfl, -⟩ := remap_ok h
  obtain rfl : o = i := Option.some.inj (ho.symm.trans hi)
  rw [← encard_positions]
  congr 1
  ext k
  simp only [replaceable, cell?, replacement?, Option.bind_eq_bind, Option.bind_assoc]
  cases hr : d.rows[k]? <;> simp [hr]

theorem Replaced.mem_replaceable {times : Nat → Nat} {k i : Nat} (h : d.Replaced m times e)
    (hi : times i = 0) : (k, i) ∈ e.replaceable m ↔ (k, i) ∈ d.replaceable m := by
  simp [replaceable, h.cell_eq, hi]

/-! ### Widths of rows -/

/-- The model is as it was, and a row has one value for each of its columns. -/
structure IsFull (m : Model) (d : DataSet) : Prop where
  model_eq : d.model = m
  length_eq : ∀ row ∈ d.rows, row.values.length = m.columns.length

theorem isFull_empty (m : Model) : (empty m).IsFull m := ⟨rfl, by simp [empty]⟩

theorem remapRow_length (m : Remapping) (i : Nat) (row : DataRow) :
    (remapRow m i row).values.length = row.values.length := by
  unfold remapRow
  split <;> simp

theorem IsFull.withRow {m : Model} {k : Nat} {r s : DataRow} {counter : Option IdentityCounter}
    (hd : d.IsFull m) (hr : d.rows[k]? = some r) (hs : s.values.length = r.values.length) :
    { d with rows := d.rows.set k s, counter }.IsFull m where
  model_eq := hd.model_eq
  length_eq row hrow := by
    rcases List.mem_or_eq_of_mem_set hrow with hold | rfl
    · exact hd.length_eq row hold
    · exact hs.trans (hd.length_eq r (List.mem_of_getElem? hr))

theorem isFull_invariant (m : Model) : Invariant (fun _ _ => True) (·.IsFull m) where
  addRow := by
    rintro d e k ⟨rfl, hd⟩ h
    obtain ⟨-, r, counter, -, hr, rfl⟩ := addRow_ok h
    refine ⟨rfl, fun row hrow => ?_⟩
    rcases List.mem_append.1 hrow with hold | hnew
    · exact hd row hold
    · rwa [List.mem_singleton.1 hnew]
  set hd h := by
    obtain ⟨i, r, -, hr, -, rfl⟩ := set_ok h
    exact hd.withRow hr (by simp)
  remap _ hd h := by
    obtain ⟨i, -, -, rfl⟩ := remap_ok h
    refine ⟨hd.model_eq, fun row hrow => ?_⟩
    obtain ⟨old, hold, rfl⟩ := List.mem_map.1 hrow
    rw [remapRow_length, hd.length_eq old hold]
  sealRow hd h := by
    obtain ⟨r, hr, rfl⟩ := sealRow_ok h
    exact hd.withRow hr rfl
  suspend _ hd := ⟨hd.model_eq, hd.length_eq⟩

/-! ### Substitution -/

/-- A cell holds a number that has a replacement. -/
def Maps (m : Remapping) (d : DataSet) (k i : Nat) (new : Value) : Prop :=
  ∃ v old, d.cell? k i = some v ∧ v.asInt? = some old ∧ m.get? old = some new

theorem maps_iff {k i : Nat} {new : Value} :
    d.Maps m k i new ↔ (d.cell? k i).bind m.valueFor? = some new := by
  simp only [Maps, Remapping.valueFor?, Option.bind_eq_some_iff]
  grind

theorem exists_maps_iff {k i : Nat} : (∃ new, d.Maps m k i new) ↔ (k, i) ∈ d.replaceable m := by
  simp only [maps_iff, replaceable, Set.mem_ofPred_eq, Option.isSome_iff_exists]

/-- A data set before and after a column was replaced: each cell of it whose number has a replacement holds
that, and nothing else has changed. -/
structure Substituted (m : Remapping) (i n : Nat) (d e : DataSet) : Prop where
  model_eq : e.model = d.model
  counter_eq : e.counter = d.counter
  suspended_eq : e.suspended = d.suspended
  isSealed_eq : e.rows.map DataRow.isSealed = d.rows.map DataRow.isSealed
  replaced : ∀ k new, d.Maps m k i new → e.cell? k i = some new
  kept : ∀ k j, (j = i → ∀ new, ¬ d.Maps m k i new) → e.cell? k j = d.cell? k j
  count : {k | ∃ new, d.Maps m k i new}.encard = n

theorem Substituted.of_remap {i : Nat} (h : d.remap f m = .ok (n, e))
    (hi : d.model.ordinal? f.id = some i) : d.Substituted m i n e := by
  have hall := Replaced.of_remap h
  refine ⟨hall.model_eq, hall.counter_eq, hall.suspended_eq, hall.isSealed_eq, fun k new hnew => ?_,
    fun k j hkept => ?_, ?_⟩
  · obtain ⟨v, hv, hnew⟩ := Option.bind_eq_some_iff.1 (maps_iff.1 hnew)
    simp [hall.cell_eq, hi, hv, Remapping.replace, hnew]
  · rw [hall.cell_eq]
    by_cases hj : j = i
    · subst hj
      cases hv : d.cell? k j with
      | none => rfl
      | some v =>
        have hnone : m.valueFor? v = none := by
          refine Option.eq_none_iff_forall_ne_some.2 fun new hnew => hkept rfl new ?_
          rw [maps_iff, hv, Option.bind_some, hnew]
        simp [hi, Remapping.replace, hnone]
    · simp [hi, Ne.symm hj]
  · simp only [exists_maps_iff, encard_remap h hi]

theorem exists_remap {i : Nat} (m : Remapping) (hi : d.model.ordinal? f.id = some i) :
    ∃ n e, d.remap f m = .ok (n, e) :=
  ⟨_, _, by simp only [remap, ordinal, hi]; rfl⟩

/-- Whatever was called on a data set, replacing a column of its model succeeds and is one substitution at
once: it finds a cell in each row, looks up the numbers that the cells held before, and counts the cells that
it has replaced. -/
theorem remap_substitutes {m : Model} {f : Field} (hf : ∃ c ∈ m.columns, c.id = f.id) (calls : List Call)
    (r : Remapping) :
    ∃ i, m.ordinal? f.id = some i ∧
      (∀ row ∈ ((empty m).afterAll calls).rows,
        row.values.length = m.columns.length ∧ i < row.values.length) ∧
      ∃ n e, ((empty m).afterAll calls).remap f r = .ok (n, e) ∧
        ((empty m).afterAll calls).Substituted r i n e := by
  have hfull : ((empty m).afterAll calls).IsFull m :=
    (isFull_invariant m).afterAll (fun _ _ _ => trivial) (isFull_empty m)
  obtain ⟨i, hi⟩ : ∃ i, m.ordinal? f.id = some i := by
    rw [← Option.isSome_iff_exists, Model.ordinal?, List.findIdx?_isSome]
    simpa using hf
  have hlt : i < m.columns.length := (List.findIdx?_eq_some_iff_getElem.1 hi).1
  have hordinal : ((empty m).afterAll calls).model.ordinal? f.id = some i := by rw [hfull.model_eq, hi]
  obtain ⟨n, e, h⟩ := exists_remap r hordinal
  exact ⟨i, hi, fun row hrow => ⟨hfull.length_eq row hrow, hfull.length_eq row hrow ▸ hlt⟩, n, e, h,
    .of_remap h hordinal⟩

def threeDetails : List Call :=
  [.addRowWith [(orderKey, .int32 1)], .addRowWith [(orderKey, .int32 2), (detailNote, .string "2")],
    .sealRow 0, .addRowWith [(orderKey, .int32 3)]]

/-- The first two orders change places. -/
def swapped : Remapping := ⟨[(1, .int32 2), (2, .int32 1)]⟩

theorem remap_substitutes_swapped :
    (∃ c ∈ oneDetail.model.columns, c.id = orderKey.id) ∧
      ∃ e, ((empty oneDetail.model).afterAll threeDetails).remap orderKey swapped = .ok (2, e) ∧
        e.rows.map DataRow.isSealed = [true, false, false] ∧
        e.cell? 0 0 = some (.int32 2) ∧ e.cell? 1 0 = some (.int32 1) ∧ e.cell? 2 0 = some (.int32 3) ∧
        e.cell? 1 1 = some (.string "2") := by
  have hcolumn : ∃ c ∈ oneDetail.model.columns, c.id = orderKey.id := ⟨_, List.mem_cons_self, rfl⟩
  obtain ⟨i, hi, -, n, e, h, hsubst⟩ := remap_substitutes hcolumn threeDetails swapped
  obtain rfl : 0 = i := Option.some.inj hi
  obtain rfl : 2 = n := congrArg Prod.fst (Except.ok.inj h)
  refine ⟨hcolumn, e, h, hsubst.isSealed_eq.trans (by decide), ?_, ?_, ?_, ?_⟩
  · exact hsubst.replaced 0 (.int32 2) ⟨.int32 1, 1, by decide⟩
  · exact hsubst.replaced 1 (.int32 1) ⟨.int32 2, 2, by decide⟩
  · have hnone : (((empty oneDetail.model).afterAll threeDetails).cell? 2 0).bind swapped.valueFor? =
        none := by decide
    refine (hsubst.kept 2 0 fun _ new => ?_).trans (by decide)
    simp [maps_iff, hnone]
  · exact (hsubst.kept 1 1 fun h => absurd h (by decide)).trans (by decide)

end DataSet

end Tsql
