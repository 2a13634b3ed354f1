import Tsql.DataSet
import Tsql.Proofs.Result

/-!
# Operations on data sets

What each operation leaves behind where it succeeds: `addRow_ok`, `set_ok`, `sealRow_ok`, `remap_ok`,
with the cells that it leaves alone. A program is a list of calls (`DataSet.Call`); it goes on where a
call fails. Whether the counter rests is changed by calls of their own, so that one list holds what is
done inside of a suspension and outside (`whileSuspended_afterAll`). `DataSet.Invariant` lists the
changes that calls make; a property that goes through each of them holds after any calls.
-/

namespace Tsql

theorem Model.ordinal?_injective {m : Model} {a b : ColumnId} {i : Nat} (ha : m.ordinal? a = some i)
    (hb : m.ordinal? b = some i) : a = b := by
  obtain ⟨_, ha, -⟩ := List.findIdx?_eq_some_iff_getElem.1 ha
  obtain ⟨_, hb, -⟩ := List.findIdx?_eq_some_iff_getElem.1 hb
  exact (beq_iff_eq.1 ha).symm.trans (beq_iff_eq.1 hb)

/-- What becomes of a value where a replacement is made. -/
def Remapping.replace (m : Remapping) (v : Value) : Value := (m.valueFor? v).getD v

namespace DataSet

variable {d e : DataSet} {row : Nat} {f : Field} {v : Value} {m : Remapping}

theorem ordinal_ok {i : Nat} (h : d.ordinal f = .ok i) : d.model.ordinal? f.id = some i := by
  unfold ordinal at h
  split at h
  next ho => rwa [← Except.ok.inj h]
  · cases h

theorem addRow_ok (h : d.addRow = .ok (row, e)) : row = d.size ∧
    ∃ r counter, r.isSealed = false ∧ r.values.length = d.model.columns.length ∧
      e = { d with rows := d.rows ++ [r], counter } := by
  unfold addRow at h
  split at h
  · obtain ⟨⟨i, v⟩, -, h⟩ := Result.bind_eq_ok h
    obtain ⟨rfl, rfl⟩ := Prod.mk.inj (Except.ok.inj h)
    exact ⟨rfl, _, _, rfl, by simp, rfl⟩
  · obtain ⟨rfl, rfl⟩ := Prod.mk.inj (Except.ok.inj h)
    exact ⟨rfl, _, _, rfl, by simp, rfl⟩

theorem set_ok (h : d.set row f v = .ok e) : ∃ i r, d.model.ordinal? f.id = some i ∧
    d.rows[row]? = some r ∧ (r.isSealed && d.model.isKeyColumn f.id) = false ∧
    e = { d with
      rows := d.rows.set row { r with values := r.values.set i v }, counter := d.observed i v } := by
  unfold set at h
  obtain ⟨i, hi, h⟩ := Result.bind_eq_ok h
  split at h
  · cases h
  next r hr =>
    split at h
    · cases h
    next hfree =>
      exact ⟨i, r, ordinal_ok hi, hr, Bool.eq_false_iff.2 hfree, (Except.ok.inj h).symm⟩

theorem sealRow_ok (h : d.sealRow row = .ok e) : ∃ r, d.rows[row]? = some r ∧
    e = { d with rows := d.rows.set row { r with isSealed := true } } := by
  unfold sealRow at h
  split at h
  · cases h
  next r hr => exact ⟨r, hr, (Except.ok.inj h).symm⟩

theorem remap_ok {n : Nat} (h : d.remap f m = .ok (n, e)) : ∃ i, d.model.ordinal? f.id = some i ∧
    n = d.rows.countP (fun r => (replacement? m i r).isSome) ∧
    e = { d with rows := d.rows.map (remapRow m i) } := by
  obtain ⟨i, hi, h⟩ := Result.bind_eq_ok h
  obtain ⟨rfl, rfl⟩ := Prod.mk.inj (Except.ok.inj h)
  exact ⟨i, ordinal_ok hi, rfl, rfl⟩

/-! ### Cells -/

theorem value?_eq_of_cell? (hm : e.model = d.model)
    (h : ∀ i, d.model.ordinal? f.id = some i → e.cell? row i = d.cell? row i) :
    e.value? row f = d.value? row f := by
  unfold value?
  rw [hm]
  cases hi : d.model.ordinal? f.id with
  | none => rfl
  | some i => exact h i hi

theorem cell?_append (d : DataSet) (r : DataRow) (counter : Option IdentityCounter) (k i : Nat) :
    { d with rows := d.rows ++ [r], counter }.cell? k i =
      if k = d.size then r.values[i]? else d.cell? k i := by
  rcases Nat.lt_trichotomy k d.size with hlt | rfl | hgt
  · simp only [cell?]
    rw [List.getElem?_append_left hlt, if_neg (Nat.ne_of_lt hlt)]
  · simp [cell?, size]
  · simp only [cell?]
    rw [List.getElem?_append_right (Nat.le_of_lt hgt), if_neg (Nat.ne_of_gt hgt),
      List.getElem?_eq_none (Nat.le_of_lt hgt), List.getElem?_eq_none (Nat.sub_pos_of_lt hgt)]

theorem cell?_set {r : DataRow} (hr : d.rows[row]? = some r) (s : DataRow)
    (counter : Option IdentityCounter) (k i : Nat) :
    { d with rows := d.rows.set row s, counter }.cell? k i =
      if k = row then s.values[i]? else d.cell? k i := by
  have hlt := (List.getElem?_eq_some_iff.1 hr).1
  by_cases hk : k = row
  · subst hk
    simp [cell?, hlt]
  · simp [cell?, List.getElem?_set_ne (Ne.symm hk), hk]

/-- A replacement changes the cells of one column. -/
theorem remapRow_getElem? (m : Remapping) (i o : Nat) (r : DataRow) :
    (remapRow m i r).values[o]? =
      if o = i then r.values[o]?.map m.replace else r.values[o]? := by
  unfold remapRow replacement?
  by_cases ho : o = i
  · subst ho
    cases hv : r.values[o]? with
    | none => simp [hv]
    | some v =>
      obtain ⟨hlt, rfl⟩ := List.getElem?_eq_some_iff.1 hv
      cases hm : m.valueFor? r.values[o] <;> simp [hm, hlt, Remapping.replace]
  · split <;> simp [ho, List.getElem?_set_ne (Ne.symm ho)]

theorem cell?_remap (d : DataSet) (m : Remapping) (i k o : Nat) :
    { d with rows := d.rows.map (remapRow m i) }.cell? k o =
      if o = i then (d.cell? k o).map m.replace else d.cell? k o := by
  simp only [cell?, List.getElem?_map]
  cases d.rows[k]? with
  | none => simp
  | some r => exact remapRow_getElem? m i o r

theorem remapRow_isSealed (m : Remapping) (i : Nat) (r : DataRow) :
    (remapRow m i r).isSealed = r.isSealed := by
  unfold remapRow
  split <;> rfl

/-! ### Calls -/

/-- A call on a data set. -/
inductive Call where
  | addRow
  | addRowWith (values : List (Field × Value))
  | set (row : Nat) (f : Field) (v : Value)
  | remap (f : Field) (m : Remapping)
  | sealRow (row : Nat)
  /-- The counter rests from here on, or goes on. -/
  | suspend (b : Bool)

/-- The data set that an operation has left behind, itself where it failed. -/
def orSame (d : DataSet) : Result DataSet → DataSet
  | .ok e => e
  | .error _ => d

def after (d : DataSet) : Call → DataSet
  | .addRow => d.orSame (d.addRow.map Prod.snd)
  | .addRowWith values => (d.addRowWith values).2
  | .set row f v => d.orSame (d.set row f v)
  | .remap f m => d.orSame ((d.remap f m).map Prod.snd)
  | .sealRow row => d.orSame (d.sealRow row)
  | .suspend b => { d with suspended := b }

/-- The data set after some calls, one after the other. -/
def afterAll (d : DataSet) (calls : List Call) : DataSet := calls.foldl after d

@[simp] theorem afterAll_nil (d : DataSet) : d.afterAll [] = d := rfl

@[simp] theorem afterAll_cons (d : DataSet) (c : Call) (calls : List Call) :
    d.afterAll (c :: calls) = (d.after c).afterAll calls := rfl

theorem afterAll_append (d : DataSet) (calls more : List Call) :
    d.afterAll (calls ++ more) = (d.afterAll calls).afterAll more := List.foldl_append

/-- What is done inside of a suspension. -/
theorem whileSuspended_afterAll (d : DataSet) (calls : List Call) :
    (d.whileSuspended fun d => ((), d.afterAll calls)).2 =
      d.afterAll (.suspend true :: calls ++ [.suspend d.suspended]) := by
  rw [List.cons_append, afterAll_cons, afterAll_append]
  rfl

/-- What a property of data sets has to go through to hold across calls that make no other
replacements than those allowed: each change that a call makes. -/
structure Invariant (replaces : Field → Remapping → Prop) (P : DataSet → Prop) : Prop where
  addRow {d e : DataSet} {row : Nat} (hd : P d) (h : d.addRow = .ok (row, e)) : P e
  set {d e : DataSet} {row : Nat} {f : Field} {v : Value} (hd : P d) (h : d.set row f v = .ok e) :
    P e
  remap {d e : DataSet} {f : Field} {m : Remapping} {n : Nat} (hm : replaces f m) (hd : P d)
    (h : d.remap f m = .ok (n, e)) : P e
  sealRow {d e : DataSet} {row : Nat} (hd : P d) (h : d.sealRow row = .ok e) : P e
  suspend {d : DataSet} (b : Bool) (hd : P d) : P { d with suspended := b }

namespace Invariant

variable {replaces : Field → Remapping → Prop} {P : DataSet → Prop}

theorem setAll (hP : Invariant replaces P) (values : List (Field × Value)) (hd : P d) :
    P (d.setAll row values).2 := by
  induction values generalizing d with
  | nil => exact hd
  | cons p rest ih =>
    obtain ⟨f, v⟩ := p
    unfold DataSet.setAll
    split
    next e he => exact ih (hP.set hd he)
    · exact hd

theorem addRowWith (hP : Invariant replaces P) (values : List (Field × Value)) (hd : P d) :
    P (d.addRowWith values).2 := by
  unfold DataSet.addRowWith
  split
  · exact hd
  next row e he => exact hP.setAll values (hP.addRow hd he)

theorem orSame {r : Result DataSet} (hd : P d) (h : ∀ {e}, r = .ok e → P e) : P (d.orSame r) := by
  cases r with
  | ok e => exact h rfl
  | error _ => exact hd

theorem after (hP : Invariant replaces P) {c : Call}
    (hc : ∀ f m, c = .remap f m → replaces f m) (hd : P d) : P (d.after c) := by
  cases c with
  | addRow =>
    refine orSame hd fun h => ?_
    obtain ⟨⟨row, e⟩, hadded, rfl⟩ := Result.map_eq_ok h
    exact hP.addRow hd hadded
  | addRowWith values => exact hP.addRowWith values hd
  | set row f v => exact orSame hd (hP.set hd)
  | remap f m =>
    refine orSame hd fun h => ?_
    obtain ⟨⟨n, e⟩, hremapped, rfl⟩ := Result.map_eq_ok h
    exact hP.remap (hc f m rfl) hd hremapped
  | sealRow row => exact orSame hd (hP.sealRow hd)
  | suspend b => exact hP.suspend b hd

theorem afterAll (hP : Invariant replaces P) {calls : List Call}
    (hc : ∀ f m, .remap f m ∈ calls → replaces f m) (hd : P d) : P (d.afterAll calls) := by
  induction calls generalizing d with
  | nil => exact hd
  | cons c rest ih =>
    refine ih (fun f m h => hc f m (List.mem_cons_of_mem c h)) (hP.after (fun f m h => ?_) hd)
    exact hc f m (h ▸ List.mem_cons_self)

end Invariant

end DataSet

end Tsql
