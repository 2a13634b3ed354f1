import Tsql.Proofs.DataSet.Operations

/-!
# Sealed primary keys

A row that is sealed stays sealed, and writing to its primary key is refused. Replacing a column does not
ask whether a row is sealed: `sealed_final` is that the key keeps its value exactly as long as no
replacement has another value for it.
-/

namespace Tsql.DataSet

variable {d e : DataSet} {row : Nat} {f g : Field} {m : Model}

/-- The row is there, and its primary key is final. -/
def IsSealed (d : DataSet) (row : Nat) : Prop := ∃ r, d.rows[row]? = some r ∧ r.isSealed = true

theorem IsSealed.lt_size (h : d.IsSealed row) : row < d.size :=
  let ⟨_, hr, _⟩ := h
  (List.getElem?_eq_some_iff.1 hr).1

theorem IsSealed.addRow {k : Nat} (hd : d.IsSealed k) (h : d.addRow = .ok (row, e)) :
    e.IsSealed k := by
  obtain ⟨s, hs, hsealed⟩ := hd
  obtain ⟨-, r, counter, -, -, rfl⟩ := addRow_ok h
  exact ⟨s, (List.getElem?_append_left (List.getElem?_eq_some_iff.1 hs).1).trans hs, hsealed⟩

theorem IsSealed.withRow {k : Nat} {r s : DataRow} {counter : Option IdentityCounter}
    (hd : d.IsSealed k) (hr : d.rows[row]? = some r)
    (hs : r.isSealed = true → s.isSealed = true) :
    { d with rows := d.rows.set row s, counter }.IsSealed k := by
  obtain ⟨t, ht, hsealed⟩ := hd
  by_cases hk : row = k
  · subst hk
    obtain rfl : t = r := Option.some.inj (ht.symm.trans hr)
    exact ⟨s, List.getElem?_set_self (List.getElem?_eq_some_iff.1 hr).1, hs hsealed⟩
  · exact ⟨t, (List.getElem?_set_ne hk).trans ht, hsealed⟩

theorem isSealed_invariant (k : Nat) : Invariant (fun _ _ => True) (·.IsSealed k) where
  addRow hd h := hd.addRow h
  set hd h := by
    obtain ⟨i, r, -, hr, -, rfl⟩ := set_ok h
    exact hd.withRow hr id
  remap _ hd h := by
    obtain ⟨s, hs, hsealed⟩ := hd
    obtain ⟨i, -, -, rfl⟩ := remap_ok h
    exact ⟨_, by rw [List.getElem?_map, hs]; rfl, by rw [remapRow_isSealed, hsealed]⟩
  sealRow hd h := by
    obtain ⟨r, hr, rfl⟩ := sealRow_ok h
    exact hd.withRow hr fun _ => rfl
  suspend _ hd := hd

/-- A row is sealed, and a column of it has a value. -/
structure Holds (m : Model) (row : Nat) (f : Field) (x : Option Value) (d : DataSet) : Prop where
  model_eq : d.model = m
  isSealed : d.IsSealed row
  value_eq : d.value? row f = x

theorem value?_set_sealed {k : Nat} {v : Value} (hkey : d.model.isKeyColumn f.id = true)
    (hd : d.IsSealed row) (h : d.set k g v = .ok e) : e.value? row f = d.value? row f := by
  obtain ⟨i, r, hi, hr, hfree, rfl⟩ := set_ok h
  refine value?_eq_of_cell? rfl fun o ho => ?_
  rw [cell?_set hr]
  split
  next hk =>
    subst hk
    obtain ⟨s, hs, hsealed⟩ := hd
    obtain rfl : s = r := Option.some.inj (hs.symm.trans hr)
    have hne : i ≠ o := by
      rintro rfl
      rw [Model.ordinal?_injective hi ho, hsealed, hkey] at hfree
      cases hfree
    simp [cell?, hr, List.getElem?_set_ne hne]
  · rfl

/-- A replacement goes through the cells of its column, whether their rows are sealed or not. -/
theorem value?_remap {r : Remapping} {n : Nat} (h : d.remap g r = .ok (n, e)) :
    e.value? row f = if g.id = f.id then (d.value? row f).map r.replace else d.value? row f := by
  obtain ⟨i, hi, -, rfl⟩ := remap_ok h
  by_cases hid : g.id = f.id
  · rw [if_pos hid]
    simp only [value?, ← hid, hi]
    exact (cell?_remap d r i row i).trans (if_pos rfl)
  · rw [if_neg hid]
    refine value?_eq_of_cell? rfl fun o ho => (cell?_remap d r i row o).trans (if_neg ?_)
    rintro rfl
    exact hid (Model.ordinal?_injective hi ho)

theorem value?_after_remap (hid : g.id = f.id) (r : Remapping) :
    (d.after (.remap g r)).value? row f = (d.value? row f).map r.replace := by
  cases h : d.remap g r with
  | ok p =>
    have hafter : d.after (.remap g r) = p.2 := by
      simp only [after, h]
      rfl
    rw [hafter, value?_remap (n := p.1) h, if_pos hid]
  | error e =>
    have hnone : d.model.ordinal? f.id = none := by
      rw [← hid, ← Option.not_isSome_iff_eq_none]
      intro hsome
      obtain ⟨i, hi⟩ := Option.isSome_iff_exists.1 hsome
      simp [remap, ordinal, hi, bind, Except.bind] at h
    have hafter : d.after (.remap g r) = d := by
      simp only [after, h]
      rfl
    rw [hafter]
    simp [value?, hnone]

theorem holds_invariant {x : Option Value} (hkey : m.isKeyColumn f.id = true) :
    Invariant (fun g r => g.id = f.id → x.map r.replace = x) (Holds m row f x) where
  addRow := by
    rintro d e k ⟨hmodel, hsealed, hvalue⟩ h
    have hstill := hsealed.addRow h
    obtain ⟨-, r, counter, -, -, rfl⟩ := addRow_ok h
    subst hvalue
    refine ⟨hmodel, hstill, value?_eq_of_cell? rfl fun i _ => ?_⟩
    exact (cell?_append d r counter row i).trans (if_neg (Nat.ne_of_lt hsealed.lt_size))
  set := by
    rintro d e k g v ⟨hmodel, hsealed, hvalue⟩ h
    have hkept := value?_set_sealed (hmodel ▸ hkey) hsealed h
    obtain ⟨i, r, -, hr, -, rfl⟩ := set_ok h
    exact ⟨hmodel, hsealed.withRow hr id, hkept.trans hvalue⟩
  remap := by
    rintro d e g r n hm ⟨hmodel, hsealed, hvalue⟩ h
    have hkept : e.value? row f = x := by
      rw [value?_remap h, hvalue]
      split
      next hid => exact hm hid
      · rfl
    have hstill := (isSealed_invariant row).remap trivial hsealed h
    obtain ⟨i, -, -, rfl⟩ := remap_ok h
    exact ⟨hmodel, hstill, hkept⟩
  sealRow := by
    rintro d e k ⟨hmodel, hsealed, hvalue⟩ h
    obtain ⟨r, hr, rfl⟩ := sealRow_ok h
    refine ⟨hmodel, hsealed.withRow hr fun _ => rfl, (value?_eq_of_cell? ?_ fun i _ => ?_).trans hvalue⟩
    · rfl
    · rw [cell?_set hr]
      split
      next hk => simp [cell?, hk, hr]
      · rfl
  suspend _ hd := ⟨hd.model_eq, hd.isSealed, hd.value_eq⟩

/-- A row that was sealed stays sealed whatever is called, and a column of its primary key keeps its value
throughout exactly if no replacement of the column is called that has another value for it. -/
theorem sealed_final {d sealed : DataSet} {row : Nat} (h : d.sealRow row = .ok sealed)
    (calls : List Call) :
    (∀ done, done <+: calls → (sealed.afterAll done).IsSealed row) ∧
      ∀ f : Field, d.model.isKeyColumn f.id = true →
        ((∀ done, done <+: calls → (sealed.afterAll done).value? row f = sealed.value? row f) ↔
          ∀ g r, .remap g r ∈ calls → g.id = f.id →
            (sealed.value? row f).map r.replace = sealed.value? row f) := by
  have hsealed : sealed.IsSealed row := by
    obtain ⟨r, hr, rfl⟩ := sealRow_ok h
    exact ⟨_, List.getElem?_set_self (List.getElem?_eq_some_iff.1 hr).1, rfl⟩
  have hmodel : sealed.model = d.model := by
    obtain ⟨r, -, rfl⟩ := sealRow_ok h
    rfl
  refine ⟨fun done _ => (isSealed_invariant row).afterAll (fun _ _ _ => trivial) hsealed,
    fun f hkey => ⟨fun hkept g r hcall hid => ?_, fun hspared done hdone => ?_⟩⟩
  · obtain ⟨before, rest, rfl⟩ := List.append_of_mem hcall
    have hbefore := hkept before (List.prefix_append _ _)
    have hafter := hkept (before ++ [.remap g r]) (by simp)
    rw [afterAll_append, afterAll_cons, afterAll_nil, value?_after_remap hid, hbefore] at hafter
    exact hafter
  · have hheld : Holds d.model row f (sealed.value? row f) sealed := ⟨hmodel, hsealed, rfl⟩
    exact ((holds_invariant hkey).afterAll
      (fun g r hcall => hspared g r (hdone.subset hcall)) hheld).value_eq

def orderKey : Field := ⟨⟨1⟩, "OrderId", .int32⟩

def detailNote : Field := ⟨⟨2⟩, "Note", .string⟩

def oneDetail : DataSet :=
  { model :=
      { Model.empty ⟨1⟩ "Detail" .table with
        columns := [{ orderKey with }, { detailNote with }]
        primaryKey := some { name := "PK_Detail", columns := [(orderKey, .ascending)] } }
    rows := [{ values := [.int32 1, .null] }] }

/-- Calls around a sealed detail, among them one to write its key and two to replace columns. -/
def aroundDetail : List Call :=
  [.suspend true, .set 0 orderKey (.int32 9), .remap orderKey ⟨[(5, .int32 6)]⟩,
    .addRowWith [(orderKey, .int32 5), (detailNote, .string "new")], .suspend false,
    .set 0 detailNote (.int32 1), .remap detailNote ⟨[(1, .string "one")]⟩, .sealRow 0]

theorem sealed_final_refused :
    oneDetail.sealRow 0 = .ok (oneDetail.after (.sealRow 0)) ∧
      ∀ done, done <+: aroundDetail →
        ((oneDetail.after (.sealRow 0)).afterAll done).IsSealed 0 ∧
        ((oneDetail.after (.sealRow 0)).afterAll done).value? 0 orderKey = some (.int32 1) := by
  have h : oneDetail.sealRow 0 = .ok (oneDetail.after (.sealRow 0)) := rfl
  obtain ⟨hsealed, hkeeps⟩ := sealed_final h aroundDetail
  refine ⟨h, fun done hdone => ⟨hsealed done hdone, ?_⟩⟩
  refine (hkeeps orderKey (by decide)).2 (fun g r hcall hid => ?_) done hdone
  simp only [aroundDetail, List.mem_cons, List.not_mem_nil, reduceCtorEq, false_or, or_false,
    Call.remap.injEq] at hcall
  rcases hcall with ⟨rfl, rfl⟩ | ⟨rfl, rfl⟩
  · decide
  · cases hid

/-- A replacement gives a sealed row another key. -/
theorem sealed_final_replaced :
    let sealed := oneDetail.after (.sealRow 0)
    oneDetail.sealRow 0 = .ok sealed ∧ oneDetail.model.isKeyColumn orderKey.id = true ∧
      (sealed.afterAll [.remap orderKey ⟨[(1, .int32 7)]⟩]).value? 0 orderKey ≠
        sealed.value? 0 orderKey :=
  ⟨rfl, by decide, by decide⟩

end Tsql.DataSet
