import Tsql.Proofs.Codec.Integers
import Tsql.Proofs.DataSet.Operations
import Tsql.Proofs.Json.Reading
import Tsql.Proofs.Rowset

/-!
# Rowsets read back

The text of a rowset is read as an array with an object for each row. `jsonText_isOk` says for which
columns there is a text, `RowObject` what an object holds: under a name the cell of the last column that was
listed with it, and under `rowIdName` the position of the row, where no column was listed with that name.
-/

namespace Tsql

open Text

variable {d : DataSet} {types : TypeMap} {columns : List Field} {layout : List ShippedColumn}
  {f : Field} {k : Nat} {j : Json} {r : DataRow} {entries : List (String × Json)}

/-! ### Encodings of cells -/

theorem jsonValue_readable {t : SqlType} {v : Value} (h : jsonValue t v = .ok j)
    (hfloat : ∀ x, j = .number (.float x) → Json.ReadsBack x) (levels : Nat) : j.Readable levels := by
  obtain ⟨n, -, hj⟩ := Result.bind_eq_ok h
  cases hi : n.asInt? with
  | some i =>
    rw [Native.json_of_asInt? hi] at hj
    obtain rfl := Except.ok.inj hj
    obtain ⟨hlow, hhigh⟩ := fitsInt64_iff.1 (Native.fitsInt64_of_asInt? hi)
    have hword : (maxInt64 : Int) ≤ Json.maxWord := by decide
    exact ⟨hlow, hhigh.trans hword⟩
  | none =>
    have hnumber : ∀ x, floatJson x = .ok j → j.Readable levels := by
      intro x hx
      unfold floatJson at hx
      split at hx
      · obtain rfl := Except.ok.inj hx
        exact hfloat x rfl
      · cases hx
    cases n with
    | f32 x => exact hnumber _ hj
    | f64 x => exact hnumber _ hj
    | u8 | i16 | i32 | i64 => cases hi
    | _ =>
      obtain rfl := Except.ok.inj hj
      trivial

namespace DataSet

/-- A cell has an encoding: its column has a SQL type, and its value a JSON form for that type. -/
def Encodes (d : DataSet) (types : TypeMap) (k : Nat) (f : Field) (j : Json) : Prop :=
  ∃ t, types.resolve f = .ok t ∧ jsonValue t ((d.value? k f).getD .null) = .ok j

theorem value?_of_ordinal {i : Nat} (hi : d.ordinal f = .ok i) (hr : d.rows[k]? = some r) :
    d.value? k f = r.values[i]? := by
  rw [value?, ordinal_ok hi]
  show d.cell? k i = _
  rw [cell?, hr]
  rfl

theorem field_eq_ok {c : ShippedColumn} {entry : String × Json} (hc : d.shipped types f = .ok c)
    (hr : d.rows[k]? = some r) :
    r.field k c = .ok entry ↔ entry.1 = f.name ∧ d.Encodes types k f entry.2 := by
  obtain ⟨ho, hname, ht⟩ := shipped_ok hc
  have hcell : d.Encodes types k f entry.2 ↔
      jsonValue c.type (r.values[c.ordinal]?.getD .null) = .ok entry.2 := by
    rw [Encodes, ht, value?_of_ordinal ho hr]
    constructor
    · rintro ⟨t, h, hj⟩
      exact Except.ok.inj h ▸ hj
    · exact fun hj => ⟨_, rfl, hj⟩
  rw [hcell, ← hname]
  constructor
  · intro h
    obtain ⟨j, hj, rfl⟩ := DataRow.field_ok h
    exact ⟨rfl, hj⟩
  · rintro ⟨hkey, hj⟩
    rw [DataRow.field, hj, ← hkey]

end DataSet

/-! ### Objects of rows -/

/-- The entries of a row's object, one for each listed column. -/
def DataSet.Entries (d : DataSet) (types : TypeMap) (k : Nat) : List Field → List (String × Json) → Prop :=
  List.Forall₂ fun f entry => entry.1 = f.name ∧ d.Encodes types k f entry.2

theorem DataRow.json_entries
    (hl : List.Forall₂ (fun f c => d.shipped types f = .ok c) columns layout)
    (hr : d.rows[k]? = some r) (h : r.json layout k = .ok j) :
    ∃ entries, d.Entries types k columns entries ∧
      j = .object (Json.orderFields ((rowIdName, .ofInt k) :: entries)) := by
  obtain ⟨entries, hentries, rfl⟩ := json_ok h
  refine ⟨entries, ?_, rfl⟩
  clear h
  induction hl generalizing entries with
  | nil =>
    cases hentries
    exact .nil
  | cons hc _ ih =>
    obtain _ | ⟨hentry, hrest⟩ := hentries
    exact .cons ((DataSet.field_eq_ok hc hr).1 hentry) (ih _ hrest)

/-- What the object of a row holds. -/
structure RowObject (d : DataSet) (types : TypeMap) (columns : List Field) (k : Nat)
    (fields : List (String × Json)) : Prop where
  /-- The last column that was listed with a name. -/
  cell : ∀ before f after, columns = before ++ f :: after → (∀ g ∈ after, g.name ≠ f.name) →
    ∃ j, d.Encodes types k f j ∧ Json.getField? f.name fields = some j
  position : (∀ f ∈ columns, f.name ≠ rowIdName) →
    Json.getField? rowIdName fields = some (.ofInt k)
  other : ∀ key, key ≠ rowIdName → (∀ f ∈ columns, f.name ≠ key) → Json.getField? key fields = none

theorem DataSet.Entries.mem (h : d.Entries types k columns entries) {entry : String × Json}
    (hmem : entry ∈ entries) : ∃ f ∈ columns, entry.1 = f.name ∧ d.Encodes types k f entry.2 :=
  mem_of_forall₂ h hmem

theorem DataSet.Entries.ne {key : String} (h : d.Entries types k columns entries)
    (hkey : ∀ f ∈ columns, f.name ≠ key) : ∀ entry ∈ entries, entry.1 ≠ key := by
  intro entry hmem
  obtain ⟨f, hf, hname, -⟩ := h.mem hmem
  rw [hname]
  exact hkey f hf

theorem DataSet.Entries.split {before after : List Field}
    (h : d.Entries types k (before ++ f :: after) entries) :
    ∃ before' entry after', entries = before' ++ entry :: after' ∧
      (entry.1 = f.name ∧ d.Encodes types k f entry.2) ∧ d.Entries types k after after' := by
  induction before generalizing entries with
  | nil =>
    obtain _ | ⟨hentry, hafter⟩ := h
    exact ⟨[], _, _, rfl, hentry, hafter⟩
  | cons g before ih =>
    obtain _ | ⟨-, hrest⟩ := h
    obtain ⟨before', entry, after', rfl, hentry, hafter⟩ := ih hrest
    exact ⟨_ :: before', entry, after', rfl, hentry, hafter⟩

theorem DataSet.Entries.rowObject (h : d.Entries types k columns entries) :
    RowObject d types columns k (Json.orderFields ((rowIdName, .ofInt k) :: entries)) where
  cell before f after hsplit hlast := by
    subst hsplit
    obtain ⟨before', ⟨key, j⟩, after', rfl, ⟨rfl, hj⟩, hafter⟩ := h.split
    refine ⟨j, hj, ?_⟩
    rw [← List.cons_append]
    exact Json.getField?_orderFields (hafter.ne hlast)
  position hfree := Json.getField?_orderFields_head (h.ne hfree)
  other key hkey hfree := by
    refine Json.getField?_orderFields_eq_none ?_
    exact List.forall_mem_cons.2 ⟨hkey.symm, h.ne hfree⟩

/-! ### Texts of rowsets -/

namespace DataSet

variable {text : String}

theorem jsonText_ok (h : d.jsonText types columns = .ok text) :
    ∃ items, text = (Json.array items).text ∧ items.length = d.size ∧
      ∀ k < d.size, ∃ entries, d.Entries types k columns entries ∧
        items[k]? = some (.object (Json.orderFields ((rowIdName, .ofInt k) :: entries))) := by
  obtain ⟨j, hj, rfl⟩ := Result.map_eq_ok h
  obtain ⟨layout, items, hl, rfl, hlength, hitems⟩ := json_ok hj
  refine ⟨items, rfl, hlength, fun k hk => ?_⟩
  obtain ⟨item, hitem, hrow⟩ := hitems k _ (List.getElem?_eq_getElem hk)
  obtain ⟨entries, hentries, rfl⟩ := DataRow.json_entries hl (List.getElem?_eq_getElem hk) hrow
  exact ⟨entries, hentries, hitem⟩

theorem Entries.readable (h : d.Entries types k columns entries)
    (hfloats : ∀ f ∈ columns, ∀ x, d.Encodes types k f (.number (.float x)) → Json.ReadsBack x)
    (hk : k ≤ Json.maxWord) :
    (Json.object (Json.orderFields ((rowIdName, .ofInt k) :: entries))).Readable
      (Json.depthLimit - 1) := by
  refine ⟨by decide, Json.FieldsReadable.order ?_⟩
  rw [List.forall_mem_cons]
  refine ⟨⟨by omega, Int.ofNat_le.2 hk⟩, fun entry hmem => ?_⟩
  obtain ⟨f, hf, -, hentry⟩ := h.mem hmem
  obtain ⟨t, ht, hj⟩ := hentry
  refine jsonValue_readable hj (fun x hx => ?_) _
  exact hfloats f hf x ⟨t, ht, hx ▸ hj⟩

theorem shipped_of_ordinal {i : Nat} {t : SqlType} (hi : d.model.ordinal? f.id = some i)
    (ht : types.resolve f = .ok t) : ∃ c, d.shipped types f = .ok c := by
  have ho : d.ordinal f = .ok i := by rw [ordinal, hi]
  rw [shipped, ho, ht]
  exact ⟨_, rfl⟩

theorem exists_rowJson (hl : List.Forall₂ (fun f c => d.shipped types f = .ok c) columns layout)
    (hr : d.rows[k]? = some r) (h : ∀ f ∈ columns, ∃ j, d.Encodes types k f j) :
    ∃ j, r.json layout k = .ok j := by
  obtain ⟨entries, hentries⟩ : ∃ entries, List.Forall₂ (fun c e => r.field k c = .ok e) layout entries :=
    exists_forall₂ fun c hc => by
      obtain ⟨f, hf, hshipped⟩ := mem_of_forall₂ hl hc
      obtain ⟨j, hj⟩ := h f hf
      exact ⟨(f.name, j), (field_eq_ok hshipped hr).2 ⟨rfl, hj⟩⟩
  rw [DataRow.json, Result.mapM_of_forall₂ hentries]
  exact ⟨_, rfl⟩

/-- There is a text exactly if each listed column belongs to the model, has a SQL type, and has cells with
encodings only. -/
theorem jsonText_isOk : (∃ text, d.jsonText types columns = .ok text) ↔
    ∀ f ∈ columns, (∃ i, d.model.ordinal? f.id = some i) ∧ (∃ t, types.resolve f = .ok t) ∧
      ∀ k < d.size, ∃ j, d.Encodes types k f j := by
  constructor
  · rintro ⟨text, h⟩ f hf
    obtain ⟨_, hj, -⟩ := Result.map_eq_ok h
    obtain ⟨layout, _, hl, -⟩ := json_ok hj
    obtain ⟨c, -, hshipped⟩ := mem_of_forall₂ hl.flip hf
    obtain ⟨ho, -, ht⟩ := shipped_ok hshipped
    refine ⟨⟨_, ordinal_ok ho⟩, ⟨_, ht⟩, fun k hk => ?_⟩
    obtain ⟨_, -, -, hrows⟩ := jsonText_ok h
    obtain ⟨entries, hentries, -⟩ := hrows k hk
    obtain ⟨entry, -, -, hentry⟩ := mem_of_forall₂ hentries.flip hf
    exact ⟨_, hentry⟩
  · intro h
    obtain ⟨layout, hl⟩ := exists_forall₂ fun f hf => by
      obtain ⟨⟨i, hi⟩, ⟨t, ht⟩, -⟩ := h f hf
      exact shipped_of_ordinal hi ht
    obtain ⟨items, hitems⟩ : ∃ items, List.Forall₂ (fun (p : DataRow × Nat) j =>
        p.1.json layout p.2 = .ok j) d.rows.zipIdx items :=
      exists_forall₂ fun p hp => by
        have hr := List.mem_zipIdx_iff_getElem?.1 hp
        exact exists_rowJson hl hr fun f hf => (h f hf).2.2 p.2 (List.getElem?_eq_some_iff.1 hr).1
    have hrows : (d.rows.zipIdx.mapM fun p => p.1.json layout p.2) = .ok items :=
      Result.mapM_of_forall₂ hitems
    have hjson : d.json types columns = .ok (.array items) := by
      rw [json, Result.mapM_of_forall₂ hl]
      show (d.rows.zipIdx.mapM fun p => p.1.json layout p.2) >>= _ = _
      rw [hrows]
      rfl
    rw [jsonText, hjson]
    exact ⟨_, rfl⟩

/-- The text of a rowset is there exactly if each listed column belongs to the model, has a SQL type, and
has cells with encodings only. It is read as an array with an object for each row, provided that the
floating-point numbers in it are read back. -/
theorem jsonText_readsBack (d : DataSet) (types : TypeMap) (columns : List Field) :
    ((∃ text, d.jsonText types columns = .ok text) ↔
      ∀ f ∈ columns, (∃ i, d.model.ordinal? f.id = some i) ∧ (∃ t, types.resolve f = .ok t) ∧
        ∀ k < d.size, ∃ j, d.Encodes types k f j) ∧
    ∀ text, d.jsonText types columns = .ok text →
      ∃ items, items.length = d.size ∧
        (d.size ≤ Json.maxWord + 1 →
          (∀ k < d.size, ∀ f ∈ columns, ∀ x,
            d.Encodes types k f (.number (.float x)) → Json.ReadsBack x) →
          Json.read? text = some (.array items)) ∧
        ∀ k < d.size, ∃ fields, items[k]? = some (.object fields) ∧
          RowObject d types columns k fields := by
  refine ⟨jsonText_isOk, fun text h => ?_⟩
  obtain ⟨items, rfl, hlength, hrows⟩ := jsonText_ok h
  refine ⟨items, hlength, fun hsize hfloats => Json.read?_text ⟨by decide, ?_⟩, fun k hk => ?_⟩
  · refine Json.ItemsReadable.of_forall fun item hitem => ?_
    obtain ⟨k, hk⟩ := List.getElem?_of_mem hitem
    have hlt : k < d.size := hlength ▸ (List.getElem?_eq_some_iff.1 hk).1
    obtain ⟨entries, hentries, hitem'⟩ := hrows k hlt
    obtain rfl := Option.some.inj (hk.symm.trans hitem')
    exact hentries.readable (hfloats k hlt) (by omega)
  · obtain ⟨entries, hentries, hitem⟩ := hrows k hk
    exact ⟨_, hitem, hentries.rowObject⟩

/-- A table of places and weights with one row. -/
def measurements : DataSet :=
  { model := { Model.empty ⟨1⟩ "Measurement" .table with
      columns := [{ id := ⟨1⟩, name := "Place", type := .string },
        { id := ⟨2⟩, name := "Weight", type := .double }] }
    rows := [{ values := [.string "say \"ah\"", .double (.ofRatio _ false 3 2)] }] }

theorem jsonText_readsBack_measurements :
    ∃ items, items.length = 1 ∧
      Json.read? "[\x7b\"Place\":\"say \\\"ah\\\"\",\"Weight\":1.5,\"sys_row_id\":0\x7d]" =
        some (.array items) := by
  let columns : List Field := [⟨⟨1⟩, "Place", .string⟩, ⟨⟨2⟩, "Weight", .double⟩]
  have htext : measurements.jsonText {} columns =
      .ok "[\x7b\"Place\":\"say \\\"ah\\\"\",\"Weight\":1.5,\"sys_row_id\":0\x7d]" := by decide +kernel
  have hplace : ∀ s x, jsonValue (.nVarChar .max) (.string s) ≠ .ok (.number (.float x)) := by
    rintro s x ⟨⟩
  have hweight : ∀ w x : Binary64, jsonValue .float (.double w) = .ok (.number (.float x)) → w = x := by
    intro w x h
    replace h : floatJson w = .ok (.number (.float x)) := h
    unfold floatJson at h
    split at h
    · cases h
      rfl
    · cases h
  obtain ⟨items, hlength, hread, -⟩ := (jsonText_readsBack measurements {} columns).2 _ htext
  refine ⟨items, hlength, hread (by decide) fun k hk f hf x hx => ?_⟩
  obtain rfl : k = 0 := Nat.lt_one_iff.1 hk
  obtain ⟨t, ht, hj⟩ := hx
  obtain rfl | hf := List.mem_cons.1 hf
  · obtain rfl : SqlType.nVarChar .max = t := Except.ok.inj ht
    exact absurd hj (hplace _ _)
  · obtain rfl := List.mem_singleton.1 hf
    obtain rfl : SqlType.float = t := Except.ok.inj ht
    obtain rfl := hweight _ _ hj
    decide +kernel

/-- A table with a column of the name of the row positions. -/
def positioned : DataSet :=
  { model := { Model.empty ⟨1⟩ "Order" .table with
      columns := [{ id := ⟨1⟩, name := "sys_row_id", type := .int32 }] }
    rows := [{ values := [.int32 7] }] }

/-- A column of the name of the row positions takes their place. -/
theorem jsonText_position_overwritten :
    positioned.jsonText {} [⟨⟨1⟩, "sys_row_id", .int32⟩] = .ok "[\x7b\"sys_row_id\":7\x7d]" ∧
      ∃ fields, Json.read? "[\x7b\"sys_row_id\":7\x7d]" = some (.array [.object fields]) ∧
        Json.getField? rowIdName fields = some (.ofInt 7) ∧
        Json.getField? rowIdName fields ≠ some (.ofInt 0) := by
  have htext : (Json.array [.object [(rowIdName, .ofInt 7)]]).text = "[\x7b\"sys_row_id\":7\x7d]" := by
    decide +kernel
  have hread : Json.Readable Json.depthLimit (.array [.object [(rowIdName, .ofInt 7)]]) :=
    ⟨by decide, ⟨by decide, ⟨by decide, by decide⟩, trivial⟩, trivial⟩
  refine ⟨by decide +kernel, _, htext ▸ Json.read?_text hread, rfl, ?_⟩
  rintro ⟨⟩

end DataSet

end Tsql
