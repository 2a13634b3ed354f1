import Tsql.Proofs.Json.Objects
import Tsql.Proofs.Result
import Tsql.Rowset

/-!
# What a rowset sends

The text of a rowset is that of an array with an object for each row. A row's position stands under
`rowIdName` unless a column of that name takes its place.
-/

namespace Tsql

open Text

theorem DataRow.json_ok {layout : List ShippedColumn} {r : DataRow} {position : Nat} {j : Json}
    (h : r.json layout position = .ok j) :
    ∃ fields, List.Forall₂ (fun c f => r.field position c = .ok f) layout fields ∧
      j = .object (Json.orderFields ((rowIdName, .ofInt position) :: fields)) := by
  obtain ⟨fields, hf, h⟩ := Result.bind_eq_ok h
  exact ⟨fields, Result.mapM_eq_ok hf, (Except.ok.inj h).symm⟩

theorem DataRow.field_ok {r : DataRow} {position : Nat} {c : ShippedColumn} {f : String × Json}
    (h : r.field position c = .ok f) :
    ∃ j, jsonValue c.type (r.values[c.ordinal]?.getD .null) = .ok j ∧ f = (c.name, j) := by
  unfold field at h
  split at h
  next j hj => exact ⟨j, hj, (Except.ok.inj h).symm⟩
  · cases h

theorem DataSet.shipped_ok {d : DataSet} {types : TypeMap} {f : Field} {c : ShippedColumn}
    (h : d.shipped types f = .ok c) :
    d.ordinal f = .ok c.ordinal ∧ c.name = f.name ∧ types.resolve f = .ok c.type := by
  obtain ⟨ordinal, ho, h⟩ := Result.bind_eq_ok h
  obtain ⟨type, ht, h⟩ := Result.bind_eq_ok h
  cases h
  exact ⟨ho, rfl, ht⟩

theorem DataSet.json_ok {d : DataSet} {types : TypeMap} {columns : List Field} {j : Json}
    (h : d.json types columns = .ok j) :
    ∃ layout items, List.Forall₂ (fun f c => d.shipped types f = .ok c) columns layout ∧
      j = .array items ∧ items.length = d.size ∧
      ∀ (k : Nat) (r : DataRow), d.rows[k]? = some r →
        ∃ item, items[k]? = some item ∧ r.json layout k = .ok item := by
  obtain ⟨layout, hl, h⟩ := Result.bind_eq_ok h
  obtain ⟨items, hi, h⟩ := Result.bind_eq_ok h
  refine ⟨layout, items, Result.mapM_eq_ok hl, (Except.ok.inj h).symm, ?_, fun k r hr => ?_⟩
  · simpa [size] using (Result.mapM_eq_ok hi).length_eq.symm
  · exact Result.mapM_getElem? hi (x := (r, k)) (by simp [List.getElem?_zipIdx, hr])

theorem DataRow.position_json {layout : List ShippedColumn} {r : DataRow} {position : Nat}
    {j : Json} (hn : ∀ c ∈ layout, c.name ≠ rowIdName) (h : r.json layout position = .ok j) :
    ∃ fields, j = .object fields ∧ Json.getField? rowIdName fields = some (.ofInt position) := by
  obtain ⟨fields, hf, rfl⟩ := json_ok h
  refine ⟨_, rfl, Json.getField?_orderFields_head fun f hm => ?_⟩
  obtain ⟨c, hc, hfield⟩ := mem_of_forall₂ hf hm
  obtain ⟨j, -, rfl⟩ := field_ok hfield
  exact hn c hc

theorem Rowset.build_ok {supply supply' : Supply} {d : DataSet} {types : TypeMap}
    {columns : List Column} {rowset : Rowset}
    (h : Rowset.build supply d types columns = .ok (rowset, supply')) :
    (∃ j, d.json types (columns.map Column.toField) = .ok j ∧ rowset.text = j.text) ∧
      rowset.model.source = .jsonRowset rowset.param ∧ rowset.param.type = .string ∧
      rowset.rowId.name = rowIdName ∧ rowset.model.columns = rowset.rowId :: columns := by
  obtain ⟨text, ht, h⟩ := Result.bind_eq_ok h
  obtain ⟨j, hj, rfl⟩ := Result.map_eq_ok ht
  cases h
  exact ⟨⟨j, hj, rfl⟩, rfl, rfl, rfl, rfl⟩

end Tsql
