import Tsql.Proofs.BulkInsert.Run
import Tsql.Proofs.Codec.Integers
import Tsql.Proofs.Json.Reading
import Tsql.Proofs.Rowset

/-!
# Pairs of keys as a rowset

A mapping table is corrected from a rowset with an object for each pair. Its text is read back as
the pairs that went into it: `pairRowset_pairs`.
-/

namespace Tsql

def Json.key? (type : ValueType) : Json → Option Value
  | .null => some .null
  | .number (.integer i) => Value.integral? type i
  | _ => none

def Json.keyPair? (type : ValueType) : Json → Option KeyPair
  | .object fields => do
    let old ← (Json.object fields).intField? "OldValue"
    let new ← getField? "NewValue" fields
    some (old, ← new.key? type)
  | _ => none

def Json.keyPairs? (type : ValueType) (text : String) : Option (List KeyPair) :=
  match Json.read? text with
  | some (.array items) => items.mapM (Json.keyPair? type)
  | _ => none

namespace IdentityMap

variable {m : IdentityMap} {identity : Column} {d d' : DataSet} {p : KeyPair}

theorem Made.ordinal_old (hm : m.Made identity) : m.model.ordinal? m.oldValue.id = some 0 := by
  rw [Model.ordinal?, hm.columns_eq, List.findIdx?_cons, beq_self_eq_true]
  rfl

theorem Made.ordinal_new (hm : m.Made identity) : m.model.ordinal? m.newValue.id = some 1 := by
  rw [Model.ordinal?, hm.columns_eq, List.findIdx?_cons, beq_eq_false_iff_ne.2 hm.id_ne,
    List.findIdx?_cons, beq_self_eq_true]
  rfl

theorem addPair_ok (hm : m.Made identity) (hd : d.model = m.model) (hs : d.suspended = true)
    (h : m.addPair identity d p = .ok d') :
    ∃ old, Value.integral? identity.type p.1 = some old ∧ d' = d.withRow [old, p.2] := by
  unfold addPair at h
  split at h
  · cases h
  next old hold =>
  have hcells : (d.addRowWith [(m.oldValue.toField, old), (m.newValue.toField, p.2)]) =
      (.ok d.size, d.withRow [old, p.2]) := by
    unfold DataSet.addRowWith
    rw [DataSet.addRow_suspended hs, hd, hm.columns_eq]
    dsimp only [List.map]
    rw [DataSet.setAll, DataSet.set_withRow hs (by rw [hd]; exact hm.ordinal_old)]
    dsimp only [List.set]
    rw [DataSet.setAll, DataSet.set_withRow hs (by rw [hd]; exact hm.ordinal_new)]
    rfl
  rw [hcells] at h
  exact ⟨old, hold, (Except.ok.inj h).symm⟩

theorem addPairs_ok (hm : m.Made identity) {pairs : List KeyPair} (hd : d.model = m.model)
    (hs : d.suspended = true) (h : pairs.foldlM (m.addPair identity) d = .ok d') :
    ∃ rows, d'.rows = d.rows ++ rows ∧ d'.model = m.model ∧ List.Forall₂ (fun p (r : DataRow) =>
      ∃ old, Value.integral? identity.type p.1 = some old ∧ r.values = [old, p.2]) pairs rows := by
  induction pairs generalizing d with
  | nil =>
    cases h
    exact ⟨[], by simp, hd, .nil⟩
  | cons p rest ih =>
    rw [List.foldlM_cons] at h
    obtain ⟨d₁, ha, h⟩ := Result.bind_eq_ok h
    obtain ⟨old, hold, rfl⟩ := addPair_ok hm hd hs ha
    obtain ⟨rows, hrows, hmodel, hall⟩ := ih (d := d.withRow [old, p.2]) hd hs h
    exact ⟨{ values := [old, p.2] } :: rows, by simp [hrows, DataSet.withRow], hmodel,
      .cons ⟨old, hold, rfl⟩ hall⟩

end IdentityMap

def Value.IsKey (type : ValueType) (v : Value) : Prop :=
  v = .null ∨ ∃ i, Value.integral? type i = some v

theorem Value.IsKey.json {type : ValueType} {t : SqlType} {v : Value} {j : Json}
    (hv : v.IsKey type) (h : jsonValue t v = .ok j) (levels : Nat) :
    j.key? type = some v ∧ j.Readable levels := by
  rcases hv with rfl | ⟨i, hi⟩
  · obtain rfl := jsonValue_null h
    exact ⟨rfl, trivial⟩
  · have hint := Value.asInt?_of_integral? hi
    obtain rfl := jsonValue_of_asInt? hint h
    obtain ⟨h0, h1⟩ := fitsInt64_iff.1 (Value.fitsInt64_of_asInt? hint)
    have hword : (maxInt64 : Int) ≤ Json.maxWord := by decide
    exact ⟨hi, h0, h1.trans hword⟩

theorem Json.keyPair?_fields {type : ValueType} {position : Json} (old : Int) {new : Json}
    {key : Value} (h : new.key? type = some key) :
    (Json.object (orderFields
      [(rowIdName, position), ("OldValue", .ofInt old), ("NewValue", new)])).keyPair? type =
        some (old, key) := by
  have hput : orderFields [(rowIdName, position), ("OldValue", .ofInt old), ("NewValue", new)] =
      putField "NewValue" new (putField "OldValue" (.ofInt old) [(rowIdName, position)]) := rfl
  rw [hput]
  have hold : (Json.object (putField "NewValue" new
      (putField "OldValue" (.ofInt old) [(rowIdName, position)]))).intField? "OldValue" =
        some old := by
    rw [intField?, getField?_putField_of_ne (by decide), getField?_putField_self]
    rfl
  rw [keyPair?, hold, getField?_putField_self]
  show (new.key? type).bind (fun key => some (old, key)) = some (old, key)
  rw [h]
  rfl

theorem keyPair?_of_row {type : ValueType} {told tnew : SqlType} {r : DataRow} {old : Value}
    {p : KeyPair} {position : Nat} {item : Json} (hr : r.values = [old, p.2])
    (hold : Value.integral? type p.1 = some old) (hnew : p.2.IsKey type)
    (hp : position ≤ Json.maxWord)
    (h : r.json [⟨0, "OldValue", told⟩, ⟨1, "NewValue", tnew⟩] position = .ok item) :
    item.keyPair? type = some p ∧ item.Readable (Json.depthLimit - 1) := by
  obtain ⟨fields, hf, rfl⟩ := DataRow.json_ok h
  rcases hf with _ | ⟨hfirst, _ | ⟨hsecond, _ | _⟩⟩
  obtain ⟨jold, hjold, rfl⟩ := DataRow.field_ok hfirst
  obtain ⟨jnew, hjnew, rfl⟩ := DataRow.field_ok hsecond
  rw [hr] at hjold hjnew
  have hreadable := (Value.IsKey.json (.inr ⟨p.1, hold⟩) hjold (Json.depthLimit - 2)).2
  obtain ⟨hkey, hreadable'⟩ := hnew.json hjnew (Json.depthLimit - 2)
  obtain rfl := jsonValue_of_asInt? (Value.asInt?_of_integral? hold) hjold
  refine ⟨Json.keyPair?_fields p.1 hkey, by decide, .order fun f hf => ?_⟩
  simp only [List.mem_cons, List.not_mem_nil, or_false] at hf
  rcases hf with rfl | rfl | rfl
  · exact ⟨by omega, Int.ofNat_le.2 hp⟩
  · exact hreadable
  · exact hreadable'

theorem IdentityMap.Made.layout {m : IdentityMap} {identity : Column} (hm : m.Made identity)
    {d : DataSet} (hd : d.model = m.model) {types : TypeMap} {layout : List ShippedColumn}
    (h : List.Forall₂ (fun f c => d.shipped types f = .ok c)
      ([m.oldValue, m.newValue].map Column.toField) layout) :
    ∃ told tnew, layout = [⟨0, "OldValue", told⟩, ⟨1, "NewValue", tnew⟩] := by
  rcases h with _ | ⟨hold, _ | ⟨hnew, _ | _⟩⟩
  rename_i first second
  obtain ⟨ho, hname, -⟩ := DataSet.shipped_ok hold
  obtain ⟨ho', hname', -⟩ := DataSet.shipped_ok hnew
  rw [DataSet.ordinal, hd, hm.ordinal_old] at ho
  rw [DataSet.ordinal, hd, hm.ordinal_new] at ho'
  refine ⟨first.type, second.type, ?_⟩
  rw [← hm.oldName, ← hm.newName]
  rw [Except.ok.inj ho, Except.ok.inj ho', ← hname, ← hname']

theorem mapM_eq_some {α β : Type} {f : α → Option β} {xs : List α} {ys : List β}
    (h : List.Forall₂ (fun x y => f x = some y) xs ys) : xs.mapM f = some ys := by
  induction h with
  | nil => rfl
  | cons hx _ ih =>
    rw [List.mapM_cons, hx, ih]
    rfl

/-- A text of pairs is read back as these pairs, if the rows can be numbered. -/
theorem IdentityMap.pairRowset_pairs {m : IdentityMap} {identity : Column} {types : TypeMap}
    {supply supply' : Supply} {pairs : List KeyPair} {rowset : Rowset} (hm : m.Made identity)
    (hkeys : ∀ p ∈ pairs, p.2.IsKey identity.type) (hlen : pairs.length ≤ Json.maxWord + 1)
    (h : m.pairRowset identity types supply pairs = .ok (rowset, supply')) :
    Json.keyPairs? identity.type rowset.text = some pairs ∧
      rowset.model.source = .jsonRowset rowset.param ∧ rowset.param.type = .string := by
  obtain ⟨d, hd, h⟩ := Result.bind_eq_ok h
  obtain ⟨rows, hrows, hmodel, hall⟩ := addPairs_ok hm rfl rfl hd
  obtain ⟨⟨j, hj, htext⟩, hsource, htype, -⟩ := Rowset.build_ok h
  refine ⟨?_, hsource, htype⟩
  obtain ⟨layout, items, hlayout, rfl, hsize, hitems⟩ := DataSet.json_ok hj
  obtain ⟨told, tnew, rfl⟩ := hm.layout hmodel hlayout
  obtain rfl : d.rows = rows := hrows
  have hread : List.Forall₂ (fun item p =>
      Json.keyPair? identity.type item = some p ∧ item.Readable (Json.depthLimit - 1))
      items pairs := by
    rw [List.forall₂_iff_get]
    refine ⟨hsize.trans hall.length_eq.symm, fun k hk hk' => ?_⟩
    obtain ⟨hlength, hrow⟩ := List.forall₂_iff_get.1 hall
    obtain ⟨old, hold, hvalues⟩ := hrow k hk' (hlength ▸ hk')
    obtain ⟨item, hitem, hjson⟩ := hitems k _ (List.getElem?_eq_getElem (hlength ▸ hk'))
    rw [List.getElem?_eq_getElem hk] at hitem
    obtain rfl := Option.some.inj hitem
    exact keyPair?_of_row hvalues hold (hkeys _ (List.get_mem ..)) (by omega) hjson
  have hreadable : (Json.array items).Readable Json.depthLimit :=
    ⟨by decide, .of_forall fun item hi => by
      obtain ⟨p, -, hp⟩ := mem_of_forall₂ hread.flip hi
      exact hp.2⟩
  rw [Json.keyPairs?, htext, Json.read?_text hreadable]
  exact mapM_eq_some (hread.imp fun _ _ h => h.1)

end Tsql
