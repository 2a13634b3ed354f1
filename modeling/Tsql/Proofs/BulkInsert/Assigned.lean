import Tsql.Proofs.BulkInsert.Commands
import Tsql.Proofs.BulkInsert.Remapping
import Tsql.Proofs.Codec.Integers
import Tsql.Proofs.IdentitySpec
import Tsql.Proofs.Rowset

/-!
# Every row gets its own key

`Server.Numbers` is what a server promises about the keys of an ordered insert: they ascend or
descend with the order of the insert, they may reach the mapping table in any order, and the mapping
is read back in the order that a query asks for. `run_assigns` is that the keys then arrive at the
rows that the server gave them to.
-/

namespace Tsql

open Text

def SortDirection.Before : SortDirection → Int → Int → Prop
  | .descending, a, b => b < a
  | .ascending, a, b | .unspecified, a, b => a < b

/-- A request carries an ordered insert, whose parameter holds a text that is read as an array. -/
def Request.Inserts (r : Request) (parse : String → Option Json) (i : KeyedInsert)
    (items : List Json) : Prop :=
  r.sql = i.sql ∧ ∃ p ∈ r.params, p.name = i.parameter ∧
    ∃ text, p.value = .string text ∧ parse text = some (.array items)

/-- The rows of a mapping table, an old and a new value each: the old values are numbered in the
order in which the new ones arrived. -/
def IdentitySpec.mappingRows (spec : IdentitySpec) (arrived : List Int) : List (Int × Int) :=
  arrived.zipIdx.map fun (key, k) => (spec.nth k, key)

/-- The value of a mapping table's row by which a query orders. -/
def MappingQuery.sortKey? (q : MappingQuery) (row : Int × Int) : Option Int :=
  if q.column = "OldValue" then some row.1
  else if q.column = "NewValue" then some row.2
  else none

def MappingQuery.Ordered (q : MappingQuery) (rows : List (Int × Int)) : Prop :=
  rows.Pairwise fun a b => ∀ x y, q.sortKey? a = some x → q.sortKey? b = some y →
    ¬ q.direction.Before y x

/-- A server that numbers a table's rows by `spec` and reads JSON by `parse`. `keys log r` are the
keys that it gives to the rows of an insert `r` after the requests `log`, in the order in which the
rowset holds the rows. -/
structure Server.Numbers (server : Server) (parse : String → Option Json) (spec : IdentitySpec)
    (keys : List Request → Request → List Int) : Prop where
  length_eq : ∀ {log r n i items}, server.affected log r = .ok n → 0 < n → r.Inserts parse i items →
    (keys log r).length = items.length
  /-- Keys are handed out in the order of the insert. -/
  assigns : ∀ {log r n i items}, server.affected log r = .ok n → 0 < n → r.Inserts parse i items →
    ∀ (a b : Nat) (x y ka kb : Int), items[a]?.bind (Json.intField? i.column) = some x →
      items[b]?.bind (Json.intField? i.column) = some y → i.direction.Before x y →
      (keys log r)[a]? = some ka → (keys log r)[b]? = some kb → spec.Before ka kb
  /-- A query for the mapping, sent right after the insert, returns all rows of the mapping table in
  its order; the keys have arrived there in any order. -/
  answers : ∀ {log r n i items}, server.affected log r = .ok n → 0 < n → r.Inserts parse i items →
    ∀ (m : MappingQuery) (q : Request) (answer : List ResultRow), q.sql = m.sql →
      m.mapping = i.mapping → server.rows (log ++ [r]) q = .ok answer →
      ∃ arrived rows, arrived.Perm (keys log r) ∧ rows.Perm (spec.mappingRows arrived) ∧
        m.Ordered rows ∧ List.Forall₂ (fun row p =>
          row.int? "OldValue" = some p.1 ∧ row.int? "NewValue" = some p.2) answer rows

theorem IdentitySpec.mappingRows_snd (spec : IdentitySpec) (arrived : List Int) :
    (spec.mappingRows arrived).map Prod.snd = arrived := by
  rw [mappingRows, List.map_map]
  exact List.zipIdx_map_fst ..

/-- Keys in the order of assignment are what a read in that order finds. -/
theorem IdentitySpec.eq_of_ordered {spec : IdentitySpec} {identity : Column}
    (hs : identity.identity = some spec) {keys found : List Int} (hk : keys.Pairwise spec.Before)
    (hf : found.Pairwise fun a b => ¬ (IdentityMap.keyOrder identity).Before b a)
    (hp : found.Perm keys) : found = keys := by
  have hdown : spec.increment < 0 → IdentityMap.keyOrder identity = .descending := fun h => by
    simp [IdentityMap.keyOrder, hs, h]
  have hup : ¬ spec.increment < 0 → IdentityMap.keyOrder identity = .ascending := fun h => by
    simp [IdentityMap.keyOrder, hs, h]
  refine hp.eq_of_pairwise (fun a b _ _ hab hba => ?_) hf (hk.imp fun {a b} hab => ?_)
  · by_cases h : spec.increment < 0
    · rw [hdown h] at hab hba
      simp only [SortDirection.Before] at hab hba
      omega
    · rw [hup h] at hab hba
      simp only [SortDirection.Before] at hab hba
      omega
  · rcases hab with ⟨h, hab⟩ | ⟨h, hab⟩
    · rw [hup h.le.not_gt]
      exact hab.le.not_gt
    · rw [hdown h]
      exact hab.le.not_gt

/-- The new values of a mapping, where the server has returned integers. -/
theorem IdentityMap.readPairs_values {m : IdentityMap} {identity : Column}
    {answer : List ResultRow} {rows : List (Int × Int)} {mapped : List KeyPair}
    (hm : m.Made identity)
    (hrows : List.Forall₂ (fun row p =>
      row.int? "OldValue" = some p.1 ∧ row.int? "NewValue" = some p.2) answer rows)
    (h : m.readPairs identity answer = .ok mapped) :
    List.Forall₂ (fun key v => Value.integral? identity.type key = some v) (rows.map Prod.snd)
      (mapped.map Prod.snd) := by
  replace h := readPairs_ok hm h
  induction hrows generalizing mapped with
  | nil =>
    cases h
    exact .nil
  | cons hrow _ ih =>
    cases h with
    | cons hpair hrest =>
      refine .cons ?_ (ih hrest)
      obtain ⟨n, hn, hd⟩ := Result.bind_eq_ok hpair.2
      have hint := hrow.2
      rw [ResultRow.int?, hn] at hint
      rcases decode_integral hm.integral hd with ⟨rfl, -⟩ | ⟨i, hi, hv⟩
      · cases hint
      · rwa [Option.some.inj (hint.symm.trans hi)]

namespace BulkInsert

variable {server : Server} {job : BulkInsert} {session : Session}

/-- The insert of a run: where its keys go, in which order its rows stand, and what they are. -/
theorem KeysRead.insert_inserts (k : KeysRead server job session) {parse : String → Option Json}
    (hparse : ∀ j, job.rows.json session.types
      (job.rows.model.insertableColumns.map Column.toField) = .ok j → parse j.text = some j) :
    ∃ i items, k.insert.Inserts parse i items ∧ i.column = rowIdName ∧ i.direction = .ascending ∧
      i.mapping = k.table ∧
      job.rows.json session.types (job.rows.model.insertableColumns.map Column.toField) =
        .ok (.array items) := by
  obtain ⟨⟨j, hj, htext⟩, hsource, htype, hname, -⟩ := Rowset.build_ok k.rowset_eq
  obtain ⟨layout, items, -, rfl, -⟩ := DataSet.json_ok hj
  obtain ⟨text, hg, hbind, hsql, -⟩ := Session.requestOf_ok k.insert_eq
  obtain ⟨i, -, -, rfl, -, -, -, hmapping, hparameter, hcolumn, hdirection⟩ :=
    KeyedInsert.of_generate k.made k.identity_eq hsource (by rw [hname]; decide) k.get?_table hg
  have hvalue : k.ready.bindings.get k.rowset.param.id = .string (Json.array items).text := by
    rw [← htext]
    exact Bindings.get_set_self _ _ _
  obtain ⟨p, hp, hpname, hpvalue⟩ := SqlText.bind_text htype hvalue i.sql
  refine ⟨i, items, ⟨hsql, p, ?_, hpname.trans hparameter.symm, _, hpvalue, hparse _ hj⟩,
    hcolumn.trans hname, hdirection, hmapping, hj⟩
  rw [Except.ok.inj (hbind.symm.trans hp)]
  exact List.mem_singleton_self p

theorem position_field {d : DataSet} {types : TypeMap} {columns : List Column} {items : List Json}
    (hn : ∀ c ∈ columns, c.name ≠ rowIdName)
    (h : d.json types (columns.map Column.toField) = .ok (.array items)) :
    items.length = d.size ∧
      ∀ k < d.size, items[k]?.bind (Json.intField? rowIdName) = some (k : Int) := by
  obtain ⟨layout, items', hl, hitems, hlen, hrow⟩ := DataSet.json_ok h
  obtain rfl : items = items' := by
    cases hitems
    rfl
  refine ⟨hlen, fun k hk => ?_⟩
  obtain ⟨item, hi, hj⟩ := hrow k _ (List.getElem?_eq_getElem hk)
  have hlayout : ∀ c ∈ layout, c.name ≠ rowIdName := by
    intro c hc
    obtain ⟨f, hf, hc⟩ := mem_of_forall₂ hl hc
    obtain ⟨column, hcolumn, rfl⟩ := List.mem_map.1 hf
    rw [(DataSet.shipped_ok hc).2.1]
    exact hn column hcolumn
  obtain ⟨fields, rfl, hf⟩ := DataRow.position_json hlayout hj
  simp [hi, Json.intField?, hf, Json.ofInt]

/-- Keys that were assigned in the order of the rows' positions. -/
theorem keys_ordered {spec : IdentitySpec} {keys : List Int} {items : List Json} {n : Nat}
    (hk : keys.length = n)
    (hp : ∀ k < n, items[k]?.bind (Json.intField? rowIdName) = some (k : Int))
    (h : ∀ (a b : Nat) (x y ka kb : Int), items[a]?.bind (Json.intField? rowIdName) = some x →
      items[b]?.bind (Json.intField? rowIdName) = some y → x < y →
      keys[a]? = some ka → keys[b]? = some kb → spec.Before ka kb) :
    keys.Pairwise spec.Before := by
  rw [List.pairwise_iff_getElem]
  intro a b ha hb hab
  exact h a b a b _ _ (hp a (hk ▸ ha)) (hp b (hk ▸ hb)) (by exact_mod_cast hab)
    (List.getElem?_eq_getElem ha) (List.getElem?_eq_getElem hb)

/-- The rows of a data set hold the keys that a server gave to them when it accepted an insert of
the run, each row its own; nothing else in them has changed. -/
def KeysAssigned (server : Server) (parse : String → Option Json)
    (keys : List Request → Request → List Int) (before after : Session) (identity : Column)
    (d rows : DataSet) (inserted : Nat) : Prop :=
  ∃ log insert rest i items values,
    after.sent = before.sent ++ log ++ insert :: rest ∧
    server.affected (before.sent ++ log) insert = .ok inserted ∧
    d.json before.types (d.model.insertableColumns.map Column.toField) = .ok (.array items) ∧
    insert.Inserts parse i items ∧
    List.Forall₂ (fun key v => Value.integral? identity.type key = some v)
      (keys (before.sent ++ log) insert) values ∧
    d.Keyed rows identity.toField values

/-- Every row gets the key that the server has assigned to it, in whatever order the keys arrive,
where no column takes the place of the rows' positions. -/
theorem run_assigns {d : DataSet} {children : List DataSet} {identity : Column}
    {spec : IdentitySpec} {keys : List Request → Request → List Int}
    {parse : String → Option Json} {outcome : BulkOutcome}
    (hi : d.model.identityColumn? = some identity)
    (hs : identity.identity = some spec) (hinc : spec.increment ≠ 0)
    (hn : ∀ c ∈ d.model.insertableColumns, c.name ≠ rowIdName)
    (hserver : server.Numbers parse spec keys)
    (hparse : ∀ j, d.json session.types (d.model.insertableColumns.map Column.toField) = .ok j →
      parse j.text = some j)
    (hr : (BulkInsert.run { rows := d, children } server session).1 = .ok outcome)
    (hpos : 0 < outcome.inserted) :
    KeysAssigned server parse keys session
        (BulkInsert.run { rows := d, children } server session).2.2 identity d
        (BulkInsert.run { rows := d, children } server session).2.1.rows outcome.inserted ∧
      outcome.propagated = d.size := by
  rcases hrun : BulkInsert.run { rows := d, children } server session with ⟨r, job', session'⟩
  obtain rfl : r = .ok outcome := by rw [← hr, hrun]
  rcases run_cases hrun with ⟨-, hstop⟩ | ⟨k, ⟨rest⟩⟩
  · rcases hstop outcome rfl hpos with h | h
    · rw [h] at hi
      cases hi
    · cases h
  obtain rfl : k.identity = identity := Option.some.inj (k.identity_eq.symm.trans hi)
  obtain ⟨hinserted, hpropagated⟩ := rest.outcome outcome rfl
  obtain ⟨i, items, hinsert, hcolumn, hdirection, hmapping, hjson⟩ := k.insert_inserts hparse
  obtain ⟨m, hsql, htable, hmcolumn, hmdirection⟩ := k.read_sql
  obtain ⟨hlen, hposition⟩ := position_field hn hjson
  have hlog : k.ready.sent = session.sent ++ [k.create] := rfl
  have hkeys := hserver.length_eq k.inserted_eq k.inserted_pos hinsert
  have hassigned := hserver.assigns k.inserted_eq k.inserted_pos hinsert
  obtain ⟨arrived, rows, harrived, hrows, hordered, hanswer⟩ :=
    hserver.answers k.inserted_eq k.inserted_pos hinsert m k.read k.answer hsql
      (htable.trans hmapping.symm) k.answer_eq
  rw [hcolumn, hdirection] at hassigned
  have hbefore := keys_ordered (hkeys.trans hlen) hposition hassigned
  have hfound : rows.map Prod.snd = keys k.ready.sent k.insert := by
    refine spec.eq_of_ordered hs hbefore ?_ ?_
    · rw [List.pairwise_map]
      refine hordered.imp fun {a b} h => ?_
      rw [← hmdirection]
      exact h _ _ (by simp [MappingQuery.sortKey?, hmcolumn])
        (by simp [MappingQuery.sortKey?, hmcolumn])
    · have := hrows.map Prod.snd
      rw [IdentitySpec.mappingRows_snd] at this
      exact this.trans harrived
  refine ⟨⟨[k.create], k.insert, k.read :: (rest.realigned ++ rest.remapped ++ rest.dropped), i,
    items, k.mapped.map Prod.snd, ?_, ?_, hjson, hinsert, ?_, rest.rows_eq ▸ rest.keyed⟩, ?_⟩
  · rw [rest.sent_eq, k.asked_sent]
    simp
  · rw [hinserted]
    exact k.inserted_eq
  · have := IdentityMap.readPairs_values k.made hanswer k.mapped_eq
    rwa [hfound, hlog] at this
  · have hnodup : (k.pairs.map Prod.fst).Nodup := by
      rw [k.pairs_fst hs]
      exact List.nodup_range.map (IdentitySpec.nth_injective hinc)
    rw [hpropagated, Remapping.size_ofPairs hnodup, ← List.length_map Prod.fst, k.pairs_fst hs]
    simp

def orderModel (column : String) : Model :=
  { Model.empty ⟨1⟩ "Order" .table with
    columns := [{ id := ⟨1⟩, name := "Id", type := .int32, identity := some ⟨1, 1⟩ },
      { id := ⟨2⟩, name := column, type := .int32 }] }

def twoOrders (column : String) : DataSet :=
  { DataSet.empty (orderModel column) with
    rows := [{ values := [.int32 1, .int32 2] }, { values := [.int32 2, .int32 1] }] }

def sentItems (d : DataSet) : List Json :=
  match d.json {} (d.model.insertableColumns.map Column.toField) with
  | .ok (.array items) => items
  | _ => []

def parseSent (d : DataSet) (s : String) : Option Json :=
  if s = (Json.array (sentItems d)).text then some (.array (sentItems d)) else none

theorem parseSent_text (d : DataSet) (j : Json)
    (h : d.json {} (d.model.insertableColumns.map Column.toField) = .ok j) :
    parseSent d j.text = some j := by
  obtain ⟨_, items, _, rfl, _⟩ := DataSet.json_ok h
  have hsent : sentItems d = items := by rw [sentItems, h]
  rw [parseSent, hsent, if_pos rfl]

/-- A server that accepts the insert of one data set by one text, and answers one query. -/
def oneInsert (d : DataSet) (insert read : String) (answer : List ResultRow) : Server where
  affected _ r :=
    .ok (if r.sql = insert ∧
      r.params.map BoundParam.value = [.string (Json.array (sentItems d)).text] then d.size else 0)
  rows _ q := if q.sql = read then .ok answer else .error (.database "no such table")
  cancelled _ := false

/-- What a request carries that the server accepts. -/
theorem oneInsert_inserts {d : DataSet} {insert read : String} {answer : List ResultRow}
    (hinsert : orderOf? insert = some (rowIdName, .ascending)) {log : List Request} {r : Request}
    {n : Nat} {i : KeyedInsert} {items : List Json}
    (ha : (oneInsert d insert read answer).affected log r = .ok n) (hn : 0 < n)
    (hr : r.Inserts (parseSent d) i items) :
    i.column = rowIdName ∧ i.direction = .ascending ∧ items = sentItems d := by
  have hif : r.sql = insert ∧
      r.params.map BoundParam.value = [.string (Json.array (sentItems d)).text] := by
    by_contra h
    simp only [oneInsert, if_neg h] at ha
    cases ha
    exact Nat.lt_irrefl 0 hn
  obtain ⟨hsql, p, hp, -, text, hvalue, hparse⟩ := hr
  have horder := i.orderOf?_sql
  rw [← hsql, hif.1, hinsert] at horder
  obtain ⟨hcolumn, hdirection⟩ := Prod.mk.inj (Option.some.inj horder)
  have hmem := List.mem_map_of_mem (f := BoundParam.value) hp
  rw [hif.2, List.mem_singleton, hvalue] at hmem
  rw [Native.string.inj hmem, parseSent, if_pos rfl] at hparse
  cases hparse
  exact ⟨hcolumn.symm, hdirection.symm, rfl⟩

theorem oneInsert_numbers {d : DataSet} {insert read : String} {answer : List ResultRow}
    {spec : IdentitySpec} {keys : List Int} (positions arrived : List Int)
    (rows : List (Int × Int)) (hinsert : orderOf? insert = some (rowIdName, .ascending))
    (hread : orderOf? read = some ("NewValue", .ascending))
    (hpositions : (sentItems d).map (Json.intField? rowIdName) = positions.map some)
    (hlen : keys.length = positions.length)
    (hkeys : ∀ p ∈ positions.zip keys, ∀ q ∈ positions.zip keys,
      p.1 < q.1 → spec.Before p.2 q.2)
    (harrived : arrived.Perm keys) (hrows : rows.Perm (spec.mappingRows arrived))
    (hsorted : rows.Pairwise fun a b => a.2 ≤ b.2)
    (hanswer : List.Forall₂ (fun row p =>
      row.int? "OldValue" = some p.1 ∧ row.int? "NewValue" = some p.2) answer rows) :
    (oneInsert d insert read answer).Numbers (parseSent d) spec fun _ _ => keys := by
  have hzip : ∀ (a : Nat) (x ka : Int), (sentItems d)[a]?.bind (Json.intField? rowIdName) = some x →
      keys[a]? = some ka → (x, ka) ∈ positions.zip keys := by
    intro a x ka hx hka
    have hposition : positions[a]? = some x := by
      have := congrArg (·[a]?) hpositions
      simp only [List.getElem?_map] at this
      cases hitem : (sentItems d)[a]? with
      | none => simp [hitem] at hx
      | some item =>
        rw [hitem] at hx this
        rw [Option.bind_some] at hx
        rw [Option.map_some, hx] at this
        cases hp : positions[a]? with
        | none => simp [hp] at this
        | some y => simpa [hp] using this.symm
    exact List.mem_of_getElem? (i := a) (by simp [List.getElem?_zip_eq_some, hposition, hka])
  refine ⟨fun ha hn hr => ?_, fun ha hn hr => ?_, fun ha hn hr m q found hq _ hfound => ?_⟩
  · obtain ⟨-, -, rfl⟩ := oneInsert_inserts hinsert ha hn hr
    have := congrArg List.length hpositions
    simp only [List.length_map] at this
    omega
  · obtain ⟨hcolumn, hdirection, rfl⟩ := oneInsert_inserts hinsert ha hn hr
    rw [hcolumn, hdirection]
    intro a b x y ka kb hx hy hxy hka hkb
    exact hkeys _ (hzip a x ka hx hka) _ (hzip b y kb hy hkb) hxy
  · have hsql : q.sql = read ∧ found = answer := by
      by_cases h : q.sql = read
      · simp only [oneInsert, if_pos h] at hfound
        exact ⟨h, (Except.ok.inj hfound).symm⟩
      · simp only [oneInsert, if_neg h] at hfound
        cases hfound
    have horder := m.orderOf?_sql
    rw [← hq, hsql.1, hread] at horder
    obtain ⟨hcolumn, hdirection⟩ := Prod.mk.inj (Option.some.inj horder)
    refine ⟨arrived, rows, harrived, hrows, hsorted.imp fun {a b} hab x y hx hy => ?_,
      hsql.2 ▸ hanswer⟩
    simp [MappingQuery.sortKey?, ← hcolumn] at hx hy
    simp only [← hdirection, SortDirection.Before]
    omega

def insertOrders (column layout : String) : String :=
  "INSERT INTO [Order] ([" ++ column ++ "])\nOUTPUT INSERTED.[Id] INTO [#IdentityMap] ([NewValue])"
    ++ "\nSELECT [@Order].[" ++ column ++ "]\nFROM OPENJSON(@p1) WITH (" ++ layout
    ++ ") [@Order]\nORDER BY [@Order].[sys_row_id] ASC;"

def readOrders : String :=
  "SELECT [IdentityMap].[OldValue], [IdentityMap].[NewValue]\nFROM [#IdentityMap] [IdentityMap]"
    ++ "\nORDER BY [IdentityMap].[NewValue] ASC;"

/-- The order of the insert is at the end of its text, whatever stands before. -/
theorem orderOf?_insertOrders (column layout : String) :
    orderOf? (insertOrders column layout) = some (rowIdName, .ascending) := by
  have hend : ") [@Order]\nORDER BY [@Order].[sys_row_id] ASC;" =
      ") [@Order]\nORDER BY [@Order]." ++ quoteIdentifier rowIdName ++ SortDirection.ascending.sql
        ++ ";" := by
    decide +kernel
  refine (congrArg (fun s => orderOf? (_ ++ s)) hend).trans ?_
  simp only [← String.append_assoc]
  exact orderOf?_append _ _ _ (by decide)

theorem orderOf?_readOrders : orderOf? readOrders = some ("NewValue", .ascending) := by
  have hend : "\nORDER BY [IdentityMap].[NewValue] ASC;" =
      "\nORDER BY [IdentityMap]." ++ quoteIdentifier "NewValue" ++ SortDirection.ascending.sql
        ++ ";" := by
    decide +kernel
  refine (congrArg (fun s => orderOf? (_ ++ s)) hend).trans ?_
  simp only [← String.append_assoc]
  exact orderOf?_append _ _ _ (by decide)

/-- A server to which the keys of two orders arrive in the wrong order. -/
def reversed : Server :=
  oneInsert (twoOrders "Amount") (insertOrders "Amount" "[sys_row_id] INT, [Amount] INT") readOrders
    [⟨["OldValue", "NewValue"], [.i32 2, .i32 101]⟩, ⟨["OldValue", "NewValue"], [.i32 1, .i32 102]⟩]

theorem reversed_numbers :
    reversed.Numbers (parseSent (twoOrders "Amount")) ⟨1, 1⟩ fun _ _ => [101, 102] :=
  oneInsert_numbers [0, 1] [102, 101] [(2, 101), (1, 102)] (orderOf?_insertOrders _ _)
    orderOf?_readOrders (by decide +kernel) rfl (by decide) (by decide) (by decide) (by decide)
    (.cons ⟨by decide +kernel, by decide +kernel⟩ (.cons ⟨by decide +kernel, by decide +kernel⟩ .nil))

theorem run_assigns_reversed :
    (BulkInsert.run { rows := twoOrders "Amount", children := [] } reversed
        { supply := ⟨2, 3, 1⟩ }).1 = .ok { completed := true, inserted := 2, propagated := 2 } ∧
      KeysAssigned reversed (parseSent (twoOrders "Amount")) (fun _ _ => [101, 102])
        { supply := ⟨2, 3, 1⟩ }
        (BulkInsert.run { rows := twoOrders "Amount", children := [] } reversed
          { supply := ⟨2, 3, 1⟩ }).2.2
        { id := ⟨1⟩, name := "Id", type := .int32, identity := some ⟨1, 1⟩ } (twoOrders "Amount")
        (BulkInsert.run { rows := twoOrders "Amount", children := [] } reversed
          { supply := ⟨2, 3, 1⟩ }).2.1.rows 2 := by
  have hrun : (BulkInsert.run { rows := twoOrders "Amount", children := [] } reversed
      { supply := ⟨2, 3, 1⟩ }).1 = .ok { completed := true, inserted := 2, propagated := 2 } := by
    decide +kernel
  have hname : ∀ c ∈ (twoOrders "Amount").model.insertableColumns, c.name ≠ rowIdName := by
    decide +kernel
  have hidentity : (twoOrders "Amount").model.identityColumn? =
      some { id := ⟨1⟩, name := "Id", type := .int32, identity := some ⟨1, 1⟩ } := by
    rfl
  exact ⟨hrun, (run_assigns hidentity rfl (by decide) hname reversed_numbers (parseSent_text _) hrun
    Nat.two_pos).1⟩

/-- A column of the name of the rows' positions takes their place, and the keys are swapped. -/
theorem run_assigns_overwritten :
    let d := twoOrders "sys_row_id"
    let server := oneInsert d (insertOrders "sys_row_id" "[sys_row_id] INT, [sys_row_id] INT")
      readOrders
      [⟨["OldValue", "NewValue"], [.i32 1, .i32 101]⟩, ⟨["OldValue", "NewValue"], [.i32 2, .i32 102]⟩]
    let after := BulkInsert.run { rows := d } server { supply := ⟨2, 3, 1⟩ }
    server.Numbers (parseSent d) ⟨1, 1⟩ (fun _ _ => [102, 101]) ∧
      after.1 = .ok { completed := true, inserted := 2, propagated := 2 } ∧
      ¬ KeysAssigned server (parseSent d) (fun _ _ => [102, 101]) { supply := ⟨2, 3, 1⟩ } after.2.2
        { id := ⟨1⟩, name := "Id", type := .int32, identity := some ⟨1, 1⟩ } d after.2.1.rows 2 := by
  -- Nothing is introduced by name: a comparison through a name evaluates the run once more.
  refine ⟨oneInsert_numbers [2, 1] [101, 102] [(1, 101), (2, 102)] (orderOf?_insertOrders _ _)
    orderOf?_readOrders (by decide +kernel) rfl (by decide) (by decide) (by decide) (by decide)
    (.cons ⟨by decide +kernel, by decide +kernel⟩ (.cons ⟨by decide +kernel, by decide +kernel⟩ .nil)),
    by decide +kernel, ?_⟩
  rintro ⟨log, insert, rest, i, items, values, -, -, -, -, hvalues, hkeyed⟩
  have hfirst : values[0]? = some (.int32 101) :=
    (hkeyed.key 0 (by decide)).symm.trans (by decide +kernel)
  cases hvalues with
  | cons hv _ =>
    simp only [List.getElem?_cons_zero, Option.some.injEq] at hfirst
    subst hfirst
    revert hv
    decide

end BulkInsert

end Tsql
