import Tsql.Proofs.DataSet.Identities
import Tsql.Proofs.DataSet.Suspended
import Tsql.Proofs.Session.Requests

/-!
# Rows loaded from the server

A returned row becomes a row of a data set column by column: `loadRows_eq`. `Loaded` says what a data set
is that holds the returned rows of a model; `queryDataSet_loads` is that a query gives such a data set
exactly if each returned row has a value for each column.
-/

namespace Tsql

/-! ### Values of a returned row -/

namespace ResultRow

variable {row : ResultRow} {name : String} {n : Native} {c : Column} {v w : Value}

def FirstNamed (row : ResultRow) (name : String) (n : Native) : Prop :=
  ∃ i : Nat, row.columns[i]? = some name ∧ row.values[i]? = some n ∧
    ∀ j < i, row.columns[j]? ≠ some name

/-- The first column of a column's name has a native value, which is read as a value of its type. -/
def Gives (row : ResultRow) (c : Column) (v : Value) : Prop :=
  ∃ n, row.FirstNamed c.name n ∧ decode c.type n = .ok v

theorem position?_eq_some {i : Nat} : row.position? name = some i ↔
    row.columns[i]? = some name ∧ ∀ j < i, row.columns[j]? ≠ some name := by
  rw [position?, List.findIdx?_eq_some_iff_getElem]
  constructor
  · rintro ⟨hi, hname, hfirst⟩
    refine ⟨List.getElem?_eq_some_iff.2 ⟨hi, beq_iff_eq.1 hname⟩, fun j hj hnamed => ?_⟩
    obtain ⟨_, hnamed⟩ := List.getElem?_eq_some_iff.1 hnamed
    exact absurd (beq_iff_eq.2 hnamed) (hfirst j hj)
  · rintro ⟨hname, hfirst⟩
    obtain ⟨hi, hname⟩ := List.getElem?_eq_some_iff.1 hname
    refine ⟨hi, beq_iff_eq.2 hname, fun j hj hnamed => hfirst j hj ?_⟩
    exact List.getElem?_eq_some_iff.2 ⟨hj.trans hi, beq_iff_eq.1 hnamed⟩

theorem named_eq_ok : row.named name = .ok n ↔ row.FirstNamed name n := by
  unfold named FirstNamed
  cases hp : row.position? name with
  | none =>
    have hnone : ∀ i : Nat, ¬ (row.columns[i]? = some name ∧ ∀ j < i, row.columns[j]? ≠ some name) := by
      intro i hi
      rw [← position?_eq_some, hp] at hi
      cases hi
    constructor
    · rintro ⟨⟩
    · rintro ⟨i, hname, -, hfirst⟩
      exact absurd ⟨hname, hfirst⟩ (hnone i)
  | some i =>
    obtain ⟨hname, hfirst⟩ := position?_eq_some.1 hp
    constructor
    · intro h
      dsimp only at h
      split at h
      next value hvalue =>
        obtain rfl := Except.ok.inj h
        exact ⟨i, hname, hvalue, hfirst⟩
      · cases h
    · rintro ⟨j, hname', hvalue, hfirst'⟩
      have hj : row.position? name = some j := position?_eq_some.2 ⟨hname', hfirst'⟩
      obtain rfl : i = j := Option.some.inj (hp.symm.trans hj)
      simp only [hvalue]

/-- A row gives a column no more than one value. -/
theorem Gives.unique (hv : row.Gives c v) (hw : row.Gives c w) : w = v := by
  obtain ⟨n, hn, hv⟩ := hv
  obtain ⟨n', hn', hw⟩ := hw
  obtain rfl := Except.ok.inj ((named_eq_ok.2 hn).symm.trans (named_eq_ok.2 hn'))
  exact Except.ok.inj (hw.symm.trans hv)

/-- What a row gives a column depends on its name and type. -/
theorem Gives.congr {b : Column} (h : b.toField = c.toField) (hv : row.Gives b v) :
    row.Gives c v := by
  obtain ⟨n, hn, hv⟩ := hv
  rw [show b.name = c.name from congrArg Field.name h] at hn
  rw [show b.type = c.type from congrArg Field.type h] at hv
  exact ⟨n, hn, hv⟩

end ResultRow

namespace Session

open ActionOn

variable {m : Model} {row : ResultRow} {c : Column} {v : Value} {d : DataSet} {columns : List Column}

theorem returnedValue_eq_ok : returnedValue row c = .ok v ↔ row.Gives c v := by
  unfold returnedValue ResultRow.Gives
  simp only [← ResultRow.named_eq_ok]
  cases row.named c.name with
  | error e => simp
  | ok n => simp

/-! ### Rows as they are loaded -/

/-- The values of a row after some columns were given values, one after the other. -/
def filled (m : Model) (values : List Value) (entries : List (Column × Value)) : List Value :=
  entries.foldl (fun values p => match m.ordinal? p.1.id with
    | some i => values.set i p.2
    | none => values) values

theorem exists_ordinal (hc : c ∈ m.columns) : ∃ i, m.ordinal? c.id = some i := by
  rw [← Option.isSome_iff_exists, Model.ordinal?, List.findIdx?_isSome, List.any_eq_true]
  exact ⟨c, hc, beq_self_eq_true _⟩

theorem fillRow_eq (hs : d.suspended = true) (hcolumns : ∀ c ∈ columns, c ∈ d.model.columns)
    (values : List Value) :
    fillRow (d.withRow values) d.size row columns =
      (columns.mapM (returnedValue row)).map fun given =>
        d.withRow (filled d.model values (columns.zip given)) := by
  induction columns generalizing values with
  | nil => rfl
  | cons c rest ih =>
    obtain ⟨i, hi⟩ := exists_ordinal (hcolumns c List.mem_cons_self)
    have ih := fun values => ih (fun b hb => hcolumns b (List.mem_cons_of_mem c hb)) values
    unfold fillRow at ih ⊢
    rw [List.foldlM_cons, List.mapM_cons]
    cases returnedValue row c with
    | error e => rfl
    | ok v =>
      have hset : (d.withRow values).set d.size c.toField v = .ok (d.withRow (values.set i v)) :=
        DataSet.set_withRow hs hi values v
      show ((d.withRow values).set d.size c.toField v >>= fun d => rest.foldlM _ d) = _
      rw [hset]
      show List.foldlM _ (d.withRow (values.set i v)) rest = _
      rw [ih]
      cases rest.mapM (returnedValue row) with
      | error e => rfl
      | ok given =>
        show Except.ok (d.withRow _) = Except.ok (d.withRow _)
        simp [filled, hi]

/-- The row of a data set that a returned row becomes. -/
def loadedRow (m : Model) (row : ResultRow) : Result DataRow :=
  (m.columns.mapM (returnedValue row)).map fun given =>
    { values := filled m (m.columns.map fun _ => .null) (m.columns.zip given), isSealed := true }

theorem addReturned_eq (hs : d.suspended = true) (row : ResultRow) :
    addReturned d row = (loadedRow d.model row).map fun r => { d with rows := d.rows ++ [r] } := by
  rw [addReturned, DataSet.addRow_suspended hs]
  show (fillRow (d.withRow _) d.size row d.model.columns >>= fun d' => d'.sealRow d.size) = _
  rw [fillRow_eq hs fun _ hc => hc, loadedRow]
  cases d.model.columns.mapM (returnedValue row) with
  | error e => rfl
  | ok given =>
    show (d.withRow _).sealRow d.size = .ok _
    simp [DataSet.sealRow, DataSet.withRow, DataSet.size]

theorem loadRows_eq (m : Model) (rows : List ResultRow) :
    loadRows m rows = (rows.mapM (loadedRow m)).map fun loaded =>
      { DataSet.empty m with rows := loaded } := by
  have hfold : ∀ d : DataSet, d.suspended = true → d.model = m →
      rows.foldlM addReturned d = (rows.mapM (loadedRow m)).map fun loaded =>
        { d with rows := d.rows ++ loaded } := by
    induction rows with
    | nil =>
      intro d _ _
      show Except.ok d = Except.ok { d with rows := d.rows ++ [] }
      rw [List.append_nil]
    | cons row rest ih =>
      rintro d hs rfl
      rw [List.foldlM_cons, List.mapM_cons, addReturned_eq hs]
      cases loadedRow d.model row with
      | error e => rfl
      | ok r =>
        show rest.foldlM addReturned { d with rows := d.rows ++ [r] } = _
        rw [ih { d with rows := d.rows ++ [r] } hs rfl]
        cases rest.mapM (loadedRow d.model) with
        | error e => rfl
        | ok loaded =>
          show Except.ok _ = Except.ok _
          simp
  rw [loadRows, hfold _ rfl rfl]
  cases rows.mapM (loadedRow m) with
  | error e => rfl
  | ok loaded => rfl

/-! ### Cells of a loaded row -/

variable {values : List Value} {entries : List (Column × Value)} {i : Nat}

theorem length_filled : (filled m values entries).length = values.length := by
  induction entries generalizing values with
  | nil => rfl
  | cons p rest ih =>
    rw [filled, List.foldl_cons, ← filled, ih]
    split
    · exact List.length_set
    · rfl

/-- Entries for other positions leave a value alone. -/
theorem filled_getElem?_of_ne (h : ∀ p ∈ entries, m.ordinal? p.1.id ≠ some i) :
    (filled m values entries)[i]? = values[i]? := by
  induction entries generalizing values with
  | nil => rfl
  | cons p rest ih =>
    have hp := h p List.mem_cons_self
    rw [filled, List.foldl_cons, ← filled, ih fun q hq => h q (List.mem_cons_of_mem p hq)]
    split
    next j hj =>
      refine List.getElem?_set_ne ?_
      rintro rfl
      exact hp hj
    · rfl

/-- A position holds the value of its last entry. -/
theorem filled_getElem? {before after : List (Column × Value)} {p : Column × Value}
    (hlt : i < values.length) (hp : m.ordinal? p.1.id = some i)
    (hafter : ∀ q ∈ after, m.ordinal? q.1.id ≠ some i) :
    (filled m values (before ++ p :: after))[i]? = some p.2 := by
  have hsplit : filled m values (before ++ p :: after) =
      filled m ((filled m values before).set i p.2) after := by
    simp [filled, List.foldl_append, hp]
  rw [hsplit, filled_getElem?_of_ne hafter]
  exact List.getElem?_set_self (by rwa [length_filled])

/-- The last column that is listed with a column's identity. -/
def IsLast (m : Model) (c b : Column) : Prop :=
  ∃ before after, m.columns = before ++ b :: after ∧ b.id = c.id ∧ ∀ a ∈ after, a.id ≠ c.id

/-- The columns that share a column's identity are that column. -/
def OneColumn (m : Model) (c : Column) : Prop :=
  ∀ b ∈ m.columns, b.id = c.id → b.toField = c.toField

theorem exists_isLast (hc : c ∈ m.columns) : ∃ b, IsLast m c b := by
  have hsome : (m.columns.reverse.find? (·.id == c.id)).isSome := by
    rw [List.find?_isSome]
    exact ⟨c, List.mem_reverse.2 hc, beq_self_eq_true _⟩
  obtain ⟨b, hb⟩ := Option.isSome_iff_exists.1 hsome
  obtain ⟨hid, after, before, hsplit, hafter⟩ := List.find?_eq_some_iff_append.1 hb
  refine ⟨b, before.reverse, after.reverse, ?_, beq_iff_eq.1 hid, fun a ha => ?_⟩
  · rw [← List.reverse_reverse m.columns, hsplit]
    simp
  · simpa using hafter a (List.mem_reverse.1 ha)

theorem IsLast.mem {b : Column} (h : IsLast m c b) : b ∈ m.columns := by
  obtain ⟨before, after, hsplit, -, -⟩ := h
  simp [hsplit]

theorem OneColumn.toField_eq {b : Column} (h : OneColumn m c) (hb : IsLast m c b) :
    b.toField = c.toField := by
  have hmem := hb.mem
  obtain ⟨-, -, -, hid, -⟩ := hb
  exact h b hmem hid

/-- The values that returned rows give: each column has one, and at a column's position stands the one of
the last column with its identity; at the position of a column that was listed before stands a null. -/
structure Filled (m : Model) (row : ResultRow) (r : DataRow) : Prop where
  isSealed : r.isSealed = true
  width : r.values.length = m.columns.length
  given : ∀ c ∈ m.columns, ∃ v, row.Gives c v
  stored : ∀ c b, IsLast m c b → ∀ i, m.ordinal? c.id = some i →
    ∃ v, row.Gives b v ∧ r.values[i]? = some v
  rest : ∀ i < m.columns.length, (∀ c ∈ m.columns, m.ordinal? c.id ≠ some i) →
    r.values[i]? = some .null

theorem loadedRow_ok {r : DataRow} (h : loadedRow m row = .ok r) : Filled m row r := by
  obtain ⟨given, hgiven, rfl⟩ := Result.map_eq_ok h
  have hall : List.Forall₂ (fun c v => row.Gives c v) m.columns given :=
    (Result.mapM_eq_ok hgiven).imp fun _ _ hv => returnedValue_eq_ok.1 hv
  refine ⟨rfl, by simp [length_filled], fun c hc => ?_, fun c b hb i hi => ?_, fun i hi hno => ?_⟩
  · obtain ⟨v, -, hv⟩ := mem_of_forall₂ hall.flip hc
    exact ⟨v, hv⟩
  · obtain ⟨before, after, hsplit, hid, hafter⟩ := hb
    have hlt : i < m.columns.length := (List.findIdx?_eq_some_iff_getElem.1 hi).1
    -- the values are listed as the columns are, so they split where the columns do
    rw [hsplit] at hall
    have hdrop := List.forall₂_drop_append given before (b :: after) hall.flip
    obtain ⟨v, others, hv, -, hlater⟩ := List.forall₂_cons_right_iff.1 hdrop
    refine ⟨v, hv, ?_⟩
    have hlength : before.length = (given.take before.length).length := by
      have := hall.length_eq
      simp only [List.length_append, List.length_cons, List.length_take] at this ⊢
      omega
    have hzip : m.columns.zip given =
        before.zip (given.take before.length) ++ (b, v) :: after.zip others := by
      rw [hsplit, ← List.zip_cons_cons, ← hlater, ← List.zip_append hlength, List.take_append_drop]
    rw [hzip]
    refine filled_getElem? (by simpa using hlt) (by rw [hid, hi]) fun q hq hqi => ?_
    exact hafter q.1 (List.of_mem_zip hq).1 (Model.ordinal?_injective hqi hi)
  · rw [filled_getElem?_of_ne fun p hp => hno p.1 (List.of_mem_zip hp).1]
    simp [hi]

theorem loadedRow_isOk :
    (∃ r, loadedRow m row = .ok r) ↔ ∀ c ∈ m.columns, ∃ v, row.Gives c v := by
  constructor
  · rintro ⟨r, h⟩
    exact (loadedRow_ok h).given
  · intro h
    obtain ⟨given, hgiven⟩ := exists_forall₂ h
    have hgiven := Result.mapM_of_forall₂ (hgiven.imp fun _ _ hv => returnedValue_eq_ok.2 hv)
    rw [loadedRow, hgiven]
    exact ⟨_, rfl⟩

/-! ### Data sets of returned rows -/

/-- A data set that holds the returned rows of a model. -/
structure Loaded (m : Model) (rows : List ResultRow) (d : DataSet) : Prop where
  model_eq : d.model = m
  filled : List.Forall₂ (Filled m) rows d.rows
  suspended_eq : d.suspended = false
  counter_eq : d.counter = m.counter?

namespace Loaded

variable {rows : List ResultRow} (h : Loaded m rows d)

include h

theorem size_eq : d.size = rows.length := h.filled.length_eq.symm

theorem isSealed {r : DataRow} (hr : r ∈ d.rows) : r.isSealed = true := by
  obtain ⟨row, -, hrow⟩ := mem_of_forall₂ h.filled hr
  exact hrow.isSealed

theorem gives (hrow : row ∈ rows) (hc : c ∈ m.columns) : ∃ v, row.Gives c v := by
  obtain ⟨r, -, hr⟩ := mem_of_forall₂ h.filled.flip hrow
  exact hr.given c hc

/-- The row at a place holds what the returned row at that place gives. -/
theorem exists_row {k : Nat} (hk : rows[k]? = some row) :
    ∃ r, Filled m row r ∧ ∀ i, d.cell? k i = r.values[i]? := by
  obtain ⟨hlt, rfl⟩ := List.getElem?_eq_some_iff.1 hk
  have hlt' : k < d.rows.length := h.filled.length_eq ▸ hlt
  refine ⟨d.rows[k], h.filled.get hlt hlt', fun i => ?_⟩
  rw [DataSet.cell?, List.getElem?_eq_getElem hlt']
  rfl

theorem value?_isLast {k : Nat} (hk : rows[k]? = some row) (hc : c ∈ m.columns) :
    ∃ b v, IsLast m c b ∧ row.Gives b v ∧ d.value? k c.toField = some v := by
  obtain ⟨r, hr, hcells⟩ := h.exists_row hk
  obtain ⟨i, hi⟩ := exists_ordinal hc
  obtain ⟨b, hb⟩ := exists_isLast hc
  obtain ⟨v, hv, hcell⟩ := hr.stored c b hb i hi
  refine ⟨b, v, hb, hv, ?_⟩
  rw [DataSet.value?, h.model_eq, hi]
  exact (hcells i).trans hcell

theorem value? {k : Nat} (hk : rows[k]? = some row) (hc : c ∈ m.columns) (hone : OneColumn m c) :
    ∃ v, row.Gives c v ∧ d.value? k c.toField = some v := by
  obtain ⟨b, v, hb, hv, hcell⟩ := h.value?_isLast hk hc
  exact ⟨v, hv.congr (hone.toField_eq hb), hcell⟩

theorem cell?_eq_null {k i : Nat} (hk : rows[k]? = some row) (hi : i < m.columns.length)
    (hno : ∀ c ∈ m.columns, m.ordinal? c.id ≠ some i) : d.cell? k i = some .null := by
  obtain ⟨r, hr, hcells⟩ := h.exists_row hk
  exact (hcells i).trans (hr.rest i hi hno)

theorem atSeed {column : Column} {spec : IdentitySpec} (hi : m.identityColumn? = some column)
    (hs : column.identity = some spec) :
    ∃ ordinal, d.counter = some { ordinal, spec, next := spec.seed } := by
  obtain ⟨ordinal, hcounter, -⟩ := Model.counter?_of_identityColumn? hi hs
  exact ⟨ordinal, h.counter_eq.trans hcounter⟩

end Loaded

theorem loadRows_ok {rows : List ResultRow} (h : loadRows m rows = .ok d) : Loaded m rows d := by
  rw [loadRows_eq] at h
  obtain ⟨loaded, hloaded, rfl⟩ := Result.map_eq_ok h
  exact ⟨rfl, (Result.mapM_eq_ok hloaded).imp fun _ _ hr => loadedRow_ok hr, rfl, rfl⟩

theorem loadRows_isOk {rows : List ResultRow} :
    (∃ d, loadRows m rows = .ok d) ↔ ∀ row ∈ rows, ∀ c ∈ m.columns, ∃ v, row.Gives c v := by
  constructor
  · rintro ⟨d, h⟩ row hrow c hc
    exact (loadRows_ok h).gives hrow hc
  · intro h
    obtain ⟨loaded, hloaded⟩ := exists_forall₂ fun row hrow => loadedRow_isOk.2 (h row hrow)
    rw [loadRows_eq, Result.mapM_of_forall₂ hloaded]
    exact ⟨_, rfl⟩

/-! ### Queries for a data set -/

variable {server : Server} {s s₁ : Session} {tree : CommandTree} {st : Statement} {text : SqlText}
  {params : List BoundParam} {rows : List ResultRow}

theorem runWith_queryDataSet (hq : tree.command = .query st) (hm : st.model? = some m)
    (hrender : (render tree).runWith server s = (.ok text, s₁))
    (hbind : text.bind s₁.bindings = .ok params) (hlive : server.cancelled s₁.sent = false)
    (hrows : server.rows s₁.sent (s₁.request true text.sql params) = .ok rows) :
    (queryDataSet tree).runWith server s =
      (loadRows m rows, s₁.noteSent (s₁.request true text.sql params)) := by
  have hout : outputModel tree.command = .ok m := by simp [outputModel, hq, hm]
  rw [queryDataSet, hout]
  simp only [query, queryText, runWith_bind, runWith_lift, hrender, runWith_get, hbind,
    runWith_sendReading, hlive, hrows, Bool.false_eq_true, if_false]

/-- A query gives a data set exactly if each returned row has, for each column of its model, a first column
of that name with a value that is read as one of the column's type. The data set then has one sealed row
for each returned row, and its cell of a column is the column's value, if the columns of one identity are
one column. Otherwise they share a cell, which keeps what the last of them gave; a place at which a column
is listed again holds a null. -/
theorem queryDataSet_loads (hq : tree.command = .query st) (hm : st.model? = some m)
    (hrender : (render tree).runWith server s = (.ok text, s₁))
    (hbind : text.bind s₁.bindings = .ok params) (hlive : server.cancelled s₁.sent = false)
    (hrows : server.rows s₁.sent (s₁.request true text.sql params) = .ok rows) :
    ((∃ d t, (queryDataSet tree).runWith server s = (.ok d, t)) ↔
        ∀ row ∈ rows, ∀ c ∈ m.columns, ∃ v, row.Gives c v) ∧
      ∀ d t, (queryDataSet tree).runWith server s = (.ok d, t) →
        d.model = m ∧ d.size = rows.length ∧
        (∀ (k : Nat) row, rows[k]? = some row →
          (∀ c ∈ m.columns, OneColumn m c → ∃ v, row.Gives c v ∧ d.value? k c.toField = some v) ∧
          (∀ c ∈ m.columns, ∃ b v, IsLast m c b ∧ row.Gives b v ∧ d.value? k c.toField = some v) ∧
          ∀ i < m.columns.length, (∀ c ∈ m.columns, m.ordinal? c.id ≠ some i) →
            d.cell? k i = some .null) ∧
        (∀ r ∈ d.rows, r.isSealed = true) ∧ d.suspended = false ∧ d.counter = m.counter? ∧
        ∀ column spec, m.identityColumn? = some column → column.identity = some spec →
          ∃ ordinal, d.counter = some { ordinal, spec, next := spec.seed } := by
  rw [runWith_queryDataSet hq hm hrender hbind hlive hrows]
  refine ⟨?_, fun d t h => ?_⟩
  · rw [← loadRows_isOk]
    constructor
    · rintro ⟨d, t, h⟩
      exact ⟨d, (Prod.mk.inj h).1⟩
    · rintro ⟨d, h⟩
      exact ⟨d, _, by rw [h]⟩
  · have h := loadRows_ok (Prod.mk.inj h).1
    refine ⟨h.model_eq, h.size_eq, fun k row hk => ⟨fun c => h.value? hk, fun c => h.value?_isLast hk,
      fun i => h.cell?_eq_null hk⟩, fun _ => h.isSealed, h.suspended_eq, h.counter_eq,
      fun _ _ => h.atSeed⟩

/-- A table of customers, with numbers that count down. -/
def customers : Model :=
  { Model.empty ⟨1⟩ "Customer" .table with
    columns := [{ id := ⟨1⟩, name := "Id", type := .int32, identity := some ⟨5, -1⟩ },
      { id := ⟨2⟩, name := "Name", type := .string }] }

def returning (rows : List ResultRow) : Server where
  affected _ _ := .ok 0
  rows _ _ := .ok rows
  cancelled _ := false

/-- Two customers; the second row names a column twice. -/
def returnedCustomers : List ResultRow :=
  [⟨["Id", "Name"], [.i32 4, .string "Ada"]⟩,
    ⟨["Name", "Id", "Name"], [.string "Grace", .i32 9, .dbNull]⟩]

theorem queryDataSet_loads_customers :
    ∃ d t, (queryDataSet ⟨⟨1⟩, .query (.table customers)⟩).runWith (returning returnedCustomers) {} =
        (.ok d, t) ∧
      d.size = 2 ∧ d.value? 1 ⟨⟨2⟩, "Name", .string⟩ = some (.string "Grace") ∧
      ∃ ordinal, d.counter = some { ordinal, spec := ⟨5, -1⟩, next := 5 } := by
  have hrender : (render ⟨⟨1⟩, .query (.table customers)⟩).runWith (returning returnedCustomers) {} =
      (.ok ⟨"SELECT [Customer].[Id], [Customer].[Name]\nFROM [Customer] [Customer];", []⟩,
        ((render ⟨⟨1⟩, .query (.table customers)⟩).runWith (returning returnedCustomers) {}).2) :=
    Prod.ext (by decide +kernel) rfl
  have h := queryDataSet_loads rfl rfl hrender rfl rfl rfl
  have hall : ∀ row ∈ returnedCustomers, ∀ c ∈ customers.columns, ∃ v, row.Gives c v := by
    simp only [← returnedValue_eq_ok, returnedCustomers, customers, List.forall_mem_cons,
      List.not_mem_nil, false_implies, implies_true, and_true]
    exact ⟨⟨⟨_, rfl⟩, ⟨_, rfl⟩⟩, ⟨⟨_, rfl⟩, ⟨_, rfl⟩⟩⟩
  obtain ⟨d, t, hd⟩ := h.1.2 hall
  obtain ⟨-, hsize, hcells, -, -, -, hseed⟩ := h.2 d t hd
  refine ⟨d, t, hd, hsize, ?_, hseed _ _ rfl rfl⟩
  obtain ⟨v, hgives, hvalue⟩ :=
    (hcells 1 _ rfl).1 { id := ⟨2⟩, name := "Name", type := .string } (by simp [customers])
      (by unfold OneColumn; decide)
  obtain rfl : .string "Grace" = v := hgives.unique (returnedValue_eq_ok.1 rfl)
  exact hvalue

def code : Column := { id := ⟨1⟩, name := "Code", type := .int32 }

/-- A table that lists a copy of its first column, under another name and with the same identity. -/
def renamedCopy : Model :=
  { Model.empty ⟨1⟩ "T" .table with columns := [code, { code with name := "Copy" }] }

def listedTwice : Model :=
  { Model.empty ⟨1⟩ "T" .table with columns := [code, code] }

/-- The value of a column is not in its cell, where a copy under another name follows it; and a column that
is listed twice leaves its second place empty. -/
theorem queryDataSet_sharedIdentity :
    (∃ d t, (queryDataSet ⟨⟨1⟩, .query (.table renamedCopy)⟩).runWith
        (returning [⟨["Code", "Copy"], [.i32 1, .i32 2]⟩]) {} = (.ok d, t) ∧
      ResultRow.Gives ⟨["Code", "Copy"], [.i32 1, .i32 2]⟩ code (.int32 1) ∧
      d.value? 0 code.toField = some (.int32 2) ∧ d.cell? 0 0 = some (.int32 2)) ∧
    ∃ d t, (queryDataSet ⟨⟨1⟩, .query (.table listedTwice)⟩).runWith
        (returning [⟨["Code", "Code"], [.i32 1, .i32 1]⟩]) {} = (.ok d, t) ∧
      ResultRow.Gives ⟨["Code", "Code"], [.i32 1, .i32 1]⟩ code (.int32 1) ∧
      d.cell? 0 0 = some (.int32 1) ∧ d.cell? 0 1 = some .null := by
  have hcopy : (render ⟨⟨1⟩, .query (.table renamedCopy)⟩).runWith
      (returning [⟨["Code", "Copy"], [.i32 1, .i32 2]⟩]) {} =
      (.ok ⟨"SELECT [T].[Code], [T].[Copy]\nFROM [T] [T];", []⟩,
        ((render ⟨⟨1⟩, .query (.table renamedCopy)⟩).runWith
          (returning [⟨["Code", "Copy"], [.i32 1, .i32 2]⟩]) {}).2) :=
    Prod.ext (by decide +kernel) rfl
  have htwice : (render ⟨⟨1⟩, .query (.table listedTwice)⟩).runWith
      (returning [⟨["Code", "Code"], [.i32 1, .i32 1]⟩]) {} =
      (.ok ⟨"SELECT [T].[Code], [T].[Code]\nFROM [T] [T];", []⟩,
        ((render ⟨⟨1⟩, .query (.table listedTwice)⟩).runWith
          (returning [⟨["Code", "Code"], [.i32 1, .i32 1]⟩]) {}).2) :=
    Prod.ext (by decide +kernel) rfl
  exact ⟨⟨{ DataSet.empty renamedCopy with rows := [⟨[.int32 2, .null], true⟩] }, _,
      runWith_queryDataSet (m := renamedCopy) rfl rfl hcopy rfl rfl rfl, returnedValue_eq_ok.1 rfl,
      rfl, rfl⟩,
    { DataSet.empty listedTwice with rows := [⟨[.int32 1, .null], true⟩] }, _,
    runWith_queryDataSet (m := listedTwice) rfl rfl htwice rfl rfl rfl, returnedValue_eq_ok.1 rfl,
    rfl, rfl⟩

end Session

end Tsql
