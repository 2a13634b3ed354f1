import Tsql.Proofs.Codec.Integers
import Tsql.Proofs.DataSet.Operations
import Tsql.Proofs.IdentitySpec

/-!
# Provisional identities are fresh

`DataSet.identitiesOf` lists the identities that calls assign and write. While the counter does not rest
it has passed all of them (`DataSet.Ahead`): each call keeps that, so a new row gets an identity beyond
them (`addRow_fresh`). A counter that has come to the last number of sixty-four bits stays there, and
hands it out again (`addRow_last`).
-/

namespace Tsql

/-- What was passed by a counter, and what it has observed, is passed afterwards. -/
theorem IdentityCounter.passed_observe {c : IdentityCounter} (hinc : c.spec.increment ≠ 0) {i : Int}
    (hi : fitsInt64 i = true) : c.spec.Passed (c.observe i).next i ∧
      ∀ j, c.spec.Passed c.next j → c.spec.Passed (c.observe i).next j := by
  unfold observe
  split
  next h =>
    refine ⟨IdentitySpec.passed_resume hinc hi, fun j hj => IdentitySpec.Passed.resume hi ?_⟩
    obtain ⟨hlow, hhigh⟩ := fitsInt64_iff.1 hi
    unfold IdentitySpec.Passed IdentitySpec.Before IdentitySpec.last at *
    split at hj <;> split <;> omega
  next h =>
    refine ⟨.inl ?_, fun j hj => hj⟩
    unfold IdentitySpec.Before
    omega

theorem IdentityCounter.observe_eq (c : IdentityCounter) (i : Int) :
    c.observe i = { c with next := (c.observe i).next } := by
  unfold observe
  split <;> rfl

/-- Only sixty-four bits hold the last number. -/
theorem IdentitySpec.int64_of_last {spec : IdentitySpec} {t : ValueType}
    (h : (Value.integral? t spec.last).isSome) : t = .int64 := by
  unfold IdentitySpec.last at h
  split at h <;> cases t <;>
    first | rfl | simp [Value.integral?, fitsByte, fitsInt16, fitsInt32, minInt64, maxInt64] at h

theorem Model.counter?_of_identityColumn? {m : Model} {column : Column} {spec : IdentitySpec}
    (hi : m.identityColumn? = some column) (hs : column.identity = some spec) :
    ∃ ordinal, m.counter? = some { ordinal, spec, next := spec.seed } ∧
      m.columns[ordinal]? = some column := by
  obtain ⟨hsome, ordinal, hlt, rfl, hfirst⟩ := List.find?_eq_some_iff_getElem.1 hi
  have hcolumn := List.getElem?_eq_getElem hlt
  have hfind : m.columns.findIdx? (fun c => c.identity.isSome) = some ordinal :=
    List.findIdx?_eq_some_iff_getElem.2 ⟨hlt, hsome, fun j hj => by simpa using hfirst j hj⟩
  exact ⟨ordinal, by simp [counter?, hfind, hcolumn, hs], hcolumn⟩

namespace DataSet

variable {d e : DataSet} {row : Nat} {f : Field} {v : Value}

def identity? (d : DataSet) (row : Nat) : Option Int :=
  d.counter.bind fun c => (d.cell? row c.ordinal).bind Value.asInt?

/-- The identity that is written with a cell: none, if the cell is not of the identity column. -/
def entered? (d : DataSet) (f : Field) (v : Value) : Option Int :=
  d.counter.bind fun c => if d.model.ordinal? f.id = some c.ordinal then v.asInt? else none

/-- The identities written with cells of one row, until one cell fails. -/
def enteredAll (d : DataSet) (row : Nat) : List (Field × Value) → List Int
  | [] => []
  | (f, v) :: rest => match d.set row f v with
    | .ok e => (d.entered? f v).toList ++ e.enteredAll row rest
    | .error _ => []

def identities (d : DataSet) : Call → List Int
  | .addRow => match d.addRow with
    | .ok (row, e) => (e.identity? row).toList
    | .error _ => []
  | .addRowWith values => match d.addRow with
    | .ok (row, e) => (e.identity? row).toList ++ e.enteredAll row values
    | .error _ => []
  | .set row f v => d.enteredAll row [(f, v)]
  | _ => []

/-- The identities that some calls assign or write, one call after the other. -/
def identitiesOf (d : DataSet) : List Call → List Int
  | [] => []
  | c :: rest => d.identities c ++ (d.after c).identitiesOf rest

/-- The call adds a row or writes a cell. -/
def Call.isEntry : Call → Bool
  | .addRow | .addRowWith _ | .set .. => true
  | _ => false

/-- The counter of a data set has passed the identities that were used, among them those that its rows
hold. -/
structure Ahead (m : Model) (start : IdentityCounter) (d : DataSet) (used : List Int) : Prop where
  model_eq : d.model = m
  suspended_eq : d.suspended = false
  counter : ∃ next, d.counter = some { start with next } ∧ ∀ i ∈ used, start.spec.Passed next i
  present : ∀ k i, d.identity? k = some i → i ∈ used

theorem identity?_eq {c : IdentityCounter} (hc : d.counter = some c) (k : Nat) :
    d.identity? k = (d.cell? k c.ordinal).bind Value.asInt? := by
  simp [identity?, hc]

/-- A counter that does not rest: the new row gets what it stands at, if the column can hold it. -/
theorem addRow_counted {c : IdentityCounter} {column : Column} (hc : d.counter = some c)
    (hs : d.suspended = false) (hcolumn : d.model.columns[c.ordinal]? = some column) :
    (∃ v r, Value.integral? column.type c.next = some v ∧ r.values[c.ordinal]? = some v ∧
        d.addRow =
          .ok (d.size, { d with rows := d.rows ++ [r], counter := some (c.resume c.next) })) ∨
      Value.integral? column.type c.next = none ∧ ∃ e, d.addRow = .error e := by
  have hlt := (List.getElem?_eq_some_iff.1 hcolumn).1
  cases hv : Value.integral? column.type c.next with
  | some v =>
    refine .inl ⟨v, { values := (d.model.columns.map fun _ => Value.null).set c.ordinal v }, rfl,
      by simp [hlt], ?_⟩
    simp only [addRow, hc, hs, nextIdentity, hcolumn, hv]
    rfl
  | none =>
    refine .inr ⟨rfl, ?_⟩
    simp only [addRow, hc, hs, nextIdentity, hcolumn, hv]
    exact ⟨_, rfl⟩

/-- The identities after a new row. -/
theorem identity?_append {c : IdentityCounter} {r : DataRow} {i : Int} (hc : d.counter = some c)
    (hr : r.values[c.ordinal]? = some v)
    (he : e = { d with rows := d.rows ++ [r], counter := some (c.resume i) }) (k : Nat) :
    e.identity? k = if k = d.size then v.asInt? else d.identity? k := by
  have hcounter : e.counter = some (c.resume i) := he ▸ rfl
  rw [identity?_eq hcounter, identity?_eq hc, he, cell?_append]
  split
  · exact congrArg (·.bind Value.asInt?) hr
  · rfl

/-- A column of sixty-four bits that has handed out its last number hands it out again. -/
theorem addRow_last {c : IdentityCounter} {column : Column} (hc : d.counter = some c)
    (hs : d.suspended = false) (hcolumn : d.model.columns[c.ordinal]? = some column)
    (h : d.addRow = .ok (row, e)) (hlast : e.identity? row = some c.spec.last) :
    ∃ after, e.addRow = .ok (e.size, after) ∧ after.identity? e.size = some c.spec.last := by
  rcases addRow_counted hc hs hcolumn with ⟨v, r, hv, hr, hadded⟩ | ⟨-, e', he'⟩
  · obtain ⟨rfl, he⟩ := Prod.mk.inj (Except.ok.inj (h.symm.trans hadded))
    rw [identity?_append hc hr he, if_pos rfl, Value.asInt?_of_integral? hv] at hlast
    have hstays : c.resume c.next = c := by
      have hnext : c.next = c.spec.last := Option.some.inj hlast
      rw [IdentityCounter.resume, hnext, IdentitySpec.clampInt64_last, ← hnext]
    have hcounter : e.counter = some c := he ▸ congrArg some hstays
    have hmodel : e.model = d.model := he ▸ rfl
    rcases addRow_counted hcounter (he ▸ hs) (hmodel ▸ hcolumn) with
      ⟨w, s, hw, hcell, hagain⟩ | ⟨hnone, -⟩
    · obtain rfl : w = v := Option.some.inj (hw.symm.trans hv)
      refine ⟨_, hagain, ?_⟩
      rw [identity?_append hcounter hcell rfl, if_pos rfl, Value.asInt?_of_integral? hv, hlast]
    · rw [hv] at hnone
      cases hnone
  · rw [he'] at h
    cases h

namespace Ahead

variable {m : Model} {start : IdentityCounter} {used : List Int} {column : Column}

/-- A new row has what the counter stood at. -/
theorem addRow (h : Ahead m start d used) (hinc : start.spec.increment ≠ 0)
    (hcolumn : m.columns[start.ordinal]? = some column) (ha : d.addRow = .ok (row, e)) :
    ∃ next, (Value.integral? column.type next).isSome ∧ (∀ i ∈ used, start.spec.Passed next i) ∧
      e.identity? row = some next ∧ Ahead m start e (used ++ [next]) := by
  obtain ⟨next, hc, hpassed⟩ := h.counter
  rcases addRow_counted hc h.suspended_eq (h.model_eq ▸ hcolumn) with
    ⟨v, r, hv, hcell, hadded⟩ | ⟨-, e', he⟩
  · obtain ⟨rfl, he⟩ := Prod.mk.inj (Except.ok.inj (ha.symm.trans hadded))
    have hint : v.asInt? = some next := Value.asInt?_of_integral? hv
    have hfits := Value.fitsInt64_of_asInt? hint
    have hcounter : e.counter =
        some { start with next := clampInt64 (next + start.spec.increment) } := he ▸ rfl
    have hidentity : ∀ k, e.identity? k = if k = d.size then some next else d.identity? k := by
      rw [← hint]
      exact identity?_append hc hcell he
    refine ⟨next, by rw [hv]; rfl, hpassed, (hidentity d.size).trans (if_pos rfl),
      he ▸ h.model_eq, he ▸ h.suspended_eq, ⟨_, hcounter, fun i hi => ?_⟩, fun k i hk => ?_⟩
    · rcases List.mem_append.1 hi with hi | hi
      · exact (hpassed i hi).resume hfits
      · rw [List.mem_singleton.1 hi]
        exact IdentitySpec.passed_resume hinc hfits
    · rw [hidentity] at hk
      split at hk
      · simp [Option.some.inj hk]
      · exact List.mem_append_left _ (h.present k i hk)
  · rw [he] at ha
    cases ha

/-- The counter after a write: it has passed what was written to the identity column. -/
theorem observed (h : Ahead m start d used) (hinc : start.spec.increment ≠ 0) {i : Nat}
    (hi : d.model.ordinal? f.id = some i) (v : Value) :
    ∃ next, d.observed i v = some { start with next } ∧
      ∀ j ∈ used ++ (d.entered? f v).toList, start.spec.Passed next j := by
  obtain ⟨next, hc, hpassed⟩ := h.counter
  simp only [DataSet.observed, entered?, hc, hi, h.suspended_eq, Option.map_some, Option.bind_some,
    Option.some.injEq, Bool.not_false, and_true]
  by_cases ho : i = start.ordinal
  · rw [if_pos ho, if_pos ho.symm]
    cases hv : v.asInt? with
    | none => exact ⟨next, rfl, by simpa using hpassed⟩
    | some j =>
      obtain ⟨hself, hothers⟩ := IdentityCounter.passed_observe (c := { start with next }) hinc
        (Value.fitsInt64_of_asInt? hv)
      refine ⟨_, IdentityCounter.observe_eq _ j, fun k hk => ?_⟩
      rcases List.mem_append.1 hk with hk | hk
      · exact hothers k (hpassed k hk)
      · obtain rfl : k = j := by simpa using hk
        exact hself
  · rw [if_neg ho, if_neg (Ne.symm ho)]
    exact ⟨next, rfl, by simpa using hpassed⟩

theorem set (h : Ahead m start d used) (hinc : start.spec.increment ≠ 0)
    (hs : d.set row f v = .ok e) : Ahead m start e (used ++ (d.entered? f v).toList) := by
  obtain ⟨i, r, hi, hr, -, rfl⟩ := set_ok hs
  obtain ⟨next, hnext, hpassed⟩ := h.observed hinc hi v
  refine ⟨h.model_eq, h.suspended_eq, ⟨next, hnext, hpassed⟩, fun k j hk => ?_⟩
  have hkept : (d.cell? k start.ordinal).bind Value.asInt? = some j → j ∈ used := by
    obtain ⟨_, hc, -⟩ := h.counter
    exact fun hold => h.present k j ((identity?_eq hc k).trans hold)
  rw [identity?_eq hnext, cell?_set hr] at hk
  by_cases hrow : k = row
  · rw [if_pos hrow] at hk
    by_cases ho : i = start.ordinal
    · have hnew : d.entered? f v = some j := by
        obtain ⟨_, hc, -⟩ := h.counter
        obtain ⟨w, hw, hj⟩ := Option.bind_eq_some_iff.1 hk
        obtain ⟨-, rfl⟩ : _ ∧ v = w := by simpa [List.getElem?_set, ho] using hw
        simpa [entered?, hc, hi, ho] using hj
      simp [hnew]
    · refine List.mem_append_left _ (hkept ?_)
      rw [List.getElem?_set_ne ho] at hk
      simpa [cell?, hrow, hr] using hk
  · rw [if_neg hrow] at hk
    exact List.mem_append_left _ (hkept hk)

theorem enteredAll (h : Ahead m start d used) (hinc : start.spec.increment ≠ 0)
    (values : List (Field × Value)) :
    Ahead m start (d.setAll row values).2 (used ++ d.enteredAll row values) := by
  induction values generalizing d used with
  | nil => simpa [setAll, DataSet.enteredAll] using h
  | cons p rest ih =>
    obtain ⟨f, v⟩ := p
    cases hs : d.set row f v with
    | ok e => simpa [setAll, DataSet.enteredAll, hs] using ih (h.set hinc hs)
    | error _ => simpa [setAll, DataSet.enteredAll, hs] using h

theorem after (h : Ahead m start d used) (hinc : start.spec.increment ≠ 0)
    (hcolumn : m.columns[start.ordinal]? = some column) {c : Call} (hc : c.isEntry = true) :
    Ahead m start (d.after c) (used ++ d.identities c) := by
  cases c with
  | addRow =>
    cases ha : d.addRow with
    | ok p =>
      obtain ⟨row, e⟩ := p
      obtain ⟨next, -, -, hnext, hahead⟩ := h.addRow hinc hcolumn ha
      simpa [DataSet.after, orSame, identities, ha, hnext, Except.map] using hahead
    | error _ => simpa [DataSet.after, orSame, identities, ha, Except.map] using h
  | addRowWith values =>
    cases ha : d.addRow with
    | ok p =>
      obtain ⟨row, e⟩ := p
      obtain ⟨next, -, -, hnext, hahead⟩ := h.addRow hinc hcolumn ha
      have hentered : Ahead m start (e.setAll row values).2 _ := hahead.enteredAll hinc values
      simpa [DataSet.after, addRowWith, identities, ha, hnext] using hentered
    | error _ => simpa [DataSet.after, addRowWith, identities, ha] using h
  | set row f v =>
    cases hs : d.set row f v with
    | ok e =>
      simpa [DataSet.after, orSame, identities, DataSet.enteredAll, hs] using h.set hinc hs
    | error _ => simpa [DataSet.after, orSame, identities, DataSet.enteredAll, hs] using h
  | remap f r => cases hc
  | sealRow row => cases hc
  | suspend b => cases hc

theorem afterAll (h : Ahead m start d used) (hinc : start.spec.increment ≠ 0)
    (hcolumn : m.columns[start.ordinal]? = some column) {calls : List Call}
    (hc : ∀ c ∈ calls, c.isEntry = true) :
    Ahead m start (d.afterAll calls) (used ++ d.identitiesOf calls) := by
  induction calls generalizing d used with
  | nil => simpa [identitiesOf] using h
  | cons c rest ih =>
    rw [identitiesOf, ← List.append_assoc]
    exact ih (h.after hinc hcolumn (hc c List.mem_cons_self)) fun c hmem =>
      hc c (List.mem_cons_of_mem _ hmem)

theorem empty (hs : m.counter? = some start) : Ahead m start (DataSet.empty m) [] where
  model_eq := rfl
  suspended_eq := rfl
  counter := ⟨start.next, hs, by simp⟩
  present k i hk := by simp [identity?, cell?, DataSet.empty] at hk

end Ahead

/-- Each new row gets an identity beyond all those that were assigned and written before it, and no row is
added once the type of the column has none; unless sixty-four bits have come to their last number. -/
theorem addRow_fresh {m : Model} {column : Column} {spec : IdentitySpec} {calls : List Call}
    (hi : m.identityColumn? = some column) (hs : column.identity = some spec)
    (hinc : spec.increment ≠ 0) (hcalls : ∀ c ∈ calls, c.isEntry = true)
    (hlast : column.type = .int64 → spec.last ∉ (empty m).identitiesOf calls) :
    let d := (empty m).afterAll calls
    let used := (empty m).identitiesOf calls
    (∀ row e, d.addRow = .ok (row, e) → ∃ i, e.identity? row = some i ∧
        (∀ w ∈ used, spec.Before w i) ∧ ∀ k, d.identity? k ≠ some i) ∧
      ((∀ i, (Value.integral? column.type i).isSome → ∃ w ∈ used, ¬ spec.Before w i) →
        d.after .addRow = d ∧
          ∃ e, d.addRow = .error e ∧ ∀ values, d.addRowWith values = (.error e, d)) := by
  intro d used
  obtain ⟨ordinal, hcounter, hcolumn⟩ := Model.counter?_of_identityColumn? hi hs
  have hahead : Ahead m { ordinal, spec, next := spec.seed } d used :=
    (Ahead.empty hcounter).afterAll hinc hcolumn hcalls
  have hfresh : ∀ row e, d.addRow = .ok (row, e) → ∃ i, (Value.integral? column.type i).isSome ∧
      e.identity? row = some i ∧ ∀ w ∈ used, spec.Before w i := by
    intro row e ha
    obtain ⟨next, hfits, hpassed, hnext, -⟩ := hahead.addRow hinc hcolumn ha
    refine ⟨next, hfits, hnext, fun w hw => (hpassed w hw).resolve_right ?_⟩
    rintro ⟨rfl, rfl⟩
    exact hlast (IdentitySpec.int64_of_last hfits) hw
  refine ⟨fun row e ha => ?_, fun hnone => ?_⟩
  · obtain ⟨i, -, hid, hbeyond⟩ := hfresh row e ha
    exact ⟨i, hid, hbeyond, fun k hk => (IdentitySpec.Before.ne
      (hbeyond i (hahead.present k i hk))) rfl⟩
  · cases ha : d.addRow with
    | ok p =>
      obtain ⟨i, hfits, -, hbeyond⟩ := hfresh p.1 p.2 ha
      obtain ⟨w, hw, hnot⟩ := hnone i hfits
      exact absurd (hbeyond w hw) hnot
    | error e =>
      exact ⟨by simp [after, orSame, ha, Except.map], e, rfl, fun values => by simp [addRowWith, ha]⟩

def numbered (type : ValueType) (spec : IdentitySpec) : Column :=
  { id := ⟨1⟩, name := "Id", type, identity := some spec }

def numberedModel (column : Column) : Model :=
  { Model.empty ⟨1⟩ "Item" .table with columns := [column] }

/-- Numbers downwards, one of them written; and a byte that has no number left. -/
theorem addRow_fresh_descending :
    let downwards := numbered .int16 ⟨-1, -10⟩
    let calls := [.addRow, .addRowWith [(downwards.toField, .int16 (-100))],
      .set 0 downwards.toField (.int16 7), .addRow]
    let d := (empty (numberedModel downwards)).afterAll calls
    let full := (empty (numberedModel (numbered .byte ⟨250, 5⟩))).afterAll [.addRow, .addRow]
    (empty (numberedModel downwards)).identitiesOf calls = [-1, -11, -100, 7, -110] ∧
      (∃ row e i, d.addRow = .ok (row, e) ∧ e.identity? row = some i ∧ i < -110 ∧
        ∀ k, d.identity? k ≠ some i) ∧
      full.after .addRow = full := by
  intro downwards calls d full
  have hcolumn : (numberedModel downwards).identityColumn? = some downwards := rfl
  have hentries : ∀ c ∈ calls, c.isEntry = true := by decide
  obtain ⟨hfresh, -⟩ := addRow_fresh hcolumn rfl (by decide) hentries (by decide)
  have hbytes : (numberedModel (numbered .byte ⟨250, 5⟩)).identityColumn? =
    some (numbered .byte ⟨250, 5⟩) := rfl
  have hadded : ∀ c ∈ [Call.addRow, .addRow], c.isEntry = true := by decide
  obtain ⟨-, hnone⟩ := addRow_fresh hbytes rfl (by decide) hadded (by decide)
  refine ⟨by decide, ?_, (hnone fun i hi => ?_).1⟩
  · have hadds : d.addRow.isOk = true := by decide
    cases hp : d.addRow with
    | error e =>
      rw [hp] at hadds
      cases hadds
    | ok p =>
      obtain ⟨i, hid, hbeyond, hnew⟩ := hfresh p.1 p.2 hp
      refine ⟨p.1, p.2, i, rfl, hid, ?_, hnew⟩
      have := hbeyond (-110) (by decide)
      simpa [IdentitySpec.Before, downwards, numbered] using this
  · have hbyte : i ≤ 255 := by
      simp only [numbered, Value.integral?, fitsByte] at hi
      grind
    refine ⟨255, by decide, fun hbeyond => ?_⟩
    simp only [IdentitySpec.Before] at hbeyond
    omega

/-- A column of sixty-four bits hands its last number out twice. -/
theorem addRow_fresh_exhausted :
    let column := numbered .int64 ⟨maxInt64, 1⟩
    let m := numberedModel column
    let d := (empty m).afterAll [.addRow]
    m.identityColumn? = some column ∧ column.identity = some ⟨maxInt64, 1⟩ ∧
      (empty m).identitiesOf [.addRow] = [maxInt64] ∧ d.identity? 0 = some maxInt64 ∧
      ∃ e, d.addRow = .ok (1, e) ∧ e.identity? 1 = some maxInt64 :=
  ⟨rfl, rfl, by decide, by decide, _, rfl, by decide⟩

end DataSet

end Tsql
