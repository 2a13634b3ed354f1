import Tsql.Proofs.Codec.Integers
import Tsql.Proofs.DataSet.Suspended
import Tsql.Proofs.IdentitySpec
import Tsql.Proofs.Result
import Tsql.Session.BulkInsert

/-!
# Keys written into a data set

Two checks come before the first key is written: the rows have to be unsealed and numbered like the
identity column, and the mapping has to give as many keys as there are rows. After them writing
cannot fail: `writeKeys_of_pairKeys`. What it leaves behind is `DataSet.Keyed`.
-/

namespace Tsql

namespace DataSet

/-- A data set before and after its rows received final keys. Nothing else has changed. -/
structure Keyed (before after : DataSet) (identity : Field) (keys : List Value) : Prop where
  model_eq : after.model = before.model
  counter_eq : after.counter = before.counter
  suspended_eq : after.suspended = before.suspended
  size_eq : after.size = before.size
  length_eq : keys.length = before.size
  key : ∀ k < before.size, after.value? k identity = keys[k]?
  isSealed : ∀ r ∈ after.rows, r.isSealed = true
  cell_eq : ∀ k ordinal, before.model.ordinal? identity.id ≠ some ordinal →
    after.cell? k ordinal = before.cell? k ordinal

variable {d : DataSet} {identity : Field} {ordinal : Nat} {spec : IdentitySpec}

theorem checkFrom_cons {position i : Nat} {first : DataRow} {rest : List DataRow} :
    d.checkFrom identity spec.increment (spec.nth i) position (first :: rest) = .ok () ↔
      (first.isSealed = false ∧ d.number? position identity = some (spec.nth i)) ∧
        fitsInt64 (spec.nth (i + 1)) = true ∧
        d.checkFrom identity spec.increment (spec.nth (i + 1)) (position + 1) rest = .ok () := by
  rw [checkFrom, IdentitySpec.nth_succ]
  split_ifs with hsealed hnumber hfits
  · simp [hsealed]
  · simp [hnumber]
  · simp_all
  · simp [hfits]

/-- The loop adds the increment once more after the last row. Between two rows the sum is a number that
a cell holds, so it fits. -/
theorem checkFrom_iff {position i : Nat} {rows : List DataRow} :
    d.checkFrom identity spec.increment (spec.nth i) position rows = .ok () ↔
      (∀ k r, rows[k]? = some r →
        r.isSealed = false ∧ d.number? (position + k) identity = some (spec.nth (i + k))) ∧
      (rows ≠ [] → fitsInt64 (spec.nth (i + rows.length)) = true) := by
  induction rows generalizing position i with
  | nil => simp [checkFrom]
  | cons first rest ih =>
    have hlength : i + (first :: rest).length = i + 1 + rest.length := by
      rw [List.length_cons]
      omega
    have hplace : ∀ k n : Nat, n + 1 + k = n + (k + 1) := by omega
    rw [checkFrom_cons, ih, hlength]
    constructor
    · rintro ⟨hfirst, hfits, hrest, hlast⟩
      refine ⟨fun k r hr => ?_, fun _ => ?_⟩
      · cases k with
        | zero =>
          obtain rfl : first = r := Option.some.inj hr
          exact hfirst
        | succ k =>
          rw [← hplace k, ← hplace k]
          exact hrest k r hr
      · cases rest with
        | nil => exact hfits
        | cons _ _ => exact hlast (List.cons_ne_nil _ _)
    · rintro ⟨hrows, hlast⟩
      have hrest : ∀ k r, rest[k]? = some r → r.isSealed = false ∧
          d.number? (position + 1 + k) identity = some (spec.nth (i + 1 + k)) := fun k r hr => by
        rw [hplace, hplace]
        exact hrows (k + 1) r hr
      refine ⟨hrows 0 first rfl, ?_, hrest, fun _ => hlast (List.cons_ne_nil _ _)⟩
      cases rest with
      | nil => exact hlast (List.cons_ne_nil _ _)
      | cons second _ =>
        obtain ⟨_, -, hcell⟩ := Option.bind_eq_some_iff.1 (hrest 0 second rfl).2
        exact Value.fitsInt64_of_asInt? hcell

/-- The rows of a data set that passes the check are unsealed and numbered like the column. -/
theorem checkProvisional_ok {column : Column} (h : d.checkProvisional column = .ok ())
    (hs : column.identity = some spec) {k : Nat} {r : DataRow} (hr : d.rows[k]? = some r) :
    r.isSealed = false ∧ d.number? k column.toField = some (spec.nth k) := by
  simp only [checkProvisional, hs, ← spec.nth_zero] at h
  simpa only [Nat.zero_add] using (checkFrom_iff.1 h).1 k r hr

/-- The check accepts the rows that are unsealed and numbered like the column, if sixty-four bits hold the
number that would come after them. -/
theorem checkProvisional_iff {column : Column} (hs : column.identity = some spec) :
    d.checkProvisional column = .ok () ↔
      (∀ k r, d.rows[k]? = some r →
        r.isSealed = false ∧ d.number? k column.toField = some (spec.nth k)) ∧
      (d.rows ≠ [] → fitsInt64 (spec.nth d.size) = true) := by
  have hloop : d.checkProvisional column =
      d.checkFrom column.toField spec.increment (spec.nth 0) 0 d.rows := by
    rw [checkProvisional, hs, spec.nth_zero]
  rw [hloop, checkFrom_iff]
  simp only [Nat.zero_add, size]

/-- A column of identities of sixty-four bits. -/
def countingColumn (spec : IdentitySpec) : Column :=
  { id := ⟨1⟩, name := "Id", type := .int64, identity := some spec }

def countedRows (spec : IdentitySpec) (numbers : List Int) : DataSet :=
  { model := { Model.empty ⟨1⟩ "Item" .table with columns := [countingColumn spec] }
    rows := numbers.map fun i => { values := [.int64 (Int64.ofInt i)] } }

theorem checkProvisional_iff_descending :
    (countedRows ⟨5, -10⟩ [5, -5, -15]).checkProvisional (countingColumn ⟨5, -10⟩) = .ok () ∧
      (countedRows ⟨5, -10⟩ [5, -5, -16]).checkProvisional (countingColumn ⟨5, -10⟩) ≠ .ok () := by
  refine ⟨(checkProvisional_iff rfl).2 ⟨fun k r hr => ?_, by decide⟩, fun h => ?_⟩
  · obtain ⟨hk, rfl⟩ := List.getElem?_eq_some_iff.1 hr
    have hall : ∀ k : Fin 3, (countedRows ⟨5, -10⟩ [5, -5, -15]).rows[k].isSealed = false ∧
        (countedRows ⟨5, -10⟩ [5, -5, -15]).number? k (countingColumn ⟨5, -10⟩).toField =
          some (IdentitySpec.nth ⟨5, -10⟩ k) := by decide
    exact hall ⟨k, hk⟩
  · have hlast := ((checkProvisional_iff rfl).1 h).1 2 _ rfl
    exact absurd hlast.2 (by decide)

/-- The row holds its number, the last one of sixty-four bits, and is refused. -/
theorem checkProvisional_iff_lastNumber :
    let d := countedRows ⟨maxInt64, 1⟩ [maxInt64]
    (∀ k r, d.rows[k]? = some r → r.isSealed = false ∧
        d.number? k (countingColumn ⟨maxInt64, 1⟩).toField =
          some (IdentitySpec.nth ⟨maxInt64, 1⟩ k)) ∧
      d.checkProvisional (countingColumn ⟨maxInt64, 1⟩) =
        .error (.argumentOutOfRange "provisional identity of 'Id' overflows after row 0") := by
  refine ⟨fun k r hr => ?_, by decide +kernel⟩
  obtain ⟨hk, rfl⟩ := List.getElem?_eq_some_iff.1 hr
  obtain rfl : k = 0 := Nat.lt_one_iff.1 hk
  exact ⟨rfl, by decide⟩

theorem number?_of_checkProvisional {column : Column} (h : d.checkProvisional column = .ok ())
    (hs : column.identity = some spec) {k : Nat} (hk : k < d.size) :
    d.number? k column.toField = some (spec.nth k) :=
  (checkProvisional_ok h hs (List.getElem?_eq_getElem hk)).2

/-- The rows hold some numbers in a column, one after the other. -/
def HoldsNumbers (d : DataSet) (f : Field) (numbers : List Int) : Prop :=
  (List.range d.size).map (d.number? · f) = numbers.map some

instance (d : DataSet) (f : Field) (numbers : List Int) : Decidable (d.HoldsNumbers f numbers) :=
  inferInstanceAs (Decidable (_ = _))

theorem HoldsNumbers.length_eq {numbers : List Int} (h : d.HoldsNumbers identity numbers) :
    numbers.length = d.size := by
  simpa using (congrArg List.length h).symm

theorem holdsNumbers_nth (h : ∀ k < d.size, d.number? k identity = some (spec.nth k)) :
    d.HoldsNumbers identity ((List.range d.size).map spec.nth) := by
  rw [HoldsNumbers, List.map_map]
  exact List.map_congr_left fun k hk => h k (List.mem_range.1 hk)

theorem provisional_mapM {numbers : List Int} (h : d.HoldsNumbers identity numbers) :
    (List.range d.size).mapM (d.provisional identity) = .ok numbers := by
  apply Result.mapM_of_forall₂
  have heq : List.Forall₂ Eq ((List.range d.size).map (d.number? · identity)) (numbers.map some) := by
    rw [List.forall₂_eq_eq_eq]
    exact h
  rw [List.forall₂_map_left_iff, List.forall₂_map_right_iff] at heq
  refine heq.imp fun k n hn => ?_
  rw [provisional, hn]

/-- Pairs are accepted as far as they are as many as the rows and each old number is that of a row: the
k-th number of the rows goes with the k-th key. -/
theorem pairKeys_eq_ok {numbers : List Int} (h : d.HoldsNumbers identity numbers)
    {mapped pairs : List KeyPair} :
    d.pairKeys identity mapped = .ok pairs ↔
      (mapped.length = d.size ∧ ∀ p ∈ mapped, p.1 ∈ numbers) ∧
        pairs = numbers.zip (mapped.map Prod.snd) := by
  unfold pairKeys
  rw [provisional_mapM h]
  dsimp only [bind, Except.bind]
  split
  · next i key hf =>
    have hunknown : i ∉ numbers := by simpa using List.find?_some hf
    simp only [reduceCtorEq, false_iff]
    exact fun hall => hunknown (hall.1.2 (i, key) (List.mem_of_find?_eq_some hf))
  · next hf =>
    have hknown : ∀ p ∈ mapped, p.1 ∈ numbers := fun p hp => by
      simpa using List.find?_eq_none.1 hf p hp
    rw [h.length_eq]
    by_cases hl : mapped.length = d.size
    · simp only [hl, if_pos, Except.ok.injEq, true_and]
      exact ⟨fun hp => ⟨hknown, hp.symm⟩, fun hp => hp.2.symm⟩
    · simp [hl]

/-- Pairs that were accepted: the k-th provisional identity with the k-th key. -/
theorem pairKeys_ok {mapped pairs : List KeyPair}
    (hn : ∀ k < d.size, d.number? k identity = some (spec.nth k))
    (h : d.pairKeys identity mapped = .ok pairs) :
    mapped.length = d.size ∧ (∀ p ∈ mapped, p.1 ∈ (List.range d.size).map spec.nth) ∧
      pairs = ((List.range d.size).map spec.nth).zip (mapped.map Prod.snd) :=
  and_assoc.1 ((pairKeys_eq_ok (holdsNumbers_nth hn)).1 h)

def keyedRow (ordinal : Nat) (r : DataRow) (key : Value) : DataRow :=
  { values := r.values.set ordinal key, isSealed := true }

theorem writeKeysFrom_cons {row : Nat} {r : DataRow}
    (ho : d.model.ordinal? identity.id = some ordinal) (hs : d.suspended = true)
    (hr : d.rows[row]? = some r) (hu : r.isSealed = false) (p : KeyPair) (pairs : List KeyPair) :
    d.writeKeysFrom identity row (p :: pairs) =
      { d with rows := d.rows.set row (keyedRow ordinal r p.2) }.writeKeysFrom identity (row + 1)
        pairs := by
  have hlt : row < d.rows.length := (List.getElem?_eq_some_iff.1 hr).1
  simp only [writeKeysFrom, set_unsealed ho hs hr hu, sealRow, List.getElem?_set_self hlt,
    List.set_set, keyedRow]

/-- The rows before `rest` are done, those of `rest` are unsealed: each of them gets its key. -/
theorem writeKeysFrom_eq (ho : d.model.ordinal? identity.id = some ordinal)
    (hs : d.suspended = true) {done rest : List DataRow} (hd : d.rows = done ++ rest)
    (hu : ∀ r ∈ rest, r.isSealed = false) {pairs : List KeyPair}
    (hl : pairs.length = rest.length) :
    d.writeKeysFrom identity done.length pairs = (.ok (),
      { d with rows := done ++ rest.zipWith (keyedRow ordinal) (pairs.map Prod.snd) }) := by
  induction rest generalizing d done pairs with
  | nil =>
    obtain rfl := List.length_eq_zero_iff.1 hl
    simp [writeKeysFrom, ← hd]
  | cons r rest ih =>
    cases pairs with
    | nil => simp at hl
    | cons p pairs =>
      have hr : d.rows[done.length]? = some r := by simp [hd]
      have hset : d.rows.set done.length (keyedRow ordinal r p.2) =
          (done ++ [keyedRow ordinal r p.2]) ++ rest := by simp [hd]
      rw [writeKeysFrom_cons ho hs hr (hu r (by simp)), hset]
      have hl' : pairs.length = rest.length := by simpa using hl
      have := ih (d := { d with rows := (done ++ [keyedRow ordinal r p.2]) ++ rest }) ho hs rfl
        (fun r hr => hu r (by simp [hr])) hl'
      simpa using this

/-- Writing a key into every row succeeds where no row is sealed. -/
theorem writeKeys_eq (ho : d.model.ordinal? identity.id = some ordinal)
    (hu : ∀ r ∈ d.rows, r.isSealed = false) {pairs : List KeyPair} (hl : pairs.length = d.size) :
    d.writeKeys identity pairs = (.ok (),
      { d with rows := d.rows.zipWith (keyedRow ordinal) (pairs.map Prod.snd) }) := by
  have := writeKeysFrom_eq (d := { d with suspended := true }) ho rfl (List.nil_append _).symm hu hl
  simp only [writeKeys, whileSuspended, List.nil_append, List.length_nil] at this ⊢
  rw [this]

theorem keyed_zipWith (ho : d.model.ordinal? identity.id = some ordinal) {keys : List Value}
    (hc : ∀ k < d.size, (d.cell? k ordinal).isSome) (hl : keys.length = d.size) :
    d.Keyed { d with rows := d.rows.zipWith (keyedRow ordinal) keys } identity keys := by
  have hrow : ∀ k : Nat, (d.rows.zipWith (keyedRow ordinal) keys)[k]? =
      (d.rows[k]?).bind fun (r : DataRow) => (keys[k]?).map (keyedRow ordinal r) := by
    intro k
    rw [List.getElem?_zipWith]
    cases d.rows[k]? <;> cases keys[k]? <;> rfl
  refine ⟨rfl, rfl, rfl, by simp [size] at hl ⊢; omega, hl, fun k hk => ?_, fun r hr => ?_, ?_⟩
  · obtain ⟨r, hr⟩ : ∃ r, d.rows[k]? = some r := ⟨_, List.getElem?_eq_getElem hk⟩
    obtain ⟨key, hkey⟩ : ∃ key, keys[k]? = some key :=
      ⟨_, List.getElem?_eq_getElem (by omega : k < keys.length)⟩
    have hlt : ordinal < r.values.length := by simpa [cell?, hr] using hc k hk
    simp [value?, ho, cell?, hrow, hr, hkey, keyedRow, hlt]
  · obtain ⟨k, hk⟩ := List.getElem?_of_mem hr
    rw [hrow] at hk
    obtain ⟨r, -, hk⟩ := Option.bind_eq_some_iff.1 hk
    obtain ⟨key, -, rfl⟩ := Option.map_eq_some_iff.1 hk
    rfl
  · intro k i hi
    have hne : ordinal ≠ i := by
      rintro rfl
      exact hi ho
    simp only [cell?, hrow]
    cases hr : d.rows[k]? with
    | none => rfl
    | some r =>
      obtain ⟨hk, -⟩ := List.getElem?_eq_some_iff.1 hr
      obtain ⟨key, hkey⟩ : ∃ key, keys[k]? = some key :=
        ⟨_, List.getElem?_eq_getElem (hl.symm ▸ hk)⟩
      simp [hkey, keyedRow, List.getElem?_set_ne hne]

/-- Writing keys does not fail once the rows and the mapping have passed their checks. -/
theorem writeKeys_of_pairKeys {column : Column} {mapped pairs : List KeyPair}
    (hs : column.identity = some spec) (ho : (d.model.ordinal? column.id).isSome)
    (hp : d.checkProvisional column = .ok ())
    (hm : d.pairKeys column.toField mapped = .ok pairs) :
    ∃ after, d.writeKeys column.toField pairs = (.ok (), after) ∧
      d.Keyed after column.toField (mapped.map Prod.snd) := by
  obtain ⟨ordinal, ho⟩ := Option.isSome_iff_exists.1 ho
  have hn : ∀ k < d.size, d.number? k column.toField = some (spec.nth k) := fun k hk =>
    number?_of_checkProvisional hp hs hk
  obtain ⟨hl, -, rfl⟩ := pairKeys_ok hn hm
  have hu : ∀ r ∈ d.rows, r.isSealed = false := by
    intro r hr
    obtain ⟨k, hk⟩ := List.getElem?_of_mem hr
    exact (checkProvisional_ok hp hs hk).1
  have hc : ∀ k < d.size, (d.cell? k ordinal).isSome := by
    intro k hk
    have := hn k hk
    rw [number?, value?, ho] at this
    obtain ⟨v, hv, -⟩ := Option.bind_eq_some_iff.1 this
    exact Option.isSome_iff_exists.2 ⟨v, hv⟩
  refine ⟨_, writeKeys_eq ho hu (by simp [hl]), ?_⟩
  rw [List.map_snd_zip (by simp [hl])]
  exact keyed_zipWith ho hc (by simpa using hl)

end DataSet

end Tsql
