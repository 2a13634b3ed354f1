import Tsql.Proofs.BulkInsert.Remapping
import Tsql.Proofs.BulkInsert.Run
import Tsql.Proofs.DataSet.Replacements

/-!
# Children in memory

A child follows the new keys through each of its foreign keys, one after the other: a column is replaced
as often as foreign keys of it are listed (`remapColumns_ok`). Where no column is listed twice, or no new
key is a provisional one, each cell that held a provisional key holds the new key of that row, and nothing
else has changed: `run_rekeys`.
-/

namespace Tsql

def Model.Refers (m : Model) (parent : ModelId) (column : String) (f : Field) : Prop :=
  ∃ c ∈ m.constraints, ∃ key : ForeignKey, c.body = .foreignKey key ∧ key.columns = [f] ∧
    key.parent = parent ∧ key.parentColumns = [column]

/-- The one column of a foreign key that refers to one column of a parent. -/
def Constraint.referring? (parent : ModelId) (column : String) (c : Constraint) : Option Field :=
  match c.body with
  | .foreignKey key => match key.columns with
    | [f] => if key.parent = parent ∧ key.parentColumns = [column] then some f else none
    | _ => none
  | _ => none

theorem Constraint.referring?_eq_some {parent : ModelId} {column : String} {c : Constraint} {f : Field} :
    c.referring? parent column = some f ↔ ∃ key : ForeignKey, c.body = .foreignKey key ∧
      key.columns = [f] ∧ key.parent = parent ∧ key.parentColumns = [column] := by
  unfold referring?
  cases c.body with
  | foreignKey key => grind
  | _ => simp

theorem Model.childColumns_eq (m : Model) (parent : ModelId) (column : String) :
    m.childColumns parent column = m.constraints.filterMap (Constraint.referring? parent column) := by
  rw [childColumns, foreignKeysTo, List.filterMap_filterMap]
  congr 1
  funext c
  unfold Constraint.referring?
  cases c.body with
  | foreignKey key => grind
  | _ => rfl

theorem Model.mem_childColumns {m : Model} {parent : ModelId} {column : String} {f : Field} :
    f ∈ m.childColumns parent column ↔ m.Refers parent column f := by
  simp only [childColumns_eq, List.mem_filterMap, Constraint.referring?_eq_some, Refers]

namespace Remapping

/-- No number is replaced by one that is replaced itself. -/
def Final (m : Remapping) : Prop := ∀ i key, m.get? i = some key → m.valueFor? key = none

theorem Final.valueFor?_replace {m : Remapping} (h : m.Final) (v : Value) :
    m.valueFor? (m.replace v) = none := by
  cases hv : m.valueFor? v with
  | none => simp [replace, hv]
  | some key =>
    obtain ⟨i, -, hkey⟩ := Option.bind_eq_some_iff.1 hv
    simpa [replace, hv] using h i key hkey

/-- Such a replacement is done at once. -/
theorem Final.iterate {m : Remapping} (h : m.Final) (t : Nat) : m.replace^[t + 1] = m.replace := by
  induction t with
  | zero => rfl
  | succ t ih =>
    funext v
    rw [Function.iterate_succ_apply', ih]
    show (m.valueFor? (m.replace v)).getD (m.replace v) = m.replace v
    rw [h.valueFor?_replace, Option.getD_none]

end Remapping

namespace DataSet

variable {m : Remapping} {d e : DataSet} {f : Field} {n : Nat}

theorem Replaced.not_mem_replaceable {times : Nat → Nat} {k i : Nat} (h : d.Replaced m times e)
    (hm : m.Final) (hi : times i = 1) : (k, i) ∉ e.replaceable m := by
  have hnone : ∀ v, m.valueFor? (m.replace v) = none := fun v => hm.valueFor?_replace v
  simp [replaceable, h.cell_eq, hi, Option.bind_map, hnone]

/-- A cell refers to a row of a parent: its column has a foreign key to the identity column, and it holds
the number of the row. -/
structure PointsTo (child parent : DataSet) (identity : Field) (k i j : Nat) : Prop where
  column : ∃ f, child.model.Refers parent.model.id identity.name f ∧
    child.model.ordinal? f.id = some i
  number : ∃ old, parent.number? j identity = some old ∧
    (child.cell? k i).bind Value.asInt? = some old

def pointers (child parent : DataSet) (identity : Field) : Set (Nat × Nat) :=
  {p | ∃ j, child.PointsTo parent identity p.1 p.2 j}

/-- The new key of a row is the number that a row had before. -/
def Overlaps (parent parent' : DataSet) (identity : Field) : Prop :=
  ∃ i j key, parent'.number? i identity = some key ∧ parent.number? j identity = some key

/-- A child before and after the rows of its parent received new keys: the cells that referred to a row
hold its key, and nothing else has changed. -/
structure Rekeyed (parent parent' : DataSet) (identity : Field) (child child' : DataSet) : Prop where
  model_eq : child'.model = child.model
  counter_eq : child'.counter = child.counter
  suspended_eq : child'.suspended = child.suspended
  isSealed_eq : child'.rows.map DataRow.isSealed = child.rows.map DataRow.isSealed
  moved : ∀ k i j, child.PointsTo parent identity k i j →
    ∃ key, parent'.value? j identity = some key ∧ child'.cell? k i = some key
  kept : ∀ k i, (∀ j, ¬ child.PointsTo parent identity k i j) → child'.cell? k i = child.cell? k i

end DataSet

namespace BulkInsert

variable {m : Remapping} {d e : DataSet} {fields : List Field} {n : Nat}

theorem remapColumns_cons {f : Field} (h : remapColumns m d (f :: fields) = (.ok n, e)) :
    ∃ a b d', d.remap f m = .ok (a, d') ∧ remapColumns m d' fields = (.ok b, e) ∧ n = a + b := by
  unfold remapColumns at h
  split at h
  · cases h
  next a d' hf =>
    rcases hr : remapColumns m d' fields with ⟨r, e'⟩
    rw [hr] at h
    obtain ⟨hb, rfl⟩ := Prod.mk.inj h
    obtain ⟨b, rfl, rfl⟩ := Result.map_eq_ok hb
    exact ⟨a, b, d', hf, hr, rfl⟩

theorem remapAll_cons {parent : ModelId} {column : String} {rest after : List DataSet}
    (h : remapAll m parent column (d :: rest) = (.ok n, after)) :
    ∃ a b e rest', remapColumns m d (d.model.childColumns parent column) = (.ok a, e) ∧
      remapAll m parent column rest = (.ok b, rest') ∧ after = e :: rest' ∧ n = a + b := by
  unfold remapAll at h
  rcases hd : remapColumns m d (d.model.childColumns parent column) with ⟨r, e⟩
  rw [hd] at h
  cases r with
  | error err =>
    simp only [Prod.mk.injEq, reduceCtorEq, false_and] at h
  | ok a =>
    rcases hr : remapAll m parent column rest with ⟨r, rest'⟩
    simp only [hr] at h
    obtain ⟨hb, rfl⟩ := Prod.mk.inj h
    obtain ⟨b, rfl, rfl⟩ := Result.map_eq_ok hb
    exact ⟨a, b, e, rest', rfl, rfl, rfl, rfl⟩

/-- A column is replaced once for each time it is listed. -/
theorem remapColumns_ok (h : remapColumns m d fields = (.ok n, e)) :
    d.Replaced m (fun i => fields.countP fun f => d.model.ordinal? f.id = some i) e := by
  induction fields generalizing d n with
  | nil =>
    cases h
    exact .refl m _
  | cons f rest ih =>
    obtain ⟨a, b, d', hf, hr, -⟩ := remapColumns_cons h
    have hfirst := DataSet.Replaced.of_remap hf
    have hrest := ih hr
    rw [hfirst.model_eq] at hrest
    simpa only [List.countP_cons, decide_eq_true_eq] using hfirst.trans hrest

/-- Columns that are listed once, or keys that are final: as many replacements as there are cells to
replace. -/
theorem encard_remapColumns (h : remapColumns m d fields = (.ok n, e))
    (hone : m.Final ∨ (fields.map Field.id).Nodup) :
    {p ∈ d.replaceable m | ∃ f ∈ fields, d.model.ordinal? f.id = some p.2}.encard = n := by
  induction fields generalizing d n with
  | nil =>
    cases h
    simp
  | cons f rest ih =>
    obtain ⟨a, b, d', hf, hr, rfl⟩ := remapColumns_cons h
    obtain ⟨i, hi, -⟩ := DataSet.remap_ok hf
    have hfirst := DataSet.Replaced.of_remap hf
    have hkept : ∀ k o, o ≠ i → ((k, o) ∈ d'.replaceable m ↔ (k, o) ∈ d.replaceable m) :=
      fun k o ho => hfirst.mem_replaceable (by simp [hi, Ne.symm ho])
    -- What is left to replace is not in the column that was replaced first.
    have hdone : ∀ k, ¬ ((k, i) ∈ d'.replaceable m ∧
        ∃ g ∈ rest, d.model.ordinal? g.id = some i) := by
      rintro k ⟨hreplaced, g, hg, hgi⟩
      rcases hone with hfinal | hone
      · exact hfirst.not_mem_replaceable hfinal (by simp [hi]) hreplaced
      · exact (List.nodup_cons.1 hone).1
          (List.mem_map.2 ⟨g, hg, Model.ordinal?_injective hgi hi⟩)
    have hsplit : {p ∈ d.replaceable m | ∃ g ∈ f :: rest, d.model.ordinal? g.id = some p.2} =
        (fun k => (k, i)) '' {k | (k, i) ∈ d.replaceable m} ∪
          {p ∈ d'.replaceable m | ∃ g ∈ rest, d'.model.ordinal? g.id = some p.2} := by
      ext ⟨k, o⟩
      rw [hfirst.model_eq]
      by_cases ho : o = i
      · subst ho
        simp only [Set.mem_union, Set.mem_ofPred_eq, Set.mem_image, List.exists_mem_cons_iff, hi,
          hdone k, or_false]
        grind
      · simp [hi, Ne.symm ho, hkept k o ho]
    rw [hsplit, Set.encard_union_eq ?_, Function.Injective.encard_image ?_, DataSet.encard_remap hf hi,
      ih hr (hone.imp_right fun hone => (List.nodup_cons.1 hone).2)]
    · simp
    · exact fun k l hkl => (Prod.mk.inj hkl).1
    · rw [Set.disjoint_left, hfirst.model_eq]
      rintro _ ⟨k, -, rfl⟩ hrest
      exact hdone k hrest

theorem countP_ordinal {model : Model} {f : Field} {i : Nat} (hone : (fields.map Field.id).Nodup)
    (hf : f ∈ fields) (hi : model.ordinal? f.id = some i) :
    fields.countP (fun g => model.ordinal? g.id = some i) = 1 := by
  induction fields with
  | nil => cases hf
  | cons g rest ih =>
    obtain ⟨hnew, hone⟩ := List.nodup_cons.1 hone
    rw [List.countP_cons]
    rcases List.mem_cons.1 hf with rfl | hf
    · have hrest : rest.countP (fun h => model.ordinal? h.id = some i) = 0 :=
        List.countP_eq_zero.2 fun h hh hhi => hnew (List.mem_map.2
          ⟨h, hh, Model.ordinal?_injective (of_decide_eq_true hhi) hi⟩)
      simp [hrest, hi]
    · have hg : model.ordinal? g.id ≠ some i := fun hgi =>
        hnew (List.mem_map.2 ⟨f, hf, Model.ordinal?_injective hi hgi⟩)
      simp [ih hone hf, hg]

theorem replace_listed {model : Model} {f : Field} {i : Nat}
    (hone : m.Final ∨ (fields.map Field.id).Nodup) (hf : f ∈ fields)
    (hi : model.ordinal? f.id = some i) :
    m.replace^[fields.countP fun g => model.ordinal? g.id = some i] = m.replace := by
  rcases hone with hfinal | hone
  · have hpos : 0 < fields.countP fun g => model.ordinal? g.id = some i :=
      List.countP_pos_iff.2 ⟨f, hf, decide_eq_true hi⟩
    obtain ⟨t, ht⟩ := Nat.exists_eq_add_one_of_ne_zero (Nat.ne_of_gt hpos)
    rw [ht, hfinal.iterate]
  · rw [countP_ordinal hone hf hi, Function.iterate_one]

/-- A replacement of the keys of some rows, before and after they received new keys. -/
structure Carries (m : Remapping) (parent parent' : DataSet) (identity : Field) : Prop where
  new : ∀ j old, parent.number? j identity = some old →
    ∃ key, m.get? old = some key ∧ parent'.value? j identity = some key
  old : ∀ i key, m.get? i = some key → ∃ j, parent.number? j identity = some i

variable {parent parent' : DataSet} {identity : Field}

theorem Carries.final (hm : Carries m parent parent' identity)
    (hspared : ¬ parent.Overlaps parent' identity) : m.Final := by
  intro old key hkey
  obtain ⟨i, hi⟩ := hm.old old key hkey
  obtain ⟨new, hnew, hvalue⟩ := hm.new i old hi
  obtain rfl : key = new := Option.some.inj (hkey.symm.trans hnew)
  cases hnumber : key.asInt? with
  | none => simp [Remapping.valueFor?, hnumber]
  | some n =>
    cases hn : m.get? n with
    | none => simp [Remapping.valueFor?, hnumber, hn]
    | some _ =>
      obtain ⟨j, hj⟩ := hm.old n _ hn
      exact absurd ⟨i, j, n, by simp [DataSet.number?, hvalue, hnumber], hj⟩ hspared

/-- The cells to replace in the columns with a foreign key are those that refer to a row. -/
theorem Carries.pointers_eq (hm : Carries m parent parent' identity) (d : DataSet) :
    {p ∈ d.replaceable m | ∃ f ∈ d.model.childColumns parent.model.id identity.name,
      d.model.ordinal? f.id = some p.2} = d.pointers parent identity := by
  ext ⟨k, i⟩
  constructor
  · rintro ⟨hreplaced, f, hf, hi⟩
    obtain ⟨key, hkey⟩ := Option.isSome_iff_exists.1 hreplaced
    obtain ⟨v, hv, hkey⟩ := Option.bind_eq_some_iff.1 hkey
    obtain ⟨old, hold, hkey⟩ := Option.bind_eq_some_iff.1 hkey
    obtain ⟨j, hj⟩ := hm.old old key hkey
    exact ⟨j, ⟨f, Model.mem_childColumns.1 hf, hi⟩, old, hj, by simp [hv, hold]⟩
  · rintro ⟨j, ⟨f, hf, hi⟩, old, hj, hcell⟩
    obtain ⟨v, hv, hold⟩ := Option.bind_eq_some_iff.1 hcell
    obtain ⟨key, hkey, -⟩ := hm.new j old hj
    exact ⟨by simp [DataSet.replaceable, hv, Remapping.valueFor?, hold, hkey], f,
      Model.mem_childColumns.2 hf, hi⟩

theorem Carries.rekeyed (hm : Carries m parent parent' identity)
    (h : remapColumns m d (d.model.childColumns parent.model.id identity.name) = (.ok n, e))
    (hone : m.Final ∨
      ((d.model.childColumns parent.model.id identity.name).map Field.id).Nodup) :
    parent.Rekeyed parent' identity d e ∧ n = (d.pointers parent identity).ncard := by
  have hreplaced := remapColumns_ok h
  refine ⟨⟨hreplaced.model_eq, hreplaced.counter_eq, hreplaced.suspended_eq,
    hreplaced.isSealed_eq, fun k i j hp => ?_, fun k i hp => ?_⟩, ?_⟩
  · obtain ⟨⟨f, hf, hi⟩, old, hj, hcell⟩ := hp
    obtain ⟨v, hv, hold⟩ := Option.bind_eq_some_iff.1 hcell
    obtain ⟨key, hkey, hnew⟩ := hm.new j old hj
    refine ⟨key, hnew, ?_⟩
    rw [hreplaced.cell_eq, replace_listed hone (Model.mem_childColumns.2 hf) hi, hv]
    simp [Remapping.replace, Remapping.valueFor?, hold, hkey]
  · rw [hreplaced.cell_eq]
    by_cases hlisted : ∃ f ∈ d.model.childColumns parent.model.id identity.name,
        d.model.ordinal? f.id = some i
    · obtain ⟨f, hf, hi⟩ := hlisted
      have hspared : (k, i) ∉ d.pointers parent identity := by
        rintro ⟨j, hj⟩
        exact hp j hj
      rw [← hm.pointers_eq] at hspared
      have hnone : (d.cell? k i).bind m.valueFor? = none := by
        rw [← Option.not_isSome_iff_eq_none]
        exact fun hsome => hspared ⟨hsome, f, hf, hi⟩
      rw [replace_listed hone hf hi]
      cases hv : d.cell? k i with
      | none => rfl
      | some v =>
        rw [hv, Option.bind_some] at hnone
        simp [Remapping.replace, hnone]
    · have hzero : (d.model.childColumns parent.model.id identity.name).countP
          (fun f => d.model.ordinal? f.id = some i) = 0 :=
        List.countP_eq_zero.2 fun f hf hi => hlisted ⟨f, hf, of_decide_eq_true hi⟩
      simp [hzero]
  · rw [Set.ncard_def, ← hm.pointers_eq, encard_remapColumns h hone]
    rfl

theorem Carries.allRekeyed (hm : Carries m parent parent' identity) {children after : List DataSet}
    (h : remapAll m parent.model.id identity.name children = (.ok n, after))
    (hone : ∀ d ∈ children, m.Final ∨
      ((d.model.childColumns parent.model.id identity.name).map Field.id).Nodup) :
    List.Forall₂ (parent.Rekeyed parent' identity) children after ∧
      n = (children.map fun d => (d.pointers parent identity).ncard).sum := by
  induction children generalizing n after with
  | nil =>
    cases h
    exact ⟨.nil, rfl⟩
  | cons d rest ih =>
    obtain ⟨a, b, e, rest', hd, hr, rfl, rfl⟩ := remapAll_cons h
    obtain ⟨hfirst, ha⟩ := hm.rekeyed hd (hone d List.mem_cons_self)
    obtain ⟨hrest, hb⟩ := ih hr fun d hd => hone d (List.mem_cons_of_mem _ hd)
    exact ⟨.cons hfirst hrest, by rw [List.map_cons, List.sum_cons, ← ha, ← hb]⟩

open ActionOn Session

variable {server : Server} {job job' : BulkInsert} {session session' : Session}
  {r : Result BulkOutcome} {outcome : BulkOutcome} {spec : IdentitySpec}

/-- The replacement of a run has for the old key of a row the key that the row holds. -/
theorem KeysRead.Rest.get?_key {k : KeysRead server job session} (rest : k.Rest r job' session')
    (hs : k.identity.identity = some spec) (hinc : spec.increment ≠ 0)
    {i : Nat} (hi : i < job.rows.size) :
    ∃ key, job'.rows.value? i k.identity.toField = some key ∧
      (Remapping.ofPairs k.pairs).get? (spec.nth i) = some key := by
  obtain ⟨hlen, -, hzip⟩ := k.pairs_zip hs
  obtain ⟨key, hkey⟩ : ∃ key, (k.mapped.map Prod.snd)[i]? = some key :=
    ⟨_, List.getElem?_eq_getElem (by simpa [hlen] using hi)⟩
  have hmem : (spec.nth i, key) ∈ k.pairs := by
    rw [hzip]
    refine List.mem_of_getElem? (i := i) ?_
    simp [List.getElem?_zip_eq_some, hkey, hi]
  refine ⟨key, ?_, (Remapping.get?_ofPairs_iff (k.pairs_inj hs hinc)).2 hmem⟩
  rw [rest.rows_eq, rest.keyed.key i hi, hkey]

/-- The replacement of a run leads from the provisional keys of its rows to their new keys. -/
theorem KeysRead.Rest.carries {k : KeysRead server job session} (rest : k.Rest r job' session')
    (hs : k.identity.identity = some spec) (hinc : spec.increment ≠ 0) :
    Carries (Remapping.ofPairs k.pairs) job.rows job'.rows k.identity.toField where
  new j old hj := by
    have hlt : j < job.rows.size := by
      by_contra hge
      rw [DataSet.number?, DataSet.value?] at hj
      simp [DataSet.cell?, List.getElem?_eq_none (Nat.le_of_not_lt hge)] at hj
    obtain ⟨key, hkey, hget⟩ := rest.get?_key hs hinc hlt
    have hold := DataSet.number?_of_checkProvisional k.provisional hs hlt
    rw [Option.some.inj (hj.symm.trans hold)]
    exact ⟨key, hget, hkey⟩
  old i key hkey := by
    have hmem := List.mem_map_of_mem (f := Prod.fst)
      ((Remapping.get?_ofPairs_iff (k.pairs_inj hs hinc)).1 hkey)
    rw [k.pairs_fst hs] at hmem
    obtain ⟨j, hj, hi⟩ := List.mem_map.1 hmem
    obtain rfl : spec.nth j = i := hi
    exact ⟨j, DataSet.number?_of_checkProvisional k.provisional hs (List.mem_range.1 hj)⟩

/-- A run that brings no keys back leaves the children alone. -/
theorem run_unpropagated (h : job.run server session = (.ok outcome, job', session'))
    (hp : job.propagates = false) : job' = job ∧ outcome.childrenRemapped = 0 := by
  have hrun := steps_of_run h
  rw [steps, runWith_bind, runWith_get] at hrun
  dsimp only at hrun
  split_ifs at hrun with hempty
  · cases hrun
    exact ⟨rfl, rfl⟩
  rw [runWith_bind, runWith_sendRows] at hrun
  rcases hb : Rowset.build session.supply job.rows session.types job.rows.model.insertableColumns
    with e | ⟨rowset, supply⟩ <;> simp only [hb] at hrun
  · cases hrun
  rw [hp] at hrun
  split at hrun
  · contradiction
  · refine ⟨(of_plainInsert hrun).job_eq, ?_⟩
    rcases of_bind hrun with ⟨e, -, he⟩ | ⟨n, u, -, hu⟩
    · cases he
    · cases hu
      rfl

/-- After a run that succeeded each cell with a foreign key that held the provisional key of a row holds
its new key, and all other cells are as they were; such cells are counted. Where new keys are provisional
keys of rows, no column may have two such foreign keys: it would be replaced twice. -/
theorem run_rekeys {identity : Column} (h : job.run server session = (.ok outcome, job', session'))
    (hpos : 0 < outcome.inserted) (hi : job.rows.model.identityColumn? = some identity)
    (hs : identity.identity = some spec) (hinc : spec.increment ≠ 0)
    (hone : ¬ job.rows.Overlaps job'.rows identity.toField ∨ ∀ d ∈ job.children,
      ((d.model.childColumns job.rows.model.id identity.name).map Field.id).Nodup) :
    if job.propagates then
      List.Forall₂ (job.rows.Rekeyed job'.rows identity.toField) job.children job'.children ∧
        outcome.childrenRemapped =
          (job.children.map fun d => (d.pointers job.rows identity.toField).ncard).sum
    else job'.children = job.children ∧ outcome.childrenRemapped = 0 := by
  split
  next hp =>
    rcases run_cases h with ⟨-, hz⟩ | ⟨k, ⟨rest⟩⟩
    · rcases hz outcome rfl hpos with hnone | hoff
      · rw [hi] at hnone
        cases hnone
      · rw [hp] at hoff
        cases hoff
    obtain rfl : k.identity = identity := Option.some.inj (k.identity_eq.symm.trans hi)
    have hresult := rest.result_eq outcome rfl
    have hfollowed := rest.followed
    rw [hresult] at hfollowed
    cases hfollowed with
    | remapped _ hchildren _ hcounted =>
      rw [rest.keyed.model_eq, ← rest.job_eq] at hchildren
      have hcarries := rest.carries hs hinc
      obtain ⟨hall, hcount⟩ := hcarries.allRekeyed hchildren fun d hd =>
        hone.imp hcarries.final fun hone => hone d hd
      exact ⟨hall, (hcounted outcome rfl).trans hcount⟩
  next hp =>
    obtain ⟨rfl, hzero⟩ := run_unpropagated h (Bool.eq_false_iff.2 hp)
    exact ⟨rfl, hzero⟩

def linedOrders : DataSet :=
  { model :=
      { Model.empty ⟨1⟩ "Order" .table with
        columns := [{ id := ⟨1⟩, name := "Id", type := .int32, identity := some ⟨1, 1⟩ },
          { id := ⟨2⟩, name := "Amount", type := .int32 }] }
    rows := [{ values := [.int32 1, .int32 20] }, { values := [.int32 2, .int32 10] }] }

def lineOrder : Field := ⟨⟨3⟩, "OrderId", .int32⟩

def lineOrigin : Field := ⟨⟨4⟩, "OriginId", .int32⟩

def toOrder (f : Field) : Constraint :=
  ⟨"FK", .foreignKey (ForeignKey.to [f] linedOrders.model ["Id"] .noAction .noAction), none⟩

/-- An insert of the orders with lines whose model has some foreign keys. -/
def withLines (keys : List Constraint) : BulkInsert :=
  { rows := linedOrders
    children :=
      [{ model :=
          { Model.empty ⟨2⟩ "Line" .table with
            columns := [{ lineOrder with }, { lineOrigin with }], constraints := keys }
         rows := [{ values := [.int32 1, .int32 2] }, { values := [.int32 2, .int32 1] },
           { values := [.int32 7, .null] }] }] }

/-- A server that gives the orders the keys two and three. -/
def shifted : Server where
  affected _ _ := .ok 2
  rows _ _ := .ok [⟨["OldValue", "NewValue"], [.i32 1, .i32 2]⟩,
    ⟨["OldValue", "NewValue"], [.i32 2, .i32 3]⟩]
  cancelled _ := false

/-- A session whose identities come after those of the models. -/
def afterLines : Session := { supply := ⟨3, 5, 1⟩ }

def shiftedInsert : BulkInsert := withLines [toOrder lineOrder, toOrder lineOrigin]

theorem run_rekeys_shifted :
    let job' := (shiftedInsert.run shifted afterLines).2.1
    List.Forall₂ (shiftedInsert.rows.Rekeyed job'.rows ⟨⟨1⟩, "Id", .int32⟩) shiftedInsert.children
        job'.children ∧
      (shiftedInsert.children.map fun d =>
        (d.pointers shiftedInsert.rows ⟨⟨1⟩, "Id", .int32⟩).ncard).sum = 4 ∧
      job'.children.map (fun d => d.rows.map DataRow.values) =
        [[[.int32 2, .int32 3], [.int32 3, .int32 2], [.int32 7, .null]]] := by
  have hok : (shiftedInsert.run shifted afterLines).1 = .ok
      { completed := true, inserted := 2, propagated := 2, childrenRemapped := 4 } := by
    decide +kernel
  have hrun : shiftedInsert.run shifted afterLines =
      (.ok { completed := true, inserted := 2, propagated := 2, childrenRemapped := 4 },
        (shiftedInsert.run shifted afterLines).2.1, (shiftedInsert.run shifted afterLines).2.2) := by
    rw [← hok]
  have hidentity : shiftedInsert.rows.model.identityColumn? =
    some { id := ⟨1⟩, name := "Id", type := .int32, identity := some ⟨1, 1⟩ } := rfl
  obtain ⟨hall, hcount⟩ := run_rekeys hrun (by decide) hidentity rfl (by decide) (.inr (by decide))
  exact ⟨hall, hcount.symm, by decide +kernel⟩

/-- One column of a line has two foreign keys. -/
def chainedInsert : BulkInsert := withLines [toOrder lineOrder, toOrder lineOrder]

/-- The column is replaced twice: what referred to the first order refers to the second one afterwards. -/
theorem run_rekeys_chained :
    let job' := (chainedInsert.run shifted afterLines).2.1
    (chainedInsert.run shifted afterLines).1 = .ok
        { completed := true, inserted := 2, propagated := 2, childrenRemapped := 3 } ∧
      job'.rows.value? 0 ⟨⟨1⟩, "Id", .int32⟩ = some (.int32 2) ∧
      ∀ line ∈ chainedInsert.children,
        line.PointsTo chainedInsert.rows ⟨⟨1⟩, "Id", .int32⟩ 0 0 0 ∧
          ∀ line' ∈ job'.children, line'.cell? 0 0 = some (.int32 3) := by
  refine ⟨by decide +kernel, by decide +kernel, fun line hline => ⟨?_, by decide +kernel⟩⟩
  obtain rfl := List.mem_singleton.1 hline
  exact ⟨⟨lineOrder, ⟨_, List.mem_cons_self, _, rfl, rfl, rfl, rfl⟩, by decide⟩, 1, by decide,
    by decide⟩

end BulkInsert

end Tsql
