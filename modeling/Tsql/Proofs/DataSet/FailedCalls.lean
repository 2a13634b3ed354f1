import Tsql.Proofs.DataSet.Operations
import Tsql.Proofs.DataSet.SealedKeys

/-!
# What failed calls leave behind

The operations of a data set give a new one or an error. An `Edit` is the same operation as a sequence of
checks and writes, in which whatever was written before an error stays; `Call.run_edit` is that the two
come to the same. Every check comes before the first write of its operation, so a call that fails changes
nothing (`failed_unchanged`). Only a new row with cells is made of several operations: it stays as far as
it was written when one of its columns turns out not to belong to the model.
-/

namespace Tsql.DataSet

open Text

/-- An operation that reads and writes a data set as it goes. -/
abbrev Edit (α : Type) := EStateM Error DataSet α

namespace Edit

def check {α : Type} : Result α → Edit α
  | .ok a => pure a
  | .error err => throw err

/-- Adds a row of nulls with the next provisional identity. -/
def addRow : Edit Nat := do
  let d ← get
  let nulls := d.model.columns.map fun _ => Value.null
  match d.counter, d.suspended with
  | some c, false =>
    let (ordinal, v) ← check (d.nextIdentity c)
    modify fun d => { d with counter := some (c.resume c.next) }
    modify fun d => { d with rows := d.rows ++ [{ values := nulls.set ordinal v }] }
  | _, _ => modify fun d => { d with rows := d.rows ++ [{ values := nulls }] }
  return d.size

def set (row : Nat) (f : Field) (v : Value) : Edit Unit := do
  let d ← get
  let ordinal ← check (d.ordinal f)
  match d.rows[row]? with
  | none => throw (.argumentOutOfRange
      s!"row {natText row} of data set '{d.model.name}' (len {natText d.size})")
  | some r =>
    if r.isSealed && d.model.isKeyColumn f.id then
      throw (.invalidStatement
        s!"primary key column '{f.name}' of row {natText row} is sealed")
    modify fun d => { d with counter := d.observed ordinal v }
    modify fun d => { d with rows := d.rows.set row { r with values := r.values.set ordinal v } }

def setAll (row : Nat) : List (Field × Value) → Edit Unit
  | [] => pure ()
  | (f, v) :: rest => do
    set row f v
    setAll row rest

/-- Makes the primary key of a row final. -/
def sealRow (row : Nat) : Edit Unit := do
  let d ← get
  match d.rows[row]? with
  | none => throw (.argumentOutOfRange
      s!"row {natText row} of data set (len {natText d.size})")
  | some r => modify fun d => { d with rows := d.rows.set row { r with isSealed := true } }

def remap (f : Field) (m : Remapping) : Edit Unit := do
  let ordinal ← check ((← get).ordinal f)
  modify fun d => { d with rows := d.rows.map (remapRow m ordinal) }

end Edit

def Call.edit : Call → Edit Unit
  | .addRow => discard Edit.addRow
  | .addRowWith values => do Edit.setAll (← Edit.addRow) values
  | .set row f v => Edit.set row f v
  | .remap f m => Edit.remap f m
  | .sealRow row => Edit.sealRow row
  | .suspend b => modify fun d => { d with suspended := b }

variable {d e : DataSet} {row : Nat} {f : Field} {v : Value} {values : List (Field × Value)} {err : Error}

namespace Edit

section

variable {α β : Type} (x : Edit α) (g : α → Edit β) (d : DataSet)

theorem run_bind : (x >>= g).run d = match x.run d with
    | .ok a e => (g a).run e
    | .error err e => .error err e := by
  simp only [EStateM.run, bind, EStateM.bind]
  cases x d <;> rfl

theorem run_get : (get : Edit DataSet).run d = .ok d d := rfl

theorem run_check (r : Result α) : (check r).run d = match r with
    | .ok a => .ok a d
    | .error err => .error err d := by
  cases r <;> rfl

end

/-- What an operation gives and leaves behind: on an error the data set is the one before. -/
def ended {α : Type} (d : DataSet) : Result (α × DataSet) → EStateM.Result Error DataSet α
  | .ok (a, e) => .ok a e
  | .error err => .error err d

theorem run_addRow (d : DataSet) : addRow.run d = ended d d.addRow := by
  obtain ⟨model, rows, _ | c, suspended⟩ := d
  · rfl
  cases suspended with
  | true => rfl
  | false =>
    unfold addRow DataSet.addRow
    simp only [run_bind, run_get, run_check]
    cases nextIdentity _ c <;> rfl

theorem run_set (d : DataSet) (row : Nat) (f : Field) (v : Value) :
    (set row f v).run d = ended d ((d.set row f v).map ((), ·)) := by
  unfold set DataSet.set
  simp only [run_bind, run_get, run_check]
  cases d.ordinal f with
  | error err => rfl
  | ok i =>
    dsimp only
    cases d.rows[row]? with
    | none => rfl
    | some r =>
      dsimp only
      cases r.isSealed && d.model.isKeyColumn f.id <;> rfl

theorem run_sealRow (d : DataSet) (row : Nat) :
    (sealRow row).run d = ended d ((d.sealRow row).map ((), ·)) := by
  unfold sealRow DataSet.sealRow
  rw [run_bind, run_get]
  dsimp only
  cases d.rows[row]? <;> rfl

theorem run_remap (d : DataSet) (f : Field) (m : Remapping) :
    (remap f m).run d = ended d ((d.remap f m).map fun p => ((), p.2)) := by
  unfold remap DataSet.remap
  simp only [run_bind, run_get, run_check]
  cases d.ordinal f <;> rfl

theorem run_setAll (d : DataSet) (row : Nat) (values : List (Field × Value)) :
    (setAll row values).run d = match d.setAll row values with
      | (.ok (), e) => .ok () e
      | (.error err, e) => .error err e := by
  induction values generalizing d with
  | nil => rfl
  | cons p rest ih =>
    obtain ⟨f, v⟩ := p
    unfold setAll DataSet.setAll
    rw [run_bind, run_set]
    cases d.set row f v with
    | error err => rfl
    | ok e => exact ih e

end Edit

/-- What a call gives. -/
def outcome (d : DataSet) : Call → Result Unit
  | .addRow => d.addRow.map fun _ => ()
  | .addRowWith values => (d.addRowWith values).1.map fun _ => ()
  | .set row f v => (d.set row f v).map fun _ => ()
  | .remap f m => (d.remap f m).map fun _ => ()
  | .sealRow row => (d.sealRow row).map fun _ => ()
  | .suspend _ => .ok ()

/-- A call that writes as it goes gives the same and leaves the same behind. -/
theorem Call.run_edit (c : Call) (d : DataSet) : c.edit.run d = match d.outcome c with
    | .ok () => .ok () (d.after c)
    | .error err => .error err (d.after c) := by
  cases c with
  | addRow =>
    show (Edit.addRow >>= fun _ => pure ()).run d = _
    rw [Edit.run_bind, Edit.run_addRow, outcome, after]
    cases d.addRow <;> rfl
  | addRowWith values =>
    rw [edit, Edit.run_bind, Edit.run_addRow, outcome, after, DataSet.addRowWith]
    cases d.addRow with
    | error err => rfl
    | ok p =>
      obtain ⟨row, e⟩ := p
      dsimp only [Edit.ended]
      rw [Edit.run_setAll]
      rcases e.setAll row values with ⟨_ | _, e'⟩ <;> rfl
  | set row f v =>
    rw [edit, Edit.run_set, outcome, after]
    cases d.set row f v <;> rfl
  | remap f m =>
    rw [edit, Edit.run_remap, outcome, after]
    cases d.remap f m <;> rfl
  | sealRow row =>
    rw [edit, Edit.run_sealRow, outcome, after]
    cases d.sealRow row <;> rfl
  | suspend b => rfl

/-! ### A row with cells -/

theorem set_error (h : d.set row f v = .error err) : d.model.ordinal? f.id = none ∨
    d.rows[row]? = none ∨ ∃ r, d.rows[row]? = some r ∧ r.isSealed = true := by
  cases hi : d.model.ordinal? f.id with
  | none => exact .inl rfl
  | some i =>
    refine .inr ?_
    cases hr : d.rows[row]? with
    | none => exact .inl rfl
    | some r =>
      refine .inr ⟨r, rfl, ?_⟩
      cases hs : r.isSealed with
      | true => rfl
      | false => simp [set, ordinal, hi, hr, hs, bind, Except.bind] at h

/-- A data set with one row more, which is not sealed. -/
structure Grown (d e : DataSet) : Prop where
  model_eq : e.model = d.model
  size_eq : e.size = d.size + 1
  unsealed : ∃ r, e.rows[d.size]? = some r ∧ r.isSealed = false

theorem Grown.of_addRow (h : d.addRow = .ok (row, e)) : row = d.size ∧ Grown d e := by
  obtain ⟨rfl, r, counter, hr, -, rfl⟩ := addRow_ok h
  exact ⟨rfl, rfl, by simp [size], r, by simp [size], hr⟩

theorem Grown.set {e' : DataSet} (hg : Grown d e) (h : e.set d.size f v = .ok e') : Grown d e' := by
  obtain ⟨i, r, -, hr, -, rfl⟩ := set_ok h
  obtain ⟨r', hr', hunsealed⟩ := hg.unsealed
  obtain rfl := Option.some.inj (hr.symm.trans hr')
  refine ⟨hg.model_eq, by simpa [size] using hg.size_eq, { r with values := r.values.set i v }, ?_,
    hunsealed⟩
  exact List.getElem?_set_self (List.getElem?_eq_some_iff.1 hr).1

/-- A cell of the new row can only fail to be written where its column is not of the model. -/
theorem Grown.ordinal_eq_none (hg : Grown d e) (h : e.set d.size f v = .error err) :
    d.model.ordinal? f.id = none := by
  obtain ⟨r, hr, hunsealed⟩ := hg.unsealed
  rcases set_error h with hnone | hnone | ⟨r', hr', hsealed⟩
  · rw [← hg.model_eq, hnone]
  · rw [hr] at hnone
    cases hnone
  · rw [hr] at hr'
    cases hr'
    rw [hunsealed] at hsealed
    cases hsealed

/-- Cells that could not all be written: the first that could not, and what the ones before it left. -/
theorem Grown.setAll_error {e' : DataSet} (hg : Grown d e)
    (h : e.setAll d.size values = (.error err, e')) : Grown d e' ∧
      ∃ done f v rest, values = done ++ (f, v) :: rest ∧ d.model.ordinal? f.id = none ∧
        e.setAll d.size done = (.ok (), e') := by
  induction values generalizing e with
  | nil => cases h
  | cons p rest ih =>
    obtain ⟨f, v⟩ := p
    unfold DataSet.setAll at h
    cases hset : e.set d.size f v with
    | error err' =>
      rw [hset] at h
      cases h
      exact ⟨hg, [], f, v, rest, rfl, hg.ordinal_eq_none hset, rfl⟩
    | ok e₁ =>
      rw [hset] at h
      obtain ⟨hg', done, g, w, rest', rfl, hnone, hdone⟩ := ih (hg.set hset) h
      refine ⟨hg', (f, v) :: done, g, w, rest', rfl, hnone, ?_⟩
      unfold DataSet.setAll
      rw [hset]
      exact hdone

theorem addRowWith_error (h : d.addRowWith values = (.error err, e)) :
    (e = d ∧ d.addRow = .error err) ∨ Grown d e ∧ ∃ done f v rest,
      values = done ++ (f, v) :: rest ∧ d.model.ordinal? f.id = none ∧
        d.addRowWith done = (.ok d.size, e) := by
  unfold addRowWith at h
  cases hadd : d.addRow with
  | error err' =>
    rw [hadd] at h
    cases h
    exact .inl ⟨rfl, rfl⟩
  | ok p =>
    obtain ⟨row, e₁⟩ := p
    obtain ⟨rfl, hg⟩ := Grown.of_addRow hadd
    rw [hadd] at h
    dsimp only at h
    rcases hset : e₁.setAll d.size values with ⟨err' | _, e₂⟩
    · rw [hset] at h
      cases h
      obtain ⟨hg', done, f, v, rest, rfl, hnone, hdone⟩ := hg.setAll_error hset
      refine .inr ⟨hg', done, f, v, rest, rfl, hnone, ?_⟩
      unfold addRowWith
      rw [hadd]
      dsimp only
      rw [hdone]
      rfl
    · rw [hset] at h
      cases h

/-- A failed call leaves the data set as it was, unless it has added a row and one of the row's columns is
not of the model. Then the row stays, with the cells that stand before the first such column. -/
theorem failed_unchanged {d e : DataSet} {c : Call} {err : Error}
    (h : c.edit.run d = .error err e) :
    d.outcome c = .error err ∧ d.after c = e ∧
      ((e = d ∧ ∀ values, c = .addRowWith values → d.addRow = .error err) ∨
        e.size = d.size + 1 ∧ ∃ done f v rest, c = .addRowWith (done ++ (f, v) :: rest) ∧
          d.model.ordinal? f.id = none ∧ (Call.addRowWith done).edit.run d = .ok () e) := by
  rw [c.run_edit] at h
  cases hout : d.outcome c with
  | ok _ =>
    rw [hout] at h
    cases h
  | error err' =>
  rw [hout] at h
  cases h
  refine ⟨rfl, rfl, ?_⟩
  have hsame {α : Type} {r : Result α} {k : α → DataSet} (hr : (r.map fun _ => ()) = .error err) :
      d.orSame (r.map k) = d := by
    cases r with
    | error _ => rfl
    | ok _ => cases hr
  cases c with
  | addRow => exact .inl ⟨hsame hout, by simp⟩
  | addRowWith values =>
    rw [outcome] at hout
    rcases hadded : d.addRowWith values with ⟨err' | row, e⟩
    · rw [hadded] at hout
      cases hout
      rw [after, hadded]
      rcases addRowWith_error hadded with ⟨rfl, hadd⟩ | ⟨hg, done, f, v, rest, rfl, hnone, hdone⟩
      · exact .inl ⟨rfl, fun _ _ => hadd⟩
      · refine .inr ⟨hg.size_eq, done, f, v, rest, rfl, hnone, ?_⟩
        rw [Call.run_edit, outcome, after, hdone]
        rfl
    · rw [hadded] at hout
      cases hout
  | set row f v =>
    have hset := hsame (k := id) hout
    rw [Except.map_id] at hset
    exact .inl ⟨hset, by simp⟩
  | remap f m => exact .inl ⟨hsame hout, by simp⟩
  | sealRow row =>
    have hsealed := hsame (k := id) hout
    rw [Except.map_id] at hsealed
    exact .inl ⟨hsealed, by simp⟩
  | suspend b => cases hout

theorem failed_unchanged_refused :
    let sealed := oneDetail.after (.sealRow 0)
    let c := Call.set 0 orderKey (.int32 9)
    ∃ err, c.edit.run sealed = .error err sealed ∧ sealed.outcome c = .error err ∧
      sealed.after c = sealed := by
  intro sealed c
  obtain ⟨err, h⟩ : ∃ err, c.edit.run sealed = .error err sealed := ⟨_, rfl⟩
  obtain ⟨hout, hafter, -⟩ := failed_unchanged h
  exact ⟨err, h, hout, hafter⟩

def strayColumn : Field := ⟨⟨7⟩, "Other", .int32⟩

/-- A row with such a column stays, half filled. -/
theorem failed_unchanged_halfFilled :
    let c := Call.addRowWith [(orderKey, .int32 5), (strayColumn, .int32 1)]
    let before := DataSet.empty oneDetail.model
    ∃ err e, c.edit.run before = .error err e ∧ before.after c = e ∧ before.rows = [] ∧
      e.rows = [{ values := [.int32 5, .null] }] :=
  ⟨_, _, rfl, rfl, rfl, rfl⟩

end Tsql.DataSet
