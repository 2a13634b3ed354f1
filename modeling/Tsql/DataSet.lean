import Tsql.Error
import Tsql.Model.Basic

/-!
# Data sets

A `DataSet` holds rows of one model in memory. A new row gets a provisional identity from a counter
that starts at the seed; writing an identity moves the counter past it. While a data set is
suspended the counter rests. A sealed row keeps its primary key.
-/

namespace Tsql

open Text

/-- A row: one value for each column, and whether its primary key is final. -/
structure DataRow where
  values : List Value
  isSealed : Bool := false
  deriving DecidableEq, Repr

/-- The counter of provisional identities. -/
structure IdentityCounter where
  /-- The position of the identity column. -/
  ordinal : Nat
  spec : IdentitySpec
  next : Int
  deriving DecidableEq, Repr

namespace IdentityCounter

/-- Goes on by one increment from a given number. -/
def resume (c : IdentityCounter) (i : Int) : IdentityCounter :=
  { c with next := clampInt64 (i + c.spec.increment) }

/-- Moves the counter past a value, in the direction of the increment. -/
def observe (c : IdentityCounter) (i : Int) : IdentityCounter :=
  if (0 < c.spec.increment ∧ c.next ≤ i) ∨ (c.spec.increment < 0 ∧ i ≤ c.next) then c.resume i
  else c

end IdentityCounter

/-- What the values of a column are replaced by. -/
structure Remapping where
  /-- One entry for each number. -/
  entries : List (Int × Value) := []
  deriving DecidableEq, Repr

namespace Remapping

def get? (m : Remapping) (old : Int) : Option Value := m.entries.lookup old

/-- Enters a replacement, in place of an earlier one of the same number. -/
def insert (m : Remapping) (old : Int) (new : Value) : Remapping :=
  ⟨(old, new) :: m.entries.filter fun (i, _) => i ≠ old⟩

def size (m : Remapping) : Nat := m.entries.length

/-- The replacement of a value that holds a number. -/
def valueFor? (m : Remapping) (v : Value) : Option Value := v.asInt?.bind m.get?

end Remapping

/-- Rows of a model. -/
structure DataSet where
  model : Model
  rows : List DataRow := []
  counter : Option IdentityCounter := none
  suspended : Bool := false

def Model.counter? (m : Model) : Option IdentityCounter := do
  let ordinal ← m.columns.findIdx? fun c => c.identity.isSome
  let column ← m.columns[ordinal]?
  let spec ← column.identity
  some { ordinal, spec, next := spec.seed }

namespace DataSet

def empty (m : Model) : DataSet := { model := m, counter := m.counter? }

def size (d : DataSet) : Nat := d.rows.length

/-- The provisional identity of the next row: its position and value. -/
def nextIdentity (d : DataSet) (c : IdentityCounter) : Result (Nat × Value) :=
  match d.model.columns[c.ordinal]? with
  | none => .ok (c.ordinal, .null)
  | some column => match Value.integral? column.type c.next with
    | some v => .ok (c.ordinal, v)
    | none => .error (.argumentOutOfRange (s!"identity value {intText c.next} does not fit column"
        ++ s!" '{column.name}' of type {column.type.name}"))

/-- Adds a row of nulls with the next provisional identity; gives its position. -/
def addRow (d : DataSet) : Result (Nat × DataSet) :=
  let nulls := d.model.columns.map fun _ => Value.null
  match d.counter, d.suspended with
  | some c, false => do
    let (ordinal, v) ← d.nextIdentity c
    let row : DataRow := { values := nulls.set ordinal v }
    .ok (d.size, { d with rows := d.rows ++ [row], counter := some (c.resume c.next) })
  | _, _ => .ok (d.size, { d with rows := d.rows ++ [{ values := nulls }] })

/-- The position of a column of the data set's model. -/
def ordinal (d : DataSet) (f : Field) : Result Nat :=
  match d.model.ordinal? f.id with
  | some i => .ok i
  | none => .error (.invalidStatement
      s!"column '{f.name}' does not belong to model '{d.model.name}'")

def cell? (d : DataSet) (row ordinal : Nat) : Option Value := do
  (← d.rows[row]?).values[ordinal]?

def value? (d : DataSet) (row : Nat) (f : Field) : Option Value := do
  d.cell? row (← d.model.ordinal? f.id)

/-- The counter after a value was written at a position. -/
def observed (d : DataSet) (ordinal : Nat) (v : Value) : Option IdentityCounter :=
  d.counter.map fun c =>
    if c.ordinal = ordinal ∧ !d.suspended then
      match v.asInt? with
      | some i => c.observe i
      | none => c
    else c

/-- Writes a cell. The primary key of a sealed row cannot be written. -/
def set (d : DataSet) (row : Nat) (f : Field) (v : Value) : Result DataSet := do
  let ordinal ← d.ordinal f
  match d.rows[row]? with
  | none => .error (.argumentOutOfRange
      s!"row {natText row} of data set '{d.model.name}' (len {natText d.size})")
  | some r =>
    if r.isSealed && d.model.isKeyColumn f.id then
      .error (.invalidStatement
        s!"primary key column '{f.name}' of row {natText row} is sealed")
    else
      let r := { r with values := r.values.set ordinal v }
      .ok { d with rows := d.rows.set row r, counter := d.observed ordinal v }

def setAll (d : DataSet) (row : Nat) : List (Field × Value) → Result Unit × DataSet
  | [] => (.ok (), d)
  | (f, v) :: r => match d.set row f v with
    | .ok d => d.setAll row r
    | .error e => (.error e, d)

/-- Adds a row and writes some of its cells. If that fails the row stays as far as it was written.
-/
def addRowWith (d : DataSet) (values : List (Field × Value)) : Result Nat × DataSet :=
  match d.addRow with
  | .error e => (.error e, d)
  | .ok (row, d) =>
    let (r, d) := d.setAll row values
    (r.map fun _ => row, d)

/-- Does something while the counter rests. -/
def whileSuspended {α : Type} (d : DataSet) (f : DataSet → α × DataSet) : α × DataSet :=
  let (a, after) := f { d with suspended := true }
  (a, { after with suspended := d.suspended })

/-- Makes the primary key of a row final. -/
def sealRow (d : DataSet) (row : Nat) : Result DataSet :=
  match d.rows[row]? with
  | none => .error (.argumentOutOfRange
      s!"row {natText row} of data set (len {natText d.size})")
  | some r => .ok { d with rows := d.rows.set row { r with isSealed := true } }

/-- The first row whose identity is a given number. -/
def findIdentity? (d : DataSet) (i : Int) : Option Nat := do
  let c ← d.counter
  d.rows.findIdx? fun r => (r.values[c.ordinal]?.bind Value.asInt?) == some i

/-- The replacement for a row's cell at a position. -/
def replacement? (m : Remapping) (ordinal : Nat) (r : DataRow) : Option Value :=
  r.values[ordinal]?.bind m.valueFor?

/-- A row with its cell at a position replaced, if there is a replacement. -/
def remapRow (m : Remapping) (ordinal : Nat) (r : DataRow) : DataRow :=
  match replacement? m ordinal r with
  | some v => { r with values := r.values.set ordinal v }
  | none => r

/-- Replaces the values of a column, each at most once; gives how many rows changed. -/
def remap (d : DataSet) (f : Field) (m : Remapping) : Result (Nat × DataSet) := do
  let ordinal ← d.ordinal f
  .ok (d.rows.countP fun r => (replacement? m ordinal r).isSome,
    { d with rows := d.rows.map (remapRow m ordinal) })

end DataSet

end Tsql
