import Tsql.DataSet

/-!
# Data sets while the counter rests

Rows that are added while the counter rests start with nulls, and writing their cells changes nothing else.
-/

namespace Tsql.DataSet

variable {d : DataSet} {f : Field} {ordinal : Nat}

theorem set_unsealed {row : Nat} {r : DataRow} (ho : d.model.ordinal? f.id = some ordinal)
    (hs : d.suspended = true) (hr : d.rows[row]? = some r) (hu : r.isSealed = false) (v : Value) :
    d.set row f v = .ok
      { d with rows := d.rows.set row { r with values := r.values.set ordinal v } } := by
  have hc : d.observed ordinal v = d.counter := by cases h : d.counter <;> simp [observed, h, hs]
  have hi : d.ordinal f = .ok ordinal := by simp [DataSet.ordinal, ho]
  unfold set
  rw [hi]
  simp only [hr, hu, Bool.false_and, Bool.false_eq_true, if_false, ← hc]
  rfl

def withRow (d : DataSet) (values : List Value) : DataSet :=
  { d with rows := d.rows ++ [{ values }] }

theorem addRow_suspended (hs : d.suspended = true) :
    d.addRow = .ok (d.size, d.withRow (d.model.columns.map fun _ => .null)) := by
  unfold addRow
  split
  next h =>
    rw [hs] at h
    cases h
  · rfl

theorem set_withRow (hs : d.suspended = true) (ho : d.model.ordinal? f.id = some ordinal)
    (values : List Value) (v : Value) :
    (d.withRow values).set d.size f v = .ok (d.withRow (values.set ordinal v)) := by
  have hr : (d.withRow values).rows[d.size]? = some { values } := List.getElem?_concat_length
  rw [set_unsealed (d := d.withRow values) ho hs hr rfl]
  simp [withRow, size]

end Tsql.DataSet
