import Tsql.Value.Type

/-!
# Identities and fields

Models, columns, parameters and command trees are told apart by identities and not by their
contents. A `Field` is what the rest of a statement needs to know of a column: its identity, name
and type. `Supply` hands out identities, each kind in ascending order.
-/

namespace Tsql

structure ModelId where
  number : Nat
  deriving DecidableEq, Repr

structure ColumnId where
  number : Nat
  deriving DecidableEq, Repr

/-- The identity of a parameter. -/
structure ParamId where
  number : Nat
  deriving DecidableEq, Repr

/-- A column as seen from outside its model. -/
structure Field where
  id : ColumnId
  name : String
  type : ValueType
  deriving DecidableEq, Repr

/-- A column seen through one model. The same column may be seen through several. -/
structure ColumnRef where
  model : ModelId
  field : Field
  deriving DecidableEq, Repr

/-- A parameter: its identity and the type it is bound with. Its value is held elsewhere. -/
structure Param where
  id : ParamId
  type : ValueType
  deriving DecidableEq, Repr

/-- The identities still to be handed out. -/
structure Supply where
  nextModel : Nat := 1
  nextColumn : Nat := 1
  nextParam : Nat := 1
  deriving DecidableEq, Repr

namespace Supply

def takeModel (s : Supply) : ModelId × Supply :=
  (⟨s.nextModel⟩, { s with nextModel := s.nextModel + 1 })

def takeColumn (s : Supply) : ColumnId × Supply :=
  (⟨s.nextColumn⟩, { s with nextColumn := s.nextColumn + 1 })

def takeParam (s : Supply) : ParamId × Supply :=
  (⟨s.nextParam⟩, { s with nextParam := s.nextParam + 1 })

end Supply

end Tsql
