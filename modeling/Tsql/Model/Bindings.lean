import Tsql.Model.Field
import Tsql.Value.Basic

/-!
# Bindings

The current values of parameters. A parameter's value may change between two executions of the same
statement, so it is kept apart from the statement.
-/

namespace Tsql

/-- The values of parameters, the latest first. -/
structure Bindings where
  values : List (ParamId × Value) := []
  deriving DecidableEq, Repr

namespace Bindings

/-- The value of a parameter; `null` unless it was set. -/
def get (b : Bindings) (id : ParamId) : Value := (b.values.lookup id).getD .null

def set (b : Bindings) (id : ParamId) (v : Value) : Bindings := ⟨(id, v) :: b.values⟩

theorem get_set_self (b : Bindings) (id : ParamId) (v : Value) : (b.set id v).get id = v := by
  simp [get, set]

end Bindings

end Tsql
