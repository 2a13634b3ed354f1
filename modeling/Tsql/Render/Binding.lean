import Tsql.Codec.Parameter
import Tsql.Render.Command

/-!
# Binding the parameters of a text

A rendered text is bound anew for every execution, with the values its parameters have then.
`SqlText.debugSql` is a text with its parameters declared in front, which runs by itself.
-/

namespace Tsql

open Text

def placeholders (params : List Param) : List (String × Param) :=
  (params.zipIdx 1).map fun (p, i) => (placeholderName i, p)

def bindParam (b : Bindings) (item : String × Param) : Result BoundParam := do
  let t ← defaultType item.2.type
  BoundParam.input item.1 t (b.get item.2.id)

def SqlText.bind (t : SqlText) (b : Bindings) : Result (List BoundParam) :=
  (placeholders t.params).mapM (bindParam b)

def declareParam (b : Bindings) (item : String × Param) : Result String := do
  let t ← defaultType item.2.type
  let value ← literalSql t (b.get item.2.id)
  .ok s!"DECLARE {item.1} {t.sql} = {value};\n"

/-- A text with its parameters declared in front. -/
def SqlText.debugSql (t : SqlText) (b : Bindings) : Result String :=
  ((placeholders t.params).mapM (declareParam b)).map fun lines => String.join lines ++ t.sql

end Tsql
