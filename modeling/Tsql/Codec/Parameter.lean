import Tsql.Codec.Native

/-!
# Bound parameters

A `BoundParam` is a parameter as the driver takes it: its name, its type with facets, its direction
and its native value.
-/

namespace Tsql

/-- The type of a parameter. -/
structure ParamInfo where
  dbType : DbType
  size : Option Size
  precision : Option Nat
  scale : Option Nat
  udtName : Option String
  deriving DecidableEq, Repr

def SqlType.info (t : SqlType) : ParamInfo :=
  { dbType := t.dbType, size := t.size?, precision := t.precision?, scale := t.scale?
    udtName := t.udtName? }

/-- Which way a parameter's value goes. -/
inductive Direction where
  | input | output | inputOutput
  deriving DecidableEq, Repr

def Direction.name : Direction → String
  | input => "Input"
  | output => "Output"
  | inputOutput => "InputOutput"

/-- A parameter as the driver takes it. -/
structure BoundParam where
  name : String
  info : ParamInfo
  direction : Direction
  nullable : Bool
  value : Native
  deriving DecidableEq, Repr

namespace BoundParam

def input (name : String) (t : SqlType) (v : Value) : Result BoundParam :=
  (toNative t v).map fun value =>
    { name, info := t.info, direction := .input, nullable := true, value }

def output (name : String) (t : SqlType) : BoundParam :=
  { name, info := t.info, direction := .output, nullable := true, value := .dbNull }

end BoundParam

end Tsql
