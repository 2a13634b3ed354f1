import Tsql.Model.Field
import Tsql.Value.Basic

/-!
# Expressions

An `Expr` is a tree of operators, `CASE`, `CAST`, columns, constants, parameters and function
calls. `Expr.type` is its logical type. The names of the functions that can be rendered are the
`Builtin`s; a call may carry any other name.
-/

namespace Tsql

inductive BinaryKind where
  | add | subtract | multiply | divide | modulo | bitwiseAnd | bitwiseOr | bitwiseXor
  | and | or | equal | notEqual | greaterThan | greaterThanOrEqual | lessThan | lessThanOrEqual
  deriving DecidableEq, Repr

namespace BinaryKind

def all : List BinaryKind :=
  [add, subtract, multiply, divide, modulo, bitwiseAnd, bitwiseOr, bitwiseXor, and, or, equal,
    notEqual, greaterThan, greaterThanOrEqual, lessThan, lessThanOrEqual]

def isPredicate : BinaryKind → Bool
  | and | or | equal | notEqual | greaterThan | greaterThanOrEqual | lessThan
  | lessThanOrEqual => true
  | _ => false

def isLogical : BinaryKind → Bool
  | and | or => true
  | _ => false

def token : BinaryKind → String
  | add => "+"
  | subtract => "-"
  | multiply => "*"
  | divide => "/"
  | modulo => "%"
  | bitwiseAnd => "&"
  | bitwiseOr => "|"
  | bitwiseXor => "^"
  | and => "AND"
  | or => "OR"
  | equal => "="
  | notEqual => "<>"
  | greaterThan => ">"
  | greaterThanOrEqual => ">="
  | lessThan => "<"
  | lessThanOrEqual => "<="

end BinaryKind

inductive UnaryKind where
  | negate | not | onesComplement
  deriving DecidableEq, Repr

/-- The functions that have a rendering. -/
inductive Builtin where
  | isNull | isNotNull | ifNull | coalesce | now | utcNow | newGuid | average | count | countRows
  | first | last | max | min | sum | contains | xmlValue | trim | stringAgg
  deriving DecidableEq, Repr

namespace Builtin

def name : Builtin → String
  | isNull => "IsNull"
  | isNotNull => "IsNotNull"
  | ifNull => "IfNull"
  | coalesce => "Coalesce"
  | now => "Now"
  | utcNow => "UtcNow"
  | newGuid => "NewGuid"
  | average => "Average"
  | count => "Count"
  | countRows => "CountRows"
  | first => "First"
  | last => "Last"
  | max => "Max"
  | min => "Min"
  | sum => "Sum"
  | contains => "Contains"
  | xmlValue => "XmlValue"
  | trim => "Trim"
  | stringAgg => "StringAgg"

def all : List Builtin :=
  [isNull, isNotNull, ifNull, coalesce, now, utcNow, newGuid, average, count, countRows, first,
    last, max, min, sum, contains, xmlValue, trim, stringAgg]

def ofName? (s : String) : Option Builtin := all.find? fun b => b.name == s

/-- The number of operands; `Coalesce` takes any number from this on. -/
def arity : Builtin → Nat
  | now | utcNow | newGuid | countRows => 0
  | isNull | isNotNull | average | count | first | last | max | min | sum | trim => 1
  | ifNull | coalesce | contains | xmlValue | stringAgg => 2

end Builtin

inductive Expr where
  | binary (kind : BinaryKind) (left right : Expr)
  | unary (kind : UnaryKind) (operand : Expr)
  /-- With `on` each branch compares with it, without each branch has a condition. -/
  | case (on : Option Expr) (whens : List (Expr × Expr)) (otherwise : Option Expr)
  | cast (operand : Expr) (target : ValueType)
  | column (ref : ColumnRef)
  | constant (value : Value) (type : ValueType)
  | param (p : Param)
  | call (key : String) (args : List Expr) (result : ValueType)

namespace Expr

def type : Expr → ValueType
  | binary kind l _ => if kind.isPredicate then .boolean else l.type
  | unary .not _ => .boolean
  | unary _ x => x.type
  | case _ ((_, then_) :: _) _ => then_.type
  | case _ [] (some other) => other.type
  | case _ [] none => .string
  | cast _ target => target
  | column ref => ref.field.type
  | constant _ t => t
  | param p => p.type
  | call _ _ result => result

/-- An expression that renders as a condition and not as a value. -/
def isPredicate : Expr → Bool
  | binary kind _ _ => kind.isPredicate
  | unary kind _ => kind == .not
  | call key _ _ =>
    key == Builtin.isNull.name || key == Builtin.isNotNull.name || key == Builtin.contains.name
  | _ => false

/-- A constant of its value's own type; `null` counts as a text. -/
def ofValue (v : Value) : Expr := constant v (v.type?.getD .string)

def builtin (b : Builtin) (args : List Expr) (result : ValueType) : Expr := call b.name args result

/-- Logical negation of a truth value, the complement of all bits of anything else. -/
def complement (x : Expr) : Expr :=
  unary (if x.type = .boolean then .not else .onesComplement) x

def isNull (x : Expr) : Expr := builtin .isNull [x] .boolean

def isNotNull (x : Expr) : Expr := builtin .isNotNull [x] .boolean

def ifNull (x replacement : Expr) : Expr := builtin .ifNull [x, replacement] x.type

/-- The first of several operands that is not null. -/
def coalesce (args : List Expr) : Expr :=
  builtin .coalesce args ((args.head?.map type).getD .string)

def now : Expr := builtin .now [] .dateTime

def utcNow : Expr := builtin .utcNow [] .dateTime

def newGuid : Expr := builtin .newGuid [] .guid

def countRows : Expr := builtin .countRows [] .int32

/-- The number of rows where the operand is not null. -/
def count (x : Expr) : Expr := builtin .count [x] .int32

/-- An aggregate whose result has the operand's type. -/
def aggregate (b : Builtin) (x : Expr) : Expr := builtin b [x] x.type

/-- A truth value: a text occurs in another. -/
def contains (haystack needle : Expr) : Expr := builtin .contains [haystack, needle] .boolean

def trim (x : Expr) : Expr := builtin .trim [x] .string

def stringAgg (x separator : Expr) : Expr := builtin .stringAgg [x, separator] .string

def xmlValue (x : Expr) (path : String) (result : ValueType) : Expr :=
  builtin .xmlValue [x, ofValue (.string path)] result

end Expr

end Tsql
