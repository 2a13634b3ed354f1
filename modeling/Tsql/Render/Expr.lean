import Tsql.Expr.Basic
import Tsql.Model.Bindings
import Tsql.Naming.Alias
import Tsql.Render.Piece
import Tsql.SqlType.Mapping
import Tsql.Version

/-!
# Rendering expressions

The language tells values from conditions. `Expr.node` renders an expression in its own category,
`inContext` turns it into the other one where its surroundings ask for it: a truth value `x` becomes
the condition `(x = 1)`, a condition `p` becomes `CAST(CASE WHEN p THEN 1 ELSE 0 END AS BIT)`.
`Expr.value` and `Expr.predicate` render an expression in a given category.
-/

namespace Tsql

open Text Emission

/-- What an expression is rendered against. -/
structure Scope where
  version : Version
  /-- The aliases that columns are qualified with; without them columns stand alone. -/
  aliases : Option AliasMap := none
  /-- The values that parameters are replaced by; without them they become placeholders. -/
  inlined : Option Bindings := none

/-- The two categories of an expression's text. -/
inductive Context where
  | value | predicate
  deriving DecidableEq, Repr

/-- Turns a text that is or is not a condition into the category that is asked for. -/
def inContext (context : Context) (isPredicate : Bool) (x : Emission) : Emission :=
  match context, isPredicate with
  | .predicate, false => word "(" ++ x ++ word " = 1)"
  | .value, true => word "CAST(CASE WHEN " ++ x ++ word " THEN 1 ELSE 0 END AS BIT)"
  | _, _ => x

def typedLiteral (t : ValueType) (v : Value) : Result Literal := do
  let sqlType ← defaultType t
  Tsql.literal sqlType v

def Emission.constant (t : ValueType) (v : Value) : Emission :=
  after (typedLiteral t v) fun l => piece (.literal l)

def Emission.national (s : String) : Emission := piece (.literal (.string true s))

def Scope.column (scope : Scope) (c : ColumnRef) : Emission :=
  match scope.aliases with
  | none => name c.field.name
  | some aliases => match aliases.get? c.model with
    | some source => name source ++ word "." ++ name c.field.name
    | none => fail (.invalidStatement (s!"column '{c.field.name}' refers to a model"
        ++ s!" (id {natText c.model.number}) that is not part of the statement"))

/-- A parameter, as a placeholder or as its value. -/
def Scope.param (scope : Scope) (p : Param) : Emission :=
  match scope.inlined with
  | some bindings => constant p.type (bindings.get p.id)
  | none => piece (.placeholder p)

def arityError (key expected : String) (got : Nat) : Emission :=
  fail (.invalidStatement
    s!"function '{key}' expects {expected} argument(s), got {natText got}")

def callOf (function : String) (args : List Emission) : Emission :=
  word function ++ word "(" ++ listed args ++ word ")"

def wholeWindow : String :=
  "OVER (ORDER BY (SELECT NULL) ROWS BETWEEN UNBOUNDED PRECEDING AND UNBOUNDED FOLLOWING)"

def constantPath? : Expr → Option String
  | .constant (.string s) _ => some s
  | _ => none

/-- A value taken from an XML document at a constant path. -/
def xmlValueCall (key : String) (x : Emission) (path : Expr) (result : ValueType) : Emission :=
  match constantPath? path with
  | none => fail (.invalidStatement s!"function '{key}' expects a constant string path")
  | some p => after (defaultType result) fun t =>
    x ++ word ".value(" ++ national p ++ word ", " ++ national t.sql ++ word ")"

/-- Texts joined over a group, which only the later version has. -/
def stringAggCall (version : Version) (key : String) (args : List Emission) : Emission :=
  if version.has2017Functions then callOf "STRING_AGG" args
  else fail (.notSupported (s!"function '{key}' requires SQL Server 2017 (Sql14),"
    ++ s!" target is {version.name}"))

def Scope.function (scope : Scope) (key : String) (args : List Expr) (texts : List Emission)
    (result : ValueType) : Emission :=
  match Builtin.ofName? key with
  | none => fail (.notSupported s!"function '{key}' has no SQL Server translation")
  | some b => match b, args, texts with
    | .isNull, _, [x] => word "(" ++ x ++ word " IS NULL)"
    | .isNotNull, _, [x] => word "(" ++ x ++ word " IS NOT NULL)"
    | .ifNull, _, [x, y] => word "ISNULL(" ++ x ++ word ", " ++ y ++ word ")"
    | .coalesce, _, texts =>
      if 2 ≤ texts.length then callOf "COALESCE" texts
      else arityError key "at least 2" texts.length
    | .now, _, [] => word "GETDATE()"
    | .utcNow, _, [] => word "GETUTCDATE()"
    | .newGuid, _, [] => word "NEWID()"
    | .countRows, _, [] => word "COUNT(*)"
    | .average, _, [x] => callOf "AVG" [x]
    | .count, _, [x] => callOf "COUNT" [x]
    | .max, _, [x] => callOf "MAX" [x]
    | .min, _, [x] => callOf "MIN" [x]
    | .sum, _, [x] => callOf "SUM" [x]
    | .first, _, [x] => callOf "FIRST_VALUE" [x] ++ word " " ++ word wholeWindow
    | .last, _, [x] => callOf "LAST_VALUE" [x] ++ word " " ++ word wholeWindow
    | .contains, _, [x, y] => word "(CHARINDEX(" ++ y ++ word ", " ++ x ++ word ") > 0)"
    | .xmlValue, [_, path], [x, _] => xmlValueCall key x path result
    | .trim, _, [x] =>
      if scope.version.has2017Functions then callOf "TRIM" [x]
      else word "LTRIM(RTRIM(" ++ x ++ word "))"
    | .stringAgg, _, [x, y] => stringAggCall scope.version key [x, y]
    | b, _, texts => arityError key (natText b.arity) texts.length

def whenContext (on : Option Expr) : Context := if on.isSome then .value else .predicate

/-- A binary operator between two texts. -/
def infixed (token : String) (x y : Emission) : Emission :=
  word "(" ++ x ++ word " " ++ word token ++ word " " ++ y ++ word ")"

def caseOf (on branches otherwise : Emission) (branchCount : Nat) : Emission :=
  if branchCount = 0 then
    fail (.invalidStatement "CASE expression without WHEN branches")
  else word "CASE" ++ on ++ piece .indent ++ branches ++ otherwise ++ piece .outdent ++ line
    ++ word "END"

def branchOf (condition outcome : Emission) : Emission :=
  line ++ word "WHEN " ++ condition ++ word " THEN " ++ outcome

mutual

def Expr.node (scope : Scope) : Expr → Emission
  | .binary kind l r =>
    let context := if kind.isLogical then .predicate else .value
    infixed kind.token (inContext context l.isPredicate (l.node scope))
      (inContext context r.isPredicate (r.node scope))
  | .unary .negate x => word "(-" ++ inContext .value x.isPredicate (x.node scope) ++ word ")"
  | .unary .not x => word "(NOT " ++ inContext .predicate x.isPredicate (x.node scope) ++ word ")"
  | .unary .onesComplement x =>
    word "(~" ++ inContext .value x.isPredicate (x.node scope) ++ word ")"
  | .case on whens otherwise =>
    caseOf (onText scope on) (whensText scope (whenContext on) whens) (elseText scope otherwise)
      whens.length
  | .cast x target => after (defaultType target) fun t =>
    word "CAST(" ++ inContext .value x.isPredicate (x.node scope) ++ word " AS " ++ word t.sql
      ++ word ")"
  | .column c => scope.column c
  | .constant v t => Emission.constant t v
  | .param p => scope.param p
  | .call key args result => scope.function key args (argTexts scope args) result

def onText (scope : Scope) : Option Expr → Emission
  | none => nothing
  | some x => word " " ++ inContext .value x.isPredicate (x.node scope)

def whensText (scope : Scope) (context : Context) : List (Expr × Expr) → Emission
  | [] => nothing
  | (x, y) :: r =>
    branchOf (inContext context x.isPredicate (x.node scope))
      (inContext .value y.isPredicate (y.node scope)) ++ whensText scope context r

/-- The outcome of a `CASE` where no branch applies. -/
def elseText (scope : Scope) : Option Expr → Emission
  | none => nothing
  | some x => line ++ word "ELSE " ++ inContext .value x.isPredicate (x.node scope)

def argTexts (scope : Scope) : List Expr → List Emission
  | [] => []
  | x :: r => inContext .value x.isPredicate (x.node scope) :: argTexts scope r

end

def Expr.value (scope : Scope) (x : Expr) : Emission :=
  inContext .value x.isPredicate (x.node scope)

def Expr.predicate (scope : Scope) (x : Expr) : Emission :=
  inContext .predicate x.isPredicate (x.node scope)

end Tsql
