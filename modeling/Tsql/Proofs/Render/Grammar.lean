import Tsql.Render.Expr

/-!
# A grammar of expressions

The language keeps values and predicates apart. A `Term` is a derivation in its grammar, one
constructor for each production, and `Term.text` the text derived. Two productions only change the
category: the test that a value is 1, and the truth value of a predicate. `Term.operators` is the
derivation without these, a tree of operators over names, literals and placeholders;
`Expr.operators?` is the same tree of an expression, as far as its columns, constants and types have a
text.
-/

namespace Tsql

open Text

inductive Phrase where
  | value
  | predicate
  /-- One branch of a `CASE` or more, with conditions of one category, and what follows them. -/
  | branches (conditions : Context)
  /-- What follows a branch. -/
  | tail (conditions : Context)
  | operands

def Context.phrase : Context → Phrase
  | value => .value
  | predicate => .predicate

/-- An operator on numbers or bits. -/
inductive Arithmetic where
  | plus | minus | times | quotient | remainder | bitAnd | bitOr | bitXor

namespace Arithmetic

def symbol : Arithmetic → String
  | plus => "+"
  | minus => "-"
  | times => "*"
  | quotient => "/"
  | remainder => "%"
  | bitAnd => "&"
  | bitOr => "|"
  | bitXor => "^"

def kind : Arithmetic → BinaryKind
  | plus => .add
  | minus => .subtract
  | times => .multiply
  | quotient => .divide
  | remainder => .modulo
  | bitAnd => .bitwiseAnd
  | bitOr => .bitwiseOr
  | bitXor => .bitwiseXor

end Arithmetic

inductive Comparison where
  | equal | unequal | greater | greaterOrEqual | less | lessOrEqual

namespace Comparison

def symbol : Comparison → String
  | equal => "="
  | unequal => "<>"
  | greater => ">"
  | greaterOrEqual => ">="
  | less => "<"
  | lessOrEqual => "<="

def kind : Comparison → BinaryKind
  | equal => .equal
  | unequal => .notEqual
  | greater => .greaterThan
  | greaterOrEqual => .greaterThanOrEqual
  | less => .lessThan
  | lessOrEqual => .lessThanOrEqual

end Comparison

/-- What joins two predicates. -/
inductive Connective where
  | and | or

namespace Connective

def symbol : Connective → String
  | and => "AND"
  | or => "OR"

def kind : Connective → BinaryKind
  | and => .and
  | or => .or

end Connective

/-- A function by its name in the language. -/
inductive SqlFunction where
  | isNull | coalesce | getDate | getUtcDate | newId | countRows | avg | count | max | min | sum
  | firstValue | lastValue | trim
  /-- The blanks at either end are cut off by a function of its own. -/
  | leftAndRightTrim
  | stringAgg

namespace SqlFunction

def opening : SqlFunction → String
  | isNull => "ISNULL("
  | coalesce => "COALESCE("
  | getDate => "GETDATE("
  | getUtcDate => "GETUTCDATE("
  | newId => "NEWID("
  | countRows => "COUNT(*"
  | avg => "AVG("
  | count => "COUNT("
  | max => "MAX("
  | min => "MIN("
  | sum => "SUM("
  | firstValue => "FIRST_VALUE("
  | lastValue => "LAST_VALUE("
  | trim => "TRIM("
  | leftAndRightTrim => "LTRIM(RTRIM("
  | stringAgg => "STRING_AGG("

def closing : SqlFunction → String
  | firstValue | lastValue => ") " ++ wholeWindow
  | leftAndRightTrim => "))"
  | _ => ")"

def builtin : SqlFunction → Builtin
  | isNull => .ifNull
  | coalesce => .coalesce
  | getDate => .now
  | getUtcDate => .utcNow
  | newId => .newGuid
  | countRows => .countRows
  | avg => .average
  | count => .count
  | max => .max
  | min => .min
  | sum => .sum
  | firstValue => .first
  | lastValue => .last
  | trim | leftAndRightTrim => .trim
  | stringAgg => .stringAgg

end SqlFunction

/-- A derivation of a phrase. -/
inductive Term : Phrase → Type where
  | column (source : Option String) (name : String) : Term .value
  | literal (l : Literal) : Term .value
  | placeholder (p : Param) : Term .value
  | arithmetic (op : Arithmetic) (x y : Term .value) : Term .value
  | negated (x : Term .value) : Term .value
  | complemented (x : Term .value) : Term .value
  | simpleCase (on : Term .value) (branches : Term (.branches .value)) : Term .value
  | searchedCase (branches : Term (.branches .predicate)) : Term .value
  | cast (x : Term .value) (type : SqlType) : Term .value
  | call (f : SqlFunction) (operands : Term .operands) : Term .value
  | xmlValue (x : Term .value) (path : String) (type : SqlType) : Term .value
  /-- The truth value of a predicate. -/
  | bit (p : Term .predicate) : Term .value
  | comparison (op : Comparison) (x y : Term .value) : Term .predicate
  | junction (op : Connective) (p q : Term .predicate) : Term .predicate
  | negation (p : Term .predicate) : Term .predicate
  | isNull (x : Term .value) : Term .predicate
  | isNotNull (x : Term .value) : Term .predicate
  | contains (needle haystack : Term .value) : Term .predicate
  /-- The test that a value is true. -/
  | isTrue (x : Term .value) : Term .predicate
  | branch {c : Context} (condition : Term c.phrase) (outcome : Term .value) (rest : Term (.tail c)) :
      Term (.branches c)
  | done {c : Context} : Term (.tail c)
  | otherwise {c : Context} (outcome : Term .value) : Term (.tail c)
  | more {c : Context} (branches : Term (.branches c)) : Term (.tail c)
  | none : Term .operands
  | operand (x : Term .value) (rest : Term .operands) : Term .operands

def lineBreak (level : Nat) : String := "\n" ++ Writer.margin level

/-- The text of a derivation whose line has a level; placeholders go by the numbers of parameters. -/
def Term.text (params : List Param) (level : Nat) {p : Phrase} : Term p → String
  | column .none name => quoteIdentifier name
  | column (some source) name => quoteIdentifier source ++ "." ++ quoteIdentifier name
  | literal l => l.sql
  | placeholder p => placeholderName (paramNumber params p)
  | arithmetic op x y | comparison op x y =>
    "(" ++ x.text params level ++ " " ++ op.symbol ++ " " ++ y.text params level ++ ")"
  | junction op p q =>
    "(" ++ p.text params level ++ " " ++ op.symbol ++ " " ++ q.text params level ++ ")"
  | negated x => "(-" ++ x.text params level ++ ")"
  | complemented x => "(~" ++ x.text params level ++ ")"
  | simpleCase on branches =>
    "CASE " ++ on.text params level ++ branches.text params (level + 1) ++ lineBreak level ++ "END"
  | searchedCase branches => "CASE" ++ branches.text params (level + 1) ++ lineBreak level ++ "END"
  | cast x type => "CAST(" ++ x.text params level ++ " AS " ++ type.sql ++ ")"
  | call f operands => f.opening ++ operands.text params level ++ f.closing
  | xmlValue x path type =>
    x.text params level ++ ".value(" ++ quoteString path true ++ ", " ++ quoteString type.sql true
      ++ ")"
  | bit p => "CAST(CASE WHEN " ++ p.text params level ++ " THEN 1 ELSE 0 END AS BIT)"
  | negation p => "(NOT " ++ p.text params level ++ ")"
  | isNull x => "(" ++ x.text params level ++ " IS NULL)"
  | isNotNull x => "(" ++ x.text params level ++ " IS NOT NULL)"
  | contains needle haystack =>
    "(CHARINDEX(" ++ needle.text params level ++ ", " ++ haystack.text params level ++ ") > 0)"
  | isTrue x => "(" ++ x.text params level ++ " = 1)"
  | branch condition outcome rest =>
    lineBreak level ++ "WHEN " ++ condition.text params level ++ " THEN " ++ outcome.text params level
      ++ rest.text params level
  | done => ""
  | otherwise outcome => lineBreak level ++ "ELSE " ++ outcome.text params level
  | more branches => branches.text params level
  | none => ""
  | operand x none => x.text params level
  | operand x (operand y rest) => x.text params level ++ ", " ++ (operand y rest).text params level

/-- An operator, or an operand that has no parts. -/
inductive Operation where
  | column (source : Option String) (name : String)
  | literal (l : Literal)
  | placeholder (p : Param)
  | binary (kind : BinaryKind)
  | unary (kind : UnaryKind)
  /-- A `CASE`: what it compares, if anything, then its branches and what holds otherwise. -/
  | case (compares : Bool)
  | branch
  | otherwise
  | cast (type : SqlType)
  | function (b : Builtin)
  | xmlValue (path : String) (type : SqlType)
  deriving DecidableEq

/-- A tree of operators. -/
inductive OperatorTree where
  | node (op : Operation) (operands : List OperatorTree)

/-- The operators of a derivation: one tree for a value or a predicate, one for each part of any other
phrase. A change of category is no operator. -/
def Term.operators {p : Phrase} : Term p → List OperatorTree
  | column source name => [.node (.column source name) []]
  | literal l => [.node (.literal l) []]
  | placeholder p => [.node (.placeholder p) []]
  | arithmetic op x y | comparison op x y => [.node (.binary op.kind) (x.operators ++ y.operators)]
  | junction op p q => [.node (.binary op.kind) (p.operators ++ q.operators)]
  | negated x => [.node (.unary .negate) x.operators]
  | complemented x => [.node (.unary .onesComplement) x.operators]
  | simpleCase on branches => [.node (.case true) (on.operators ++ branches.operators)]
  | searchedCase branches => [.node (.case false) branches.operators]
  | cast x type => [.node (.cast type) x.operators]
  | call f operands => [.node (.function f.builtin) operands.operators]
  | xmlValue x path type => [.node (.xmlValue path type) x.operators]
  | bit p => p.operators
  | negation p => [.node (.unary .not) p.operators]
  | isNull x => [.node (.function .isNull) x.operators]
  | isNotNull x => [.node (.function .isNotNull) x.operators]
  | contains needle haystack => [.node (.function .contains) (haystack.operators ++ needle.operators)]
  | isTrue x => x.operators
  | branch condition outcome rest =>
    .node .branch (condition.operators ++ outcome.operators) :: rest.operators
  | done => []
  | otherwise outcome => [.node .otherwise outcome.operators]
  | more branches => branches.operators
  | none => []
  | operand x rest => x.operators ++ rest.operators

def Scope.columnOperation? (scope : Scope) (c : ColumnRef) : Option Operation :=
  match scope.aliases with
  | none => some (.column none c.field.name)
  | some aliases => (aliases.get? c.model).map fun source => .column (some source) c.field.name

def constantOperation? (t : ValueType) (v : Value) : Option Operation :=
  (typedLiteral t v).toOption.map .literal

def Scope.paramOperation? (scope : Scope) (p : Param) : Option Operation :=
  match scope.inlined with
  | some bindings => constantOperation? p.type (bindings.get p.id)
  | none => some (.placeholder p)

/-- A call with the trees of its operands. The path of an XML value is no operand. -/
def callOperators? (key : String) (args : List Expr) (trees : List (Option OperatorTree))
    (result : ValueType) : Option OperatorTree :=
  match Builtin.ofName? key, args, trees with
  | none, _, _ => none
  | some .xmlValue, [_, path], [x, _] => do
    let type ← (defaultType result).toOption
    return .node (.xmlValue (← constantPath? path) type) [← x]
  | some b, _, trees => (trees.mapM id).map (.node (.function b))

mutual

/-- The operators of an expression. -/
def Expr.operators? (scope : Scope) : Expr → Option OperatorTree
  | .binary kind l r => do return .node (.binary kind) [← l.operators? scope, ← r.operators? scope]
  | .unary kind x => do return .node (.unary kind) [← x.operators? scope]
  | .case on whens otherwise => do
    let compared ← onOperators? scope on
    let branches ← whensOperators? scope whens
    return .node (.case on.isSome) (compared ++ (branches ++ (← elseOperators? scope otherwise)))
  | .cast x target => do
    return .node (.cast (← (defaultType target).toOption)) [← x.operators? scope]
  | .column c => (scope.columnOperation? c).map (.node · [])
  | .constant v t => (constantOperation? t v).map (.node · [])
  | .param p => (scope.paramOperation? p).map (.node · [])
  | .call key args result => callOperators? key args (argOperators scope args) result

def onOperators? (scope : Scope) : Option Expr → Option (List OperatorTree)
  | none => some []
  | some x => do return [← x.operators? scope]

def whensOperators? (scope : Scope) : List (Expr × Expr) → Option (List OperatorTree)
  | [] => some []
  | (x, y) :: r => do
    return .node .branch [← x.operators? scope, ← y.operators? scope] :: (← whensOperators? scope r)

def elseOperators? (scope : Scope) : Option Expr → Option (List OperatorTree)
  | none => some []
  | some x => do return [.node .otherwise [← x.operators? scope]]

def argOperators (scope : Scope) : List Expr → List (Option OperatorTree)
  | [] => []
  | x :: r => x.operators? scope :: argOperators scope r

end

end Tsql
