import Tsql.Session.Basic

/-!
# Executing commands

A command tree is rendered once; the text is kept and bound anew for each execution. The answer of a
query is a list of rows, or a data set of the query's output model.
-/

namespace Tsql.Session

open Text

/-- The text of a command tree, rendered unless that was done before. -/
def render (tree : CommandTree) : Action SqlText := do
  let s ← get
  match s.cache.lookup tree.id with
  | some text => pure text
  | none =>
    let text ← s.target.generate tree.command
    set { s with cache := (tree.id, text) :: s.cache }
    pure text

/-- Forgets the text of a command tree; says whether there was one. -/
def invalidate (id : StatementId) : Action Bool := do
  let s ← get
  set { s with cache := s.cache.filter fun (i, _) => i ≠ id }
  pure (s.cache.lookup id).isSome

def cachedStatements (s : Session) : Nat := s.cache.length

/-- Sends a text and gives the number of affected rows. -/
def executeText (text : SqlText) : Action Nat := do
  let params ← text.bind (← get).bindings
  sendCounted text.sql params

def queryText (text : SqlText) : Action (List ResultRow) := do
  let params ← text.bind (← get).bindings
  sendReading text.sql params

/-- Executes a command tree and gives the number of affected rows. -/
def execute (tree : CommandTree) : Action Nat := do executeText (← render tree)

/-- Executes a command tree and gives the returned rows. -/
def query (tree : CommandTree) : Action (List ResultRow) := do queryText (← render tree)

/-- Executes a command that is rendered for this one time. -/
def executeOnce (c : Command) : Action Nat := do
  executeText (← (← get).target.generate c)

/-- Executes a command that is rendered for this one time, and gives the returned rows. -/
def queryOnce (c : Command) : Action (List ResultRow) := do
  queryText (← (← get).target.generate c)

def returnedValue (row : ResultRow) (c : Column) : Result Value :=
  match row.named c.name with
  | .ok n => decode c.type n
  | .error _ => .error (.database s!"result set has no column '{c.name}'")

def fillRow (d : DataSet) (index : Nat) (row : ResultRow) (columns : List Column) :
    Result DataSet :=
  columns.foldlM (fun d c => do d.set index c.toField (← returnedValue row c)) d

/-- Adds a returned row to a data set; its primary key is final. -/
def addReturned (d : DataSet) (row : ResultRow) : Result DataSet := do
  let (index, d) ← d.addRow
  (← fillRow d index row d.model.columns).sealRow index

def loadRows (m : Model) (rows : List ResultRow) : Result DataSet := do
  let d ← rows.foldlM addReturned { DataSet.empty m with suspended := true }
  .ok { d with suspended := false }

def outputModel : Command → Result Model
  | .query s => match s.model? with
    | some m => .ok m
    | none => .error (.invalidStatement "a join has no output model")
  | c => .error (.invalidStatement s!"query_dataset requires a query, got {c.kind}")

/-- Executes a query and gives the returned rows as a data set. -/
def queryDataSet (tree : CommandTree) : Action DataSet := do
  let m ← outputModel tree.command
  loadRows m (← query tree)

def asInsertRow : Command → Result InsertRow
  | .insertRow i => .ok i
  | c => .error (.invalidStatement s!"insert_scalar requires a single-row insert, got {c.kind}")

def returnedIdentity (i : InsertRow) (rows : List ResultRow) : Result (Option Int) :=
  match rows.head?.bind fun row => row.values[0]? with
  | some n => .ok n.asInt?
  | none => .error (.database s!"insert into '{i.target.name}' returned no identity")

/-- Executes an insert of one row and gives the new identity, if it was asked for. -/
def insertRow (tree : CommandTree) : Action (Option Int) := do
  let i ← asInsertRow tree.command
  if i.outputIdentity then returnedIdentity i (← query tree)
  else
    let _ ← execute tree
    pure none

end Tsql.Session
