import Tsql.Session.Execution

/-!
# Tables of a session

A session creates and drops permanent and temporary tables. A temporary table keeps its name while
it exists; since texts may contain it, dropping a temporary table forgets all rendered texts.
-/

namespace Tsql.Session

def createTable (m : Model) : Action Unit := do
  let s ← get
  let sql ← s.target.createTableSql s.bindings m false
  let _ ← sendCounted sql []

def dropTable (m : Model) : Action Unit := do
  let sql ← (← get).target.dropTableSql m false
  let _ ← sendCounted sql []

/-- Fails unless a model stands for a temporary table that does not exist yet. -/
def ensureCreatable (s : Session) (m : Model) : Result Unit :=
  match m.source with
  | .tempTable => match s.temps.get? m.id with
    | some existing => .error (.invalidStatement
        s!"temp table {existing} for model '{m.name}' already exists")
    | none => .ok ()
  | _ => .error (.invalidStatement s!"model '{m.name}' is not a temp table model")

def forgetTemp (id : ModelId) (s : Session) : Session := { s with temps := s.temps.forget id }

/-- Creates a temporary table under a new name, which is forgotten again if that fails. -/
def createTemp (m : Model) : Action String := do
  ensureCreatable (← get) m
  let (name, temps) := (← get).temps.realize m
  modify fun s => { s with temps }
  undoingOnError (forgetTemp m.id) do
    let s ← get
    let sql ← s.target.createTableSql s.bindings m true
    let _ ← sendCounted sql []
  modify fun s => { s with liveTemps := (m.id, m) :: s.liveTemps }
  pure name

def dropTemp (m : Model) : Action Unit := do
  let sql ← (← get).target.dropTableSql m true
  let _ ← sendCounted sql []
  modify fun s =>
    { forgetTemp m.id s with liveTemps := s.liveTemps.filter fun (i, _) => i ≠ m.id, cache := [] }

/-- The temporary tables that exist, by the identity of their models. -/
def tempModels (s : Session) : List Model :=
  sortByNumber (fun m => m.id.number) (s.liveTemps.map Prod.snd)

/-- The columns of temporary tables that refer to a column of a parent. -/
def tempChildren (s : Session) (parent : ModelId) (column : String) : List (Model × Field) :=
  s.tempModels.flatMap fun m => (m.childColumns parent column).map fun f => (m, f)

/-- Begins a transaction, or a savepoint inside the open one. -/
def beginTransaction (isolation : Option Isolation) : Action TransactionHandle := do
  let before := (← get).transactions
  let (opened, transactions) := before.begin isolation
  modify fun s => { s with transactions }
  let (handle, commands) ← opened
  undoingOnError (fun s => { s with transactions := before }) (sendAll commands)
  pure handle

/-- Closes the innermost level, unless sending the commands for it fails. -/
def closeLevel (closed : TransactionStack) (commands : List TransactionCommand) : Action Unit := do
  let before := (← get).transactions
  modify fun s => { s with transactions := closed }
  undoingOnError (fun s => { s with transactions := before }) (sendAll commands)

def commit (h : TransactionHandle) : Action Unit := do
  let (command, closed) ← (← get).transactions.commit h
  closeLevel closed command.toList

/-- Rolls the innermost level back. -/
def rollback (h : TransactionHandle) : Action Unit := do
  let (command, closed) ← (← get).transactions.rollback h
  closeLevel closed [command]

/-- Rolls the whole transaction back. All levels are closed even if that fails. -/
def abort : Action Unit := do
  let (command, closed) := (← get).transactions.abort
  modify fun s => { s with transactions := closed }
  sendAll command.toList

/-- Executes a command tree inside the innermost level. -/
def executeIn (h : TransactionHandle) (tree : CommandTree) : Action Nat := do
  (← get).transactions.ensureCurrent h
  execute tree

/-- Queries a command tree inside the innermost level. -/
def queryIn (h : TransactionHandle) (tree : CommandTree) : Action (List ResultRow) := do
  (← get).transactions.ensureCurrent h
  query tree

def setParam (id : ParamId) (v : Value) : Action Unit :=
  modify fun s => { s with bindings := s.bindings.set id v }

end Tsql.Session
