import Tsql.Error
import Tsql.Text.Digits
import Tsql.Text.Quoted

/-!
# Transactions

A `TransactionStack` holds the open levels of a session: the first is the transaction itself, the
others are savepoints inside it. Only the innermost level can be committed or rolled back. The stack
decides which `TransactionCommand`s have to be sent, it does not send them.
-/

namespace Tsql

open Text

inductive Isolation where
  | readUncommitted | readCommitted | repeatableRead | snapshot | serializable
  deriving DecidableEq, Repr

namespace Isolation

def name : Isolation → String
  | readUncommitted => "ReadUncommitted"
  | readCommitted => "ReadCommitted"
  | repeatableRead => "RepeatableRead"
  | snapshot => "Snapshot"
  | serializable => "Serializable"

def all : List Isolation :=
  [readUncommitted, readCommitted, repeatableRead, snapshot, serializable]

def ofName? (s : String) : Option Isolation := all.find? fun l => l.name == s

def sql : Isolation → String
  | readUncommitted => "READ UNCOMMITTED"
  | readCommitted => "READ COMMITTED"
  | repeatableRead => "REPEATABLE READ"
  | snapshot => "SNAPSHOT"
  | serializable => "SERIALIZABLE"

end Isolation

/-- A command that changes the transaction of a connection. -/
inductive TransactionCommand where
  | isolate (level : Isolation)
  | begin
  | save (savepoint : String)
  | commit
  /-- Back to a savepoint, or to the start of the transaction, which ends it. -/
  | rollback (savepoint : Option String)
  deriving DecidableEq, Repr

def TransactionCommand.sql : TransactionCommand → String
  | isolate level => "SET TRANSACTION ISOLATION LEVEL " ++ level.sql ++ ";"
  | begin => "BEGIN TRANSACTION;"
  | save s => "SAVE TRANSACTION " ++ quoteIdentifier s ++ ";"
  | commit => "COMMIT TRANSACTION;"
  | rollback (some s) => "ROLLBACK TRANSACTION " ++ quoteIdentifier s ++ ";"
  | rollback none => "ROLLBACK TRANSACTION;"

/-- One level of a stack. -/
structure TransactionHandle where
  id : Nat
  /-- The savepoint; the outermost level has none. -/
  savepoint : Option String
  deriving DecidableEq, Repr

def TransactionHandle.isRoot (h : TransactionHandle) : Bool := h.savepoint.isNone

/-- The open levels, the outermost first. -/
structure TransactionStack where
  levels : List TransactionHandle := []
  lastId : Nat := 0
  lastSavepoint : Nat := 0
  deriving DecidableEq, Repr

namespace TransactionStack

def depth (t : TransactionStack) : Nat := t.levels.length

def isActive (t : TransactionStack) : Bool := !t.levels.isEmpty

def current? (t : TransactionStack) : Option TransactionHandle := t.levels.getLast?

def savepointName (n : Nat) : String := "sp_" ++ natText n

/-- Opens a level with a given savepoint and identity. -/
def push (t : TransactionStack) (savepoint : Option String) :
    TransactionHandle × TransactionStack :=
  let handle := { id := t.lastId, savepoint }
  (handle, { t with levels := t.levels ++ [handle] })

/-- Opens a level: the transaction or a savepoint inside it. Only the transaction itself can be
given an isolation level. A level that cannot be opened still uses up an identity. -/
def begin (t : TransactionStack) (isolation : Option Isolation) :
    Result (TransactionHandle × List TransactionCommand) × TransactionStack :=
  let t := { t with lastId := t.lastId + 1 }
  match t.levels, isolation with
  | [], isolation =>
    let (handle, t) := t.push none
    (.ok (handle, (isolation.map .isolate).toList ++ [.begin]), t)
  | _ :: _, some level =>
    (.error (.transaction
      s!"isolation level {level.sql} can only be set on the outermost transaction"), t)
  | _ :: _, none =>
    let t := { t with lastSavepoint := t.lastSavepoint + 1 }
    let savepoint := savepointName t.lastSavepoint
    let (handle, t) := t.push (some savepoint)
    (.ok (handle, [.save savepoint]), t)

/-- Fails unless a handle is the innermost level. -/
def ensureCurrent (t : TransactionStack) (h : TransactionHandle) : Result Unit :=
  match t.levels.findIdx? fun l => l.id == h.id with
  | none => .error (.transaction s!"transaction {natText h.id} has already been resolved")
  | some i =>
    if i + 1 = t.depth then .ok ()
    else .error (.transaction (s!"transaction {natText h.id} is not the current transaction"
      ++ s!" (depth {natText (i + 1)} of {natText t.depth})"))

def pop (t : TransactionStack) : TransactionStack := { t with levels := t.levels.dropLast }

/-- Commits a level. A savepoint needs no command. -/
def commit (t : TransactionStack) (h : TransactionHandle) :
    Result (Option TransactionCommand × TransactionStack) := do
  t.ensureCurrent h
  .ok (if h.isRoot then some .commit else none, t.pop)

def rollback (t : TransactionStack) (h : TransactionHandle) :
    Result (TransactionCommand × TransactionStack) := do
  t.ensureCurrent h
  .ok (.rollback h.savepoint, t.pop)

/-- Closes all levels; nothing has to be sent where none is open. -/
def abort (t : TransactionStack) : Option TransactionCommand × TransactionStack :=
  if t.levels.isEmpty then (none, t) else (some (.rollback none), { t with levels := [] })

end TransactionStack

end Tsql
