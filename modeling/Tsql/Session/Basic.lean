import Tsql.DataSet
import Tsql.Render.Binding
import Tsql.Render.Table
import Tsql.ResultRow
import Tsql.Session.Transaction

/-!
# Sessions

A `Session` is what belongs to one connection: rendered texts of command trees, the names of
temporary tables, open transactions and the values of parameters. It talks to a `Server`, which
answers each request in the light of all requests before it. An `Action` is an operation of a
session: it may stop with an error, and the session keeps what was done until then.
-/

namespace Tsql

open Text

/-- What is sent to the server: one text with its parameters. -/
structure Request where
  /-- Rows are expected as the answer, and not only their number. -/
  returnsRows : Bool
  sql : String
  params : List BoundParam := []
  /-- The time limit in milliseconds. -/
  timeout : Option Nat := none
  deriving DecidableEq, Repr

/-- A server, and whether the caller has cancelled. All depend on the requests sent so far. -/
structure Server where
  /-- The number of rows that a request affected. -/
  affected : List Request → Request → Result Nat
  /-- The rows that a request returned. -/
  rows : List Request → Request → Result (List ResultRow)
  /-- A cancellation was requested. -/
  cancelled : List Request → Bool

structure Session where
  version : Version := .sql13
  types : TypeMap := {}
  /-- The time limit of a request in milliseconds. -/
  timeout : Option Nat := none
  /-- The texts of command trees rendered before. -/
  cache : List (StatementId × SqlText) := []
  temps : TempTables := {}
  /-- The models of the temporary tables that exist. -/
  liveTemps : List (ModelId × Model) := []
  transactions : TransactionStack := {}
  bindings : Bindings := {}
  supply : Supply := {}
  /-- All requests sent so far, in order. -/
  sent : List Request := []

/-- An operation on a state, with a server to talk to. The state is kept where the operation fails.
-/
abbrev ActionOn (σ α : Type) := ReaderT Server (ExceptT Error (StateM σ)) α

abbrev Action (α : Type) := ActionOn Session α

def ActionOn.runWith {σ α : Type} (a : ActionOn σ α) (server : Server) (s : σ) : Result α × σ :=
  (a.run server).run s

namespace Session

def target (s : Session) : Target := { version := s.version, types := s.types, temps := s.temps }

def request (s : Session) (returnsRows : Bool) (sql : String) (params : List BoundParam) :
    Request :=
  { returnsRows, sql, params, timeout := s.timeout }

def noteSent (s : Session) (r : Request) : Session := { s with sent := s.sent ++ [r] }

def ensureNotCancelled : Action Unit := do
  if (← read).cancelled (← get).sent then throw .cancelled

/-- Sends a request unless the caller has cancelled, and gives the number of affected rows. -/
def sendCounted (sql : String) (params : List BoundParam) : Action Nat := do
  ensureNotCancelled
  let s ← get
  let r := s.request false sql params
  set (s.noteSent r)
  (← read).affected s.sent r

/-- Sends a request unless the caller has cancelled, and gives the returned rows. -/
def sendReading (sql : String) (params : List BoundParam) : Action (List ResultRow) := do
  ensureNotCancelled
  let s ← get
  let r := s.request true sql params
  set (s.noteSent r)
  (← read).rows s.sent r

def sendAll : List TransactionCommand → Action Unit
  | [] => pure ()
  | c :: r => do
    let _ ← sendCounted c.sql []
    sendAll r

/-- Does something, and undoes a change where it fails. -/
def undoingOnError {α : Type} (undo : Session → Session) (a : Action α) : Action α := do
  try a catch e => do
    modify undo
    throw e

/-- The first value that a text returns, sent without parameters and without a time limit. -/
def scalar (sql : String) : Action (Option Native) := do
  let s ← get
  let r : Request := { returnsRows := true, sql }
  set (s.noteSent r)
  let rows ← (← read).rows s.sent r
  pure (rows.head?.bind fun row => row.values[0]?)

end Session

end Tsql
