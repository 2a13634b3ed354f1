import Tsql.Proofs.BulkInsert.Follow

/-!
# Calls on a session

`Call` lists what can be asked of a session. A session lives through any calls in any order, each with
a server and a caller of its own. `Session.Invariant` lists the changes that calls make to a session;
a property that goes through each of these holds after any calls, by `Session.Invariant.afterCalls`.

With one server there are three layers: `Session.ExecutionInvariant` has the changes that the execution of
commands makes, `Session.TableInvariant` those of all calls that leave transactions alone, and
`Session.CallInvariant` all of them. Here a request is known to be sent for a caller who has not cancelled.
-/

namespace Tsql

open ActionOn

/-- A bulk insert as an operation of the session, without the data that it changes. -/
def Session.bulkInsert (job : BulkInsert) : Action BulkOutcome := fun server => .mk fun s =>
  ((job.run server s).1, (job.run server s).2.2)

/-- A call on a session. Command trees go by their identities. -/
inductive Call where
  | render (tree : StatementId)
  | execute (tree : StatementId)
  | query (tree : StatementId)
  | queryDataSet (tree : StatementId)
  | insertRow (tree : StatementId)
  | executeIn (h : TransactionHandle) (tree : StatementId)
  | queryIn (h : TransactionHandle) (tree : StatementId)
  | invalidate (tree : StatementId)
  | createTable (m : Model)
  | dropTable (m : Model)
  | createTemp (m : Model)
  | dropTemp (m : Model)
  | beginTransaction (isolation : Option Isolation)
  | commit (h : TransactionHandle)
  | rollback (h : TransactionHandle)
  | abort
  | setParam (id : ParamId) (v : Value)
  | scalar (sql : String)
  | bulkInsert (job : BulkInsert)

namespace Call

/-- The operation that a call stands for; `commands` are the commands of the trees. -/
def action (commands : StatementId → Command) : Call → Action Unit
  | render tree => do let _ ← Session.render ⟨tree, commands tree⟩
  | execute tree => do let _ ← Session.execute ⟨tree, commands tree⟩
  | query tree => do let _ ← Session.query ⟨tree, commands tree⟩
  | queryDataSet tree => do let _ ← Session.queryDataSet ⟨tree, commands tree⟩
  | insertRow tree => do let _ ← Session.insertRow ⟨tree, commands tree⟩
  | executeIn h tree => do let _ ← Session.executeIn h ⟨tree, commands tree⟩
  | queryIn h tree => do let _ ← Session.queryIn h ⟨tree, commands tree⟩
  | invalidate tree => do let _ ← Session.invalidate tree
  | createTable m => Session.createTable m
  | dropTable m => Session.dropTable m
  | createTemp m => do let _ ← Session.createTemp m
  | dropTemp m => Session.dropTemp m
  | beginTransaction isolation => do let _ ← Session.beginTransaction isolation
  | commit h => Session.commit h
  | rollback h => Session.rollback h
  | abort => Session.abort
  | setParam id v => Session.setParam id v
  | scalar sql => do let _ ← Session.scalar sql
  | bulkInsert job => do let _ ← Session.bulkInsert job

/-- The call concerns a single command or a permanent table: it does no more than render and send. -/
def executes : Call → Bool
  | render _ | execute _ | query _ | queryDataSet _ | insertRow _ | executeIn .. | queryIn ..
  | createTable _ | dropTable _ => true
  | _ => false

def isTransactional : Call → Bool
  | beginTransaction _ | commit _ | rollback _ | abort => true
  | _ => false

/-- The call goes to the server past the session, which does not ask whether the caller has cancelled. -/
def isDirect : Call → Bool
  | scalar _ => true
  | _ => false

end Call

/-- The session after some calls, each run to its end against a server. -/
def Session.afterCalls (commands : StatementId → Command) (s : Session)
    (calls : List (Call × Server)) : Session :=
  calls.foldl (fun s c => ((c.1.action commands).runWith c.2 s).2) s

/-- What a property of sessions has to go through to hold across all calls: each change that a call
makes to the session. -/
structure Session.Invariant (commands : StatementId → Command) (P : Session → Prop) : Prop where
  noteSent (s : Session) (r : Request) (h : P s) : P (s.noteSent r)
  bind (s : Session) (bindings : Bindings) (h : P s) : P { s with bindings }
  supply (s : Session) (supply : Supply) (h : P s) : P { s with supply }
  transactions (s : Session) (transactions : TransactionStack) (h : P s) : P { s with transactions }
  cached (s : Session) (tree : StatementId) (text : SqlText)
    (hg : s.target.generate (commands tree) = .ok text) (h : P s) :
    P { s with cache := (tree, text) :: s.cache }
  invalidated (s : Session) (tree : StatementId) (h : P s) :
    P { s with cache := s.cache.filter fun (i, _) => i ≠ tree }
  created (s : Session) (m : Model) (q : Request) (hnew : s.temps.get? m.id = none) (h : P s) :
    P (s.withTemp m q)
  notCreated (s : Session) (m : Model) (hnew : s.temps.get? m.id = none) (h : P s) :
    P (Session.forgetTemp m.id (s.naming m))
  dropped (s : Session) (m : Model) (h : P s) :
    P { Session.forgetTemp m.id s with
        liveTemps := s.liveTemps.filter fun (i, _) => i ≠ m.id, cache := [] }

/-- The changes that rendering and sending make. -/
structure Session.ExecutionInvariant (commands : StatementId → Command) (server : Server)
    (P : Session → Prop) : Prop where
  noteSent (s : Session) (r : Request) (hc : server.cancelled s.sent = false) (h : P s) :
    P (s.noteSent r)
  cached (s : Session) (tree : StatementId) (text : SqlText)
    (hg : s.target.generate (commands tree) = .ok text) (h : P s) :
    P { s with cache := (tree, text) :: s.cache }

/-- The changes that calls make which leave transactions alone. -/
structure Session.TableInvariant (commands : StatementId → Command) (server : Server)
    (P : Session → Prop) : Prop extends Session.ExecutionInvariant commands server P where
  bind (s : Session) (bindings : Bindings) (h : P s) : P { s with bindings }
  supply (s : Session) (supply : Supply) (h : P s) : P { s with supply }
  invalidated (s : Session) (tree : StatementId) (h : P s) :
    P { s with cache := s.cache.filter fun (i, _) => i ≠ tree }
  created (s : Session) (m : Model) (q : Request) (hc : server.cancelled s.sent = false)
    (hnew : s.temps.get? m.id = none) (h : P s) : P (s.withTemp m q)
  notCreated (s : Session) (m : Model) (hnew : s.temps.get? m.id = none) (h : P s) :
    P (Session.forgetTemp m.id (s.naming m))
  dropped (s : Session) (m : Model) (h : P s) :
    P { Session.forgetTemp m.id s with
        liveTemps := s.liveTemps.filter fun (i, _) => i ≠ m.id, cache := [] }

/-- The changes that calls make with one server. -/
structure Session.CallInvariant (commands : StatementId → Command) (server : Server)
    (P : Session → Prop) : Prop extends Session.TableInvariant commands server P where
  transactions (s : Session) (transactions : TransactionStack) (h : P s) : P { s with transactions }

variable {commands : StatementId → Command} {server : Server} {P : Session → Prop}

/-! ### Executing commands -/

namespace Session.ExecutionInvariant

variable (hP : ExecutionInvariant commands server P)

include hP

theorem render (tree : StatementId) : (render ⟨tree, commands tree⟩).Keeps server P := by
  refine .of_get fun s h => ?_
  dsimp only
  cases s.cache.lookup tree with
  | some text => exact h
  | none =>
    rw [runWith_bind, runWith_lift]
    cases hg : s.target.generate (commands tree) with
    | error e => exact h
    | ok text => exact hP.cached s tree text hg h

theorem executeText (text : SqlText) : (executeText text).Keeps server P :=
  .bind .get fun _ => .bind (.lift _) fun _ => keeps_sendCounted hP.noteSent _ _

theorem queryText (text : SqlText) : (queryText text).Keeps server P :=
  .bind .get fun _ => .bind (.lift _) fun _ => keeps_sendReading hP.noteSent _ _

theorem execute (tree : StatementId) : (execute ⟨tree, commands tree⟩).Keeps server P :=
  .bind (hP.render tree) fun text => hP.executeText text

theorem query (tree : StatementId) : (query ⟨tree, commands tree⟩).Keeps server P :=
  .bind (hP.render tree) fun text => hP.queryText text

theorem executeOnce (c : Command) : (executeOnce c).Keeps server P :=
  .bind .get fun _ => .bind (.lift _) fun text => hP.executeText text

theorem queryOnce (c : Command) : (queryOnce c).Keeps server P :=
  .bind .get fun _ => .bind (.lift _) fun text => hP.queryText text

theorem queryDataSet (tree : StatementId) : (queryDataSet ⟨tree, commands tree⟩).Keeps server P :=
  .bind (.lift _) fun _ => .bind (hP.query tree) fun _ => .lift _

theorem insertRow (tree : StatementId) : (insertRow ⟨tree, commands tree⟩).Keeps server P := by
  refine .bind (.lift _) fun i => ?_
  split
  · exact .bind (hP.query tree) fun _ => .lift _
  · exact .bind (hP.execute tree) fun _ => .pure none

theorem createTable (m : Model) : (createTable m).Keeps server P :=
  .bind .get fun _ => .bind (.lift _) fun _ => .bind (keeps_sendCounted hP.noteSent _ _)
    fun _ => .pure ()

theorem dropTable (m : Model) : (dropTable m).Keeps server P :=
  .bind .get fun _ => .bind (.lift _) fun _ => .bind (keeps_sendCounted hP.noteSent _ _)
    fun _ => .pure ()

theorem action (c : Call) (hc : c.executes = true) : (c.action commands).Keeps server P := by
  cases c with
  | render tree => exact .bind (hP.render tree) fun _ => .pure _
  | execute tree => exact .bind (hP.execute tree) fun _ => .pure _
  | query tree => exact .bind (hP.query tree) fun _ => .pure _
  | queryDataSet tree => exact .bind (hP.queryDataSet tree) fun _ => .pure _
  | insertRow tree => exact .bind (hP.insertRow tree) fun _ => .pure _
  | executeIn h tree =>
    exact .bind (.bind .get fun _ => .bind (.lift _) fun _ => hP.execute tree) fun _ => .pure _
  | queryIn h tree =>
    exact .bind (.bind .get fun _ => .bind (.lift _) fun _ => hP.query tree) fun _ => .pure _
  | createTable m => exact hP.createTable m
  | dropTable m => exact hP.dropTable m
  | _ => cases hc

end Session.ExecutionInvariant

/-! ### Temporary tables, parameters and bulk inserts -/

theorem BulkInsert.keeps_inSession {α : Type} {a : Action α} (ha : a.Keeps server P) :
    (inSession a).Keeps server fun run => P run.session := by
  intro run h
  rw [runWith_inSession]
  exact ha run.session h

theorem BulkInsert.keeps_writeKeys (identity : Field) (pairs : List KeyPair) :
    (writeKeys identity pairs).Keeps server fun run => P run.session :=
  .of_get fun _ h => h

theorem BulkInsert.keeps_remapChildren (identity : Field) (remapping : Remapping) :
    (remapChildren identity remapping).Keeps server fun run => P run.session :=
  .of_get fun _ h => h

namespace Session.TableInvariant

variable (hP : TableInvariant commands server P)

include hP

theorem createTemp (m : Model) : (createTemp m).Keeps server P := by
  intro s h
  rw [runWith_createTemp]
  cases hc : ensureCreatable s m with
  | error e => exact h
  | ok _ =>
    have hnew := ensureCreatable_ok hc
    dsimp only
    rcases ha : sendCreate server (s.naming m) m with ⟨e | x, u⟩ <;>
      rcases of_attempt ha with ⟨rfl, he⟩ | ⟨q, -, hasked, rfl, -⟩
    · exact hP.notCreated s m hnew h
    · exact hP.noteSent (forgetTemp m.id (s.naming m)) q hasked (hP.notCreated s m hnew h)
    · obtain ⟨e, he⟩ := he
      cases he
    · exact hP.created s m q hasked hnew h

theorem dropTemp (m : Model) : (dropTemp m).Keeps server P :=
  .bind .get fun _ => .bind (.lift _) fun _ => .bind (keeps_sendCounted hP.noteSent _ _)
    fun _ => .of_modify fun s h => hP.dropped s m h

theorem setParam (id : ParamId) (v : Value) : (setParam id v).Keeps server P :=
  .of_modify fun s h => hP.bind s _ h

theorem supplying {α : Type} (f : Session → Result (α × Supply)) :
    (BulkInsert.supplying f).Keeps server fun run => P run.session := by
  intro run h
  rw [BulkInsert.runWith_supplying]
  rcases f run.session with e | ⟨a, supply⟩
  · exact h
  · exact hP.supply run.session supply h

theorem bindRowset (rowset : Rowset) :
    (BulkInsert.bindRowset rowset).Keeps server fun run => P run.session :=
  BulkInsert.keeps_inSession (hP.setParam _ _)

theorem sendRows : BulkInsert.sendRows.Keeps server fun run => P run.session :=
  .bind .get fun _ => .bind (hP.supplying _) fun rowset => .bind (hP.bindRowset rowset)
    fun _ => .pure _

theorem realign (m : IdentityMap) (identity : Column) (mapped pairs : List KeyPair) :
    (BulkInsert.realign m identity mapped pairs).Keeps server fun run => P run.session := by
  unfold BulkInsert.realign
  split
  · exact .bind (hP.supplying _) fun rowset => .bind (hP.bindRowset rowset) fun _ =>
      .bind (BulkInsert.keeps_inSession (hP.executeOnce _)) fun _ => .pure _
  · exact .pure ()

theorem remapTempTables (m : IdentityMap) (items : List (Model × Field)) :
    (BulkInsert.remapTempTables m items).Keeps server fun run => P run.session := by
  induction items with
  | nil => exact .pure 0
  | cons item rest ih =>
    exact .bind (BulkInsert.keeps_inSession (hP.executeOnce _)) fun n =>
      .bind ih fun _ => .pure _

theorem propagate (m : IdentityMap) (identity : Column) (inserted : Nat) :
    (BulkInsert.propagate m identity inserted).Keeps server fun run => P run.session := by
  unfold BulkInsert.propagate
  refine .bind (.bind (BulkInsert.keeps_inSession (hP.queryOnce _)) fun _ => .lift _)
    fun mapped => .bind .get fun _ => .bind (.lift _) fun pairs => ?_
  refine .bind (BulkInsert.keeps_writeKeys _ pairs) fun _ =>
    .bind (hP.realign m identity mapped pairs) fun _ => ?_
  exact .bind (BulkInsert.keeps_remapChildren _ _) fun _ => .bind .get fun _ =>
    .bind (hP.remapTempTables m _) fun _ => .pure _

theorem runWithMapping (identity : Column) (rowset : Rowset) :
    (BulkInsert.runWithMapping identity rowset).Keeps server fun run => P run.session := by
  refine .bind .get fun _ => .bind (.lift _) fun _ => .bind (hP.supplying _) fun m => ?_
  refine .bind (BulkInsert.keeps_inSession (hP.createTemp m.model)) fun _ =>
    .bind (BulkInsert.keeps_inSession (hP.executeOnce _)) fun inserted => ?_
  dsimp only
  split
  · exact .bind (hP.propagate m identity inserted) fun outcome =>
      .bind (BulkInsert.keeps_inSession (hP.dropTemp m.model)) fun _ => .pure outcome
  · exact .bind (.pure _) fun outcome =>
      .bind (BulkInsert.keeps_inSession (hP.dropTemp m.model)) fun _ => .pure outcome

theorem steps : BulkInsert.steps.Keeps server fun run => P run.session := by
  refine .bind .get fun run => ?_
  dsimp only
  split
  · exact .pure _
  refine .bind hP.sendRows fun rowset => ?_
  split
  · exact hP.runWithMapping _ rowset
  · exact .bind (BulkInsert.keeps_inSession (hP.executeOnce _)) fun _ => .pure _

theorem bulkInsert (job : BulkInsert) : (bulkInsert job).Keeps server P :=
  fun s h => hP.steps { session := s, job } h

/-- A call that leaves transactions alone. Past the session requests are sent for any caller. -/
theorem action (c : Call) (hc : c.isTransactional = false)
    (hdirect : c.isDirect = true → ∀ s r, P s → P (s.noteSent r)) :
    (c.action commands).Keeps server P := by
  cases c with
  | invalidate tree =>
    exact .bind (.of_get fun s h => hP.invalidated s tree h) fun _ => .pure _
  | createTemp m => exact .bind (hP.createTemp m) fun _ => .pure _
  | dropTemp m => exact hP.dropTemp m
  | setParam id v => exact hP.setParam id v
  | bulkInsert job => exact .bind (hP.bulkInsert job) fun _ => .pure _
  | scalar sql =>
    refine .bind (.of_get fun s h => ?_) fun _ => .pure _
    rw [runWith_bind, runWith_set]
    dsimp only
    exact (Keeps.bind (.lift _) fun _ => .pure _) _ (hdirect rfl s _ h)
  | beginTransaction _ => cases hc
  | commit _ => cases hc
  | rollback _ => cases hc
  | abort => cases hc
  | _ => exact hP.toExecutionInvariant.action _ rfl

end Session.TableInvariant

/-! ### Transactions -/

namespace Session.CallInvariant

variable (hP : CallInvariant commands server P)

include hP

theorem closeLevel (closed : TransactionStack) (sent : List TransactionCommand) :
    (closeLevel closed sent).Keeps server P :=
  .bind .get fun _ => .bind (.of_modify fun s h => hP.transactions s _ h) fun _ =>
    keeps_undoingOnError (keeps_sendAll hP.noteSent _) fun s h => hP.transactions s _ h

theorem beginTransaction (isolation : Option Isolation) :
    (beginTransaction isolation).Keeps server P :=
  .bind .get fun _ => .bind (.of_modify fun s h => hP.transactions s _ h) fun _ =>
    .bind (.lift _) fun _ => .bind (keeps_undoingOnError (keeps_sendAll hP.noteSent _)
      fun s h => hP.transactions s _ h) fun _ => .pure _

theorem abort : Session.abort.Keeps server P :=
  .bind .get fun _ => .bind (.of_modify fun s h => hP.transactions s _ h) fun _ =>
    keeps_sendAll hP.noteSent _

theorem action (c : Call) (hdirect : c.isDirect = true → ∀ s r, P s → P (s.noteSent r)) :
    (c.action commands).Keeps server P := by
  cases c with
  | beginTransaction isolation => exact .bind (hP.beginTransaction isolation) fun _ => .pure _
  | commit h => exact .bind .get fun _ => .bind (.lift _) fun _ => hP.closeLevel _ _
  | rollback h => exact .bind .get fun _ => .bind (.lift _) fun _ => hP.closeLevel _ _
  | abort => exact hP.abort
  | _ => exact hP.toTableInvariant.action _ rfl hdirect

end Session.CallInvariant

/-! ### All calls -/

namespace Session.Invariant

variable (hP : Invariant commands P)

include hP

theorem withServer (server : Server) : CallInvariant commands server P where
  noteSent s r _ h := hP.noteSent s r h
  bind := hP.bind
  supply := hP.supply
  transactions := hP.transactions
  cached := hP.cached
  invalidated := hP.invalidated
  created s m q _ hnew h := hP.created s m q hnew h
  notCreated := hP.notCreated
  dropped := hP.dropped

/-- A property that goes through each single change holds after every call. -/
theorem action (c : Call) : (c.action commands).Preserves P := fun server =>
  (hP.withServer server).action c fun _ => hP.noteSent

/-- What goes through each single change holds after any calls in any order. -/
theorem afterCalls {s : Session} (hs : P s) (calls : List (Call × Server)) :
    P (s.afterCalls commands calls) := by
  induction calls generalizing s with
  | nil => exact hs
  | cons c rest ih => exact ih (hP.action c.1 c.2 s hs)

end Session.Invariant

end Tsql
