import Tsql.Rowset
import Tsql.Session.Tables

/-!
# Bulk insert with identities

The rows of a data set carry provisional identities, so that other rows can refer to them before
they exist in the database. A bulk insert sends all rows as one JSON rowset. If the target has an
identity column the new keys are brought back:

* a temporary mapping table numbers the new keys as the provisional ones were numbered;
* the insert, ordered by row position, writes the new keys into the mapping table;
* the mapping is read in the order in which keys are assigned, and the k-th key goes to the k-th
  row, whatever old number stands beside it; where the numbers disagree the mapping table is
  corrected;
* foreign keys of children in memory and in temporary tables follow the new keys;
* the mapping table is dropped.

`BulkInsert.run` is the whole protocol. Nothing is undone where it fails.
-/

namespace Tsql

open Text

/-- A bulk insert: the rows, and the children whose foreign keys follow the new keys. -/
structure BulkInsert where
  rows : DataSet
  children : List DataSet := []
  /-- New keys are brought back. -/
  propagates : Bool := true

/-- What a bulk insert did. -/
structure BulkOutcome where
  /-- Keys were to be brought back, and all steps for that were done. -/
  completed : Bool
  inserted : Nat
  /-- Rows in memory that received a key. -/
  propagated : Nat := 0
  /-- Foreign keys replaced in memory. -/
  childrenRemapped : Nat := 0
  /-- Rows updated in temporary tables. -/
  tempRowsRemapped : Nat := 0
  deriving DecidableEq, Repr

/-- An old key with the new one. -/
abbrev KeyPair := Int × Value

/-- The mapping table of one run. -/
structure IdentityMap where
  model : Model
  oldValue : Column
  newValue : Column

namespace IdentityMap

/-- The identity column that a mapping table can be made for. -/
def ensureIntegral (identity : Column) : Result IdentitySpec :=
  match identity.identity with
  | none => .error (.invalidStatement s!"column '{identity.name}' is not an identity")
  | some spec =>
    if identity.type.isIntegral then .ok spec
    else .error (.notSupported (s!"identity column '{identity.name}' of non-integral type"
      ++ s!" {identity.type.name}"))

/-- A mapping table for an identity column: old values are numbered like the column. -/
def make (supply : Supply) (identity : Column) : Result (IdentityMap × Supply) := do
  let spec ← ensureIntegral identity
  let (modelId, supply) := supply.takeModel
  let (oldId, supply) := supply.takeColumn
  let (newId, supply) := supply.takeColumn
  let oldValue : Column :=
    { id := oldId, name := "OldValue", type := identity.type, identity := some spec }
  let newValue : Column := { id := newId, name := "NewValue", type := identity.type }
  let key : PrimaryKey :=
    { name := "PK_IdentityMap", columns := [(oldValue.toField, .ascending)] }
  let model := { Model.empty modelId "IdentityMap" .tempTable with
    columns := [oldValue, newValue], primaryKey := some key }
  .ok ({ model, oldValue, newValue }, supply)

/-- The old value seen through the mapping table. -/
def oldRef (m : IdentityMap) : ColumnRef := ⟨m.model.id, m.oldValue.toField⟩

/-- The new value seen through the mapping table. -/
def newExpr (m : IdentityMap) : Expr := m.model.ref m.newValue.toField

def keyOrder (identity : Column) : SortDirection :=
  match identity.identity with
  | some spec => if spec.increment < 0 then .descending else .ascending
  | none => .ascending

/-- The query for the mapping, in the order in which keys were assigned. -/
def readCommand (m : IdentityMap) (identity : Column) : Command :=
  .query (.select
    { output := m.model
      columns := [⟨m.model.ref m.oldValue.toField, m.oldValue.toField⟩,
        ⟨m.newExpr, m.newValue.toField⟩]
      orderBy := [⟨m.newExpr, keyOrder identity⟩] }
    (some (.table m.model)))

def readPair (m : IdentityMap) (identity : Column) (row : ResultRow) : Result KeyPair := do
  let old ← Reading.int64.readInt (← row.named m.oldValue.name)
  match row.named m.newValue.name with
  | .ok n => .ok (old, ← decode identity.type n)
  | .error _ => .error (.database "identity mapping row has no NewValue")

def readPairs (m : IdentityMap) (identity : Column) (rows : List ResultRow) :
    Result (List KeyPair) := rows.mapM (m.readPair identity)

/-- An update of a table from a source joined on old values. -/
def joinedUpdate (target : Model) (column : Field) (value : Expr) (source : Model)
    (on : ColumnRef × ColumnRef) : Command :=
  .update
    { target, assignments := [⟨value, column⟩]
      source := some (.join (.table target) (.table source) .inner { pairs := [on] }) }

/-- The update that moves a child's foreign key from old to new values. -/
def remapCommand (m : IdentityMap) (child : Model) (f : Field) : Command :=
  joinedUpdate child f m.newExpr m.model (⟨child.id, f⟩, m.oldRef)

/-- The row of a pair in a data set of the mapping table. -/
def addPair (m : IdentityMap) (identity : Column) (d : DataSet) (pair : KeyPair) :
    Result DataSet :=
  match Value.integral? identity.type pair.1 with
  | none => .error (.argumentOutOfRange
      s!"identity value {intText pair.1} does not fit column '{identity.name}'")
  | some old =>
    let (r, d) := d.addRowWith [(m.oldValue.toField, old), (m.newValue.toField, pair.2)]
    r.map fun _ => d

def pairRowset (m : IdentityMap) (identity : Column) (types : TypeMap) (supply : Supply)
    (pairs : List KeyPair) : Result (Rowset × Supply) := do
  let d ← pairs.foldlM (m.addPair identity) { DataSet.empty m.model with suspended := true }
  Rowset.build supply d types [m.oldValue, m.newValue]

/-- The update that corrects the mapping table from a rowset of pairs. -/
def realignCommand (m : IdentityMap) (pairs : Rowset) : Command :=
  joinedUpdate m.model m.newValue.toField (pairs.model.ref m.newValue.toField) pairs.model
    (m.oldRef, ⟨pairs.model.id, m.oldValue.toField⟩)

end IdentityMap

namespace DataSet

def number? (d : DataSet) (row : Nat) (f : Field) : Option Int := (d.value? row f).bind Value.asInt?

def inspectNumber : Option Int → String
  | some i => "Some(" ++ intText i ++ ")"
  | none => "None"

/-- Fails unless the rows from a position on are unsealed and hold consecutive identities. -/
def checkFrom (d : DataSet) (identity : Field) (increment : Int) (expected : Int)
    (position : Nat) : List DataRow → Result Unit
  | [] => .ok ()
  | r :: rest =>
    let actual := d.number? position identity
    if r.isSealed then
      .error (.invalidStatement
        s!"row {natText position} of '{d.model.name}' already has a database key")
    else if actual ≠ some expected then
      .error (.invalidStatement (s!"row {natText position} of '{d.model.name}' holds identity"
        ++ s!" {inspectNumber actual}, expected provisional value {intText expected}"))
    else if fitsInt64 (expected + increment) then
      d.checkFrom identity increment (expected + increment) (position + 1) rest
    else .error (.argumentOutOfRange (s!"provisional identity of '{identity.name}'"
      ++ s!" overflows after row {natText position}"))

/-- Fails unless each row holds its provisional identity. -/
def checkProvisional (d : DataSet) (identity : Column) : Result Unit :=
  match identity.identity with
  | some spec => d.checkFrom identity.toField spec.increment spec.seed 0 d.rows
  | none => .ok ()

def provisional (d : DataSet) (identity : Field) (row : Nat) : Result Int :=
  match d.number? row identity with
  | some i => .ok i
  | none => .error (.invalidStatement
      s!"row {natText row} of '{d.model.name}' has no provisional identity")

/-- Pairs the provisional identity of the k-th row with the k-th new key. The mapping has to cover
every row and to name no others. -/
def pairKeys (d : DataSet) (identity : Field) (mapped : List KeyPair) : Result (List KeyPair) := do
  let old ← (List.range d.size).mapM (d.provisional identity)
  match mapped.find? fun (i, _) => !old.contains i with
  | some (i, _) => .error (.invalidStatement
      s!"identity mapping OldValue {intText i} matches no row of '{d.model.name}'")
  | none =>
    if mapped.length = old.length then .ok (old.zip (mapped.map Prod.snd))
    else .error (.database (s!"identity mapping holds {natText mapped.length} rows"
      ++ s!" for {natText old.length} rows of '{d.model.name}'"))

/-- Writes the k-th key into the k-th row, from a position on, and makes it final. -/
def writeKeysFrom (identity : Field) (d : DataSet) (row : Nat) :
    List KeyPair → Result Unit × DataSet
  | [] => (.ok (), d)
  | (_, key) :: rest => match d.set row identity key with
    | .error e => (.error e, d)
    | .ok d => match d.sealRow row with
      | .error e => (.error e, d)
      | .ok d => writeKeysFrom identity d (row + 1) rest

/-- Writes the k-th key into the k-th row while the counter rests. -/
def writeKeys (d : DataSet) (identity : Field) (pairs : List KeyPair) : Result Unit × DataSet :=
  d.whileSuspended fun d => writeKeysFrom identity d 0 pairs

end DataSet

def Remapping.ofPairs (pairs : List KeyPair) : Remapping :=
  pairs.foldl (fun m (old, new) => m.insert old new) {}

/-- The insert of a rowset into a target, ordered by row position. -/
def rowsetInsert (target : Model) (rowset : Rowset) (identityOutput : Option Model) : Command :=
  .insert
    { target, identityOutput
      source := .select
        { output := rowset.model
          columns := (rowset.model.columns.drop 1).map fun c =>
            ⟨rowset.model.ref c.toField, c.toField⟩
          orderBy := [⟨rowset.model.ref rowset.rowId.toField, .ascending⟩] }
        (some (.table rowset.model)) }

namespace BulkInsert

/-- A run under way: the session, and the data it changes. -/
structure Run where
  session : Session
  job : BulkInsert

abbrev Step (α : Type) := ActionOn Run α

def inSession {α : Type} (a : Action α) : Step α := do
  let run ← get
  let (r, session) := a.runWith (← read) run.session
  set { run with session }
  r

def supplying {α : Type} (f : Session → Result (α × Supply)) : Step α := do
  let run ← get
  let (a, supply) ← f run.session
  set { run with session := { run.session with supply } }
  pure a

def bindRowset (rowset : Rowset) : Step Unit :=
  inSession (Session.setParam rowset.param.id (.string rowset.text))

def sendRows : Step Rowset := do
  let d := (← get).job.rows
  let rowset ← supplying fun s => Rowset.build s.supply d s.types d.model.insertableColumns
  bindRowset rowset
  pure rowset

/-- Reads the mapping in the order in which keys were assigned. -/
def readMapping (m : IdentityMap) (identity : Column) : Step (List KeyPair) := do
  m.readPairs identity (← inSession (Session.queryOnce (m.readCommand identity)))

def writeKeys (identity : Field) (pairs : List KeyPair) : Step Unit := do
  let run ← get
  let (r, rows) := run.job.rows.writeKeys identity pairs
  set { run with job := { run.job with rows } }
  r

/-- Corrects the mapping table where it disagrees with the pairs. -/
def realign (m : IdentityMap) (identity : Column) (mapped pairs : List KeyPair) : Step Unit := do
  if pairs.map Prod.fst ≠ mapped.map Prod.fst then
    let rowset ← supplying fun s => m.pairRowset identity s.types s.supply pairs
    bindRowset rowset
    let _ ← inSession (Session.executeOnce (m.realignCommand rowset))

/-- Replaces keys in columns of a data set, until one column fails; counts the replacements. -/
def remapColumns (remapping : Remapping) (d : DataSet) : List Field → Result Nat × DataSet
  | [] => (.ok 0, d)
  | f :: rest => match d.remap f remapping with
    | .error e => (.error e, d)
    | .ok (n, d) =>
      let (r, d) := remapColumns remapping d rest
      (r.map (n + ·), d)

/-- Replaces keys in children, until one fails. -/
def remapAll (remapping : Remapping) (parent : ModelId) (identity : String) :
    List DataSet → Result Nat × List DataSet
  | [] => (.ok 0, [])
  | d :: rest =>
    let (r, d) := remapColumns remapping d (d.model.childColumns parent identity)
    match r with
    | .error e => (.error e, d :: rest)
    | .ok n =>
      let (r, rest) := remapAll remapping parent identity rest
      (r.map (n + ·), d :: rest)

def remapChildren (identity : Field) (remapping : Remapping) : Step Nat := do
  let run ← get
  let (r, children) := remapAll remapping run.job.rows.model.id identity.name run.job.children
  set { run with job := { run.job with children } }
  r

/-- Replaces keys in some temporary tables, one after the other. -/
def remapTempTables (m : IdentityMap) : List (Model × Field) → Step Nat
  | [] => pure 0
  | (child, f) :: rest => do
    let n ← inSession (Session.executeOnce (m.remapCommand child f))
    return n + (← remapTempTables m rest)

/-- Brings the new keys back. -/
def propagate (m : IdentityMap) (identity : Column) (inserted : Nat) : Step BulkOutcome := do
  let mapped ← readMapping m identity
  let pairs ← (← get).job.rows.pairKeys identity.toField mapped
  writeKeys identity.toField pairs
  realign m identity mapped pairs
  let childrenRemapped ← remapChildren identity.toField (Remapping.ofPairs pairs)
  let run ← get
  let tempRowsRemapped ←
    remapTempTables m (run.session.tempChildren run.job.rows.model.id identity.name)
  pure { completed := true, inserted, propagated := (Remapping.ofPairs pairs).size, childrenRemapped
         tempRowsRemapped }

def runWithMapping (identity : Column) (rowset : Rowset) : Step BulkOutcome := do
  let job := (← get).job
  job.rows.checkProvisional identity
  let m ← supplying fun s => IdentityMap.make s.supply identity
  let _ ← inSession (Session.createTemp m.model)
  let inserted ← inSession
    (Session.executeOnce (rowsetInsert job.rows.model rowset (some m.model)))
  let outcome ←
    if 0 < inserted then propagate m identity inserted
    else pure { completed := true, inserted }
  inSession (Session.dropTemp m.model)
  pure outcome

def steps : Step BulkOutcome := do
  let job := (← get).job
  if job.rows.rows.isEmpty then pure { completed := false, inserted := 0 }
  else
    let rowset ← sendRows
    match job.rows.model.identityColumn?, job.propagates with
    | some identity, true => runWithMapping identity rowset
    | _, _ =>
      let inserted ← inSession
        (Session.executeOnce (rowsetInsert job.rows.model rowset none))
      pure { completed := false, inserted }

/-- Runs a bulk insert; gives what it did, the data sets afterwards and the session. -/
def run (job : BulkInsert) (server : Server) (session : Session) :
    Result BulkOutcome × BulkInsert × Session :=
  let (r, after) := steps.runWith server { session, job }
  (r, after.job, after.session)

end BulkInsert

end Tsql
