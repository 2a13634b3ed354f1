import Mathlib.Data.List.Nodup
import Tsql.Proofs.BulkInsert.Follow
import Tsql.Proofs.BulkInsert.Keys

/-!
# Runs of a bulk insert

A run stops before its first key is written, or it has read keys for all rows. `KeysRead` is what
such a run has done until then, `run_cases` the case distinction.
-/

namespace Tsql

/-- What a mapping table for an identity column is like. -/
structure IdentityMap.Made (m : IdentityMap) (identity : Column) : Prop where
  integral : identity.type.isIntegral = true
  oldName : m.oldValue.name = "OldValue"
  newName : m.newValue.name = "NewValue"
  oldType : m.oldValue.type = identity.type
  newType : m.newValue.type = identity.type
  id_ne : m.oldValue.id ≠ m.newValue.id
  columns_eq : m.model.columns = [m.oldValue, m.newValue]
  source_eq : m.model.source = .tempTable

theorem IdentityMap.made {supply supply' : Supply} {identity : Column} {m : IdentityMap}
    (h : IdentityMap.make supply identity = .ok (m, supply')) : m.Made identity := by
  unfold make at h
  obtain ⟨spec, hs, h⟩ := Result.bind_eq_ok h
  cases h
  unfold ensureIntegral at hs
  split at hs
  · cases hs
  split at hs
  next hi => exact ⟨hi, rfl, rfl, rfl, rfl, by simp, rfl, rfl⟩
  · cases hs

def ResultRow.int? (row : ResultRow) (column : String) : Option Int :=
  match row.named column with
  | .ok n => n.asInt?
  | .error _ => none

/-- A row of a mapping holds a pair of an old key and a new one. -/
def ResultRow.Holds (type : ValueType) (row : ResultRow) (p : KeyPair) : Prop :=
  row.int? "OldValue" = some p.1 ∧ row.decodeNamed "NewValue" type = .ok p.2

theorem IdentityMap.readPair_ok {m : IdentityMap} {identity : Column} {row : ResultRow}
    {p : KeyPair} (hm : m.Made identity) (h : m.readPair identity row = .ok p) :
    row.Holds identity.type p := by
  unfold readPair at h
  rw [hm.newName, hm.oldName] at h
  obtain ⟨n, hn, h⟩ := Result.bind_eq_ok h
  obtain ⟨old, hold, h⟩ := Result.bind_eq_ok h
  have hint : row.int? "OldValue" = some old := by
    rw [ResultRow.int?, hn]
    unfold Reading.readInt at hold
    split at hold
    next i hi => rwa [← Except.ok.inj hold]
    · cases hold
  split at h
  next new hnew =>
    obtain ⟨v, hv, h⟩ := Result.bind_eq_ok h
    cases h
    refine ⟨hint, ?_⟩
    rw [ResultRow.decodeNamed, hnew]
    exact hv
  · cases h

theorem IdentityMap.readPairs_ok {m : IdentityMap} {identity : Column} {rows : List ResultRow}
    {mapped : List KeyPair} (hm : m.Made identity) (h : m.readPairs identity rows = .ok mapped) :
    List.Forall₂ (ResultRow.Holds identity.type) rows mapped :=
  (Result.mapM_eq_ok h).imp fun _ _ => readPair_ok hm

theorem Model.spec_identityColumn {m : Model} {c : Column} (h : m.identityColumn? = some c) :
    ∃ spec, c.identity = some spec := by
  rw [identityColumn?] at h
  exact Option.isSome_iff_exists.1 (List.find?_some (p := fun c : Column => c.identity.isSome) h)

theorem Model.ordinal?_identityColumn {m : Model} {c : Column} (h : m.identityColumn? = some c) :
    (m.ordinal? c.id).isSome := by
  rw [ordinal?, List.findIdx?_isSome, List.any_eq_true]
  exact ⟨c, List.mem_of_find?_eq_some h, beq_self_eq_true _⟩

namespace BulkInsert

open ActionOn Session

/-- A run whose mapping table exists. -/
structure Prepared (job : BulkInsert) (session : Session) where
  identity : Column
  rowset : Rowset
  map : IdentityMap
  /-- What is left of the supply after the rowset, and after the mapping table. -/
  supplies : Supply × Supply
  /-- The request that created the mapping table. -/
  create : Request
  identity_eq : job.rows.model.identityColumn? = some identity
  rowset_eq : Rowset.build session.supply job.rows session.types job.rows.model.insertableColumns =
    .ok (rowset, supplies.1)
  provisional : job.rows.checkProvisional identity = .ok ()
  map_eq : IdentityMap.make supplies.1 identity = .ok (map, supplies.2)
  fresh : session.temps.get? map.model.id = none
  counted : create.returnsRows = false

def Prepared.ready {job : BulkInsert} {session : Session} (p : Prepared job session) : Session :=
  { binding session p.supplies.1 p.rowset with supply := p.supplies.2 }.withTemp p.map.model
    p.create

def Prepared.table {job : BulkInsert} {session : Session} (p : Prepared job session) : String :=
  (session.temps.realize p.map.model).1

theorem Prepared.get?_table {job : BulkInsert} {session : Session} (p : Prepared job session) :
    p.ready.target.temps.get? p.map.model.id = some p.table := get?_withTemp _ _ p.create

theorem Prepared.made {job : BulkInsert} {session : Session} (p : Prepared job session) :
    p.map.Made p.identity := IdentityMap.made p.map_eq

/-- A run that has read a key for every row, with the requests that it has sent. -/
structure KeysRead (server : Server) (job : BulkInsert) (session : Session) extends
    Prepared job session where
  insert : Request
  inserted : Nat
  read : Request
  answer : List ResultRow
  mapped : List KeyPair
  pairs : List KeyPair
  insert_eq : toPrepared.ready.requestOf false
    (rowsetInsert job.rows.model rowset (some map.model)) = .ok insert
  inserted_eq : server.affected toPrepared.ready.sent insert = .ok inserted
  inserted_pos : 0 < inserted
  read_eq : toPrepared.ready.requestOf true (map.readCommand identity) = .ok read
  answer_eq : server.rows (toPrepared.ready.sent ++ [insert]) read = .ok answer
  mapped_eq : map.readPairs identity answer = .ok mapped
  pairs_eq : job.rows.pairKeys identity.toField mapped = .ok pairs

def KeysRead.asked {server : Server} {job : BulkInsert} {session : Session}
    (k : KeysRead server job session) : Session :=
  (k.ready.noteSent k.insert).noteSent k.read

variable {server : Server} {job job' : BulkInsert} {session session' : Session}
  {r : Result BulkOutcome}

theorem KeysRead.asked_sent (k : KeysRead server job session) :
    k.asked.sent = session.sent ++ [k.create, k.insert, k.read] := by
  simp [asked, Prepared.ready, withTemp, binding]

/-- A run that has stopped before its first key is written. It may have asked for rows with its last
request, and has failed then. -/
structure Stopped (job job' : BulkInsert) (session session' : Session) (r : Result BulkOutcome) :
    Prop where
  job_eq : job' = job
  log : ∃ counted last : List Request, session'.sent = session.sent ++ counted ++ last ∧
    (∀ q ∈ counted, q.returnsRows = false) ∧ (last = [] ∨ ∃ q e, last = [q] ∧ r = .error e)

structure KeysRead.Rest (k : KeysRead server job session) (r : Result BulkOutcome)
    (job' : BulkInsert) (session' : Session) where
  rows : DataSet
  run : Run
  /-- The result before the mapping table is dropped. -/
  result : Result BulkOutcome
  realigned : List Request
  remapped : List Request
  dropped : List Request
  keyed : job.rows.Keyed rows k.identity.toField (k.mapped.map Prod.snd)
  followed : Followed k.map k.identity k.mapped k.pairs ⟨k.asked, { job with rows }⟩ run result
    realigned remapped
  job_eq : job' = run.job
  rows_eq : job'.rows = rows
  sent_eq : session'.sent = k.asked.sent ++ realigned ++ remapped ++ dropped
  dropped_eq : ∀ q ∈ dropped, q.returnsRows = false ∧
    k.asked.target.dropTableSql k.map.model true = .ok q.sql
  result_eq : ∀ o, r = .ok o → result = .ok o
  outcome : ∀ o, r = .ok o →
    o.inserted = k.inserted ∧ o.propagated = (Remapping.ofPairs k.pairs).size

/-- The pairs of a run: the k-th provisional identity with the k-th key that was read. -/
theorem KeysRead.pairs_zip (k : KeysRead server job session) {spec : IdentitySpec}
    (hs : k.identity.identity = some spec) :
    k.mapped.length = job.rows.size ∧
      (∀ p ∈ k.mapped, p.1 ∈ (List.range job.rows.size).map spec.nth) ∧
      k.pairs = ((List.range job.rows.size).map spec.nth).zip (k.mapped.map Prod.snd) :=
  DataSet.pairKeys_ok (fun _ hk => DataSet.number?_of_checkProvisional k.provisional hs hk)
    k.pairs_eq

theorem KeysRead.pairs_fst (k : KeysRead server job session) {spec : IdentitySpec}
    (hs : k.identity.identity = some spec) :
    k.pairs.map Prod.fst = (List.range job.rows.size).map spec.nth := by
  obtain ⟨hl, -, hp⟩ := k.pairs_zip hs
  rw [hp, List.map_fst_zip (by simp [hl])]

/-- A column that counts gives each old key once. -/
theorem KeysRead.pairs_inj (k : KeysRead server job session) {spec : IdentitySpec}
    (hs : k.identity.identity = some spec) (hinc : spec.increment ≠ 0) :
    ∀ p ∈ k.pairs, ∀ q ∈ k.pairs, p.1 = q.1 → p.2 = q.2 := by
  have hnodup : (k.pairs.map Prod.fst).Nodup := by
    rw [k.pairs_fst hs]
    exact List.nodup_range.map (IdentitySpec.nth_injective hinc)
  intro p hp q hq hpq
  rw [List.inj_on_of_nodup_map hnodup hp hq hpq]

variable {run run' : Run} {m : IdentityMap} {identity : Column}

theorem of_readMapping {r : Result (List KeyPair)}
    (h : (readMapping m identity).runWith server run = (r, run')) :
    run'.job = run.job ∧ ((run'.session.sent = run.session.sent ∧ ∃ e, r = .error e) ∨
      ∃ q, run.session.requestOf true (m.readCommand identity) = .ok q ∧
        run'.session = run.session.noteSent q ∧ ∀ mapped, r = .ok mapped →
          ∃ answer, server.rows run.session.sent q = .ok answer ∧
            m.readPairs identity answer = .ok mapped) := by
  unfold readMapping at h
  rcases of_bind h with ⟨e, ha, rfl⟩ | ⟨answer, u, ha, h⟩
  · obtain ⟨ha, hj⟩ := of_inSession ha
    rcases of_queryOnce ha with ⟨hs, -⟩ | ⟨q, hq, hs, -⟩
    · exact ⟨hj, .inl ⟨by rw [hs], e, rfl⟩⟩
    · exact ⟨hj, .inr ⟨q, hq, hs, by simp⟩⟩
  · rw [runWith_lift] at h
    obtain ⟨rfl, rfl⟩ := Prod.mk.inj h
    obtain ⟨ha, hj⟩ := of_inSession ha
    rcases of_queryOnce ha with ⟨-, e, he⟩ | ⟨q, hq, hs, ha⟩
    · cases he
    · exact ⟨hj, .inr ⟨q, hq, hs, fun mapped hm => ⟨answer, ha.symm, hm⟩⟩⟩

theorem runWith_writeKeys (f : Field) (pairs : List KeyPair) :
    (writeKeys f pairs).runWith server run =
      ((run.job.rows.writeKeys f pairs).1,
        { run with job := { run.job with rows := (run.job.rows.writeKeys f pairs).2 } }) := by
  simp only [writeKeys, runWith_bind, runWith_get, runWith_set, runWith_lift]

theorem of_propagate {inserted : Nat} {spec : IdentitySpec} (hspec : identity.identity = some spec)
    (ho : (run.job.rows.model.ordinal? identity.id).isSome)
    (hp : run.job.rows.checkProvisional identity = .ok ())
    (h : (propagate m identity inserted).runWith server run = (r, run')) :
    (run'.job = run.job ∧ ∃ e last, r = .error e ∧ run'.session.sent = run.session.sent ++ last ∧
      (last = [] ∨ ∃ q, last = [q])) ∨
    ∃ read answer mapped pairs rows,
      run.session.requestOf true (m.readCommand identity) = .ok read ∧
      server.rows run.session.sent read = .ok answer ∧
      m.readPairs identity answer = .ok mapped ∧
      run.job.rows.pairKeys identity.toField mapped = .ok pairs ∧
      run.job.rows.Keyed rows identity.toField (mapped.map Prod.snd) ∧
      (follow m identity inserted mapped pairs).runWith server
        ⟨run.session.noteSent read, { run.job with rows }⟩ = (r, run') := by
  rw [propagate_eq] at h
  rcases of_bind h with ⟨e, hm, rfl⟩ | ⟨mapped, run₁, hm, h⟩
  · obtain ⟨hj, ⟨hs, -⟩ | ⟨q, -, hs, -⟩⟩ := of_readMapping hm
    · exact .inl ⟨hj, e, [], rfl, by simp [hs], .inl rfl⟩
    · exact .inl ⟨hj, e, [q], rfl, by simp [hs], .inr ⟨q, rfl⟩⟩
  obtain ⟨hj, ⟨-, e, he⟩ | ⟨q, hq, hs, hm⟩⟩ := of_readMapping hm
  · cases he
  obtain ⟨answer, ha, hm⟩ := hm mapped rfl
  rw [runWith_bind, runWith_get] at h
  dsimp only at h
  rw [runWith_bind, runWith_lift, hj] at h
  cases hk : run.job.rows.pairKeys identity.toField mapped with
  | error e =>
    simp only [hk] at h
    obtain ⟨rfl, rfl⟩ := Prod.mk.inj h
    exact .inl ⟨hj, e, [q], rfl, by simp [hs], .inr ⟨q, rfl⟩⟩
  | ok pairs =>
    obtain ⟨rows, hw, hkeyed⟩ := DataSet.writeKeys_of_pairKeys hspec ho hp hk
    simp only [hk] at h
    rw [runWith_bind, runWith_writeKeys, hj, hw] at h
    dsimp only at h
    rw [hs] at h
    exact .inr ⟨q, answer, mapped, pairs, rows, hq, ha, hm, hk, hkeyed, h⟩

/-- The last step of a run drops the mapping table. -/
theorem of_dropping {a : Step BulkOutcome} {r : Result BulkOutcome}
    (h : ActionOn.runWith (do
      let outcome ← a
      inSession (dropTemp m.model)
      pure outcome) server run = (r, run')) :
    ∃ r₁ run₁, a.runWith server run = (r₁, run₁) ∧ run'.job = run₁.job ∧
      (∀ o, r = .ok o → r₁ = .ok o) ∧
      ∃ dropped : List Request, run'.session.sent = run₁.session.sent ++ dropped ∧
        (∀ q ∈ dropped, q.returnsRows = false ∧
          run₁.session.target.dropTableSql m.model true = .ok q.sql) ∧
        ∀ e, r₁ = .error e → dropped = [] ∧ r = .error e := by
  rcases of_bind h with ⟨e, ha, rfl⟩ | ⟨o, u, ha, h⟩
  · exact ⟨_, _, ha, rfl, by simp, [], by simp, by simp, fun e' h => ⟨rfl, h⟩⟩
  refine ⟨_, _, ha, ?_⟩
  rcases of_bind h with ⟨e, hd, rfl⟩ | ⟨x, v, hd, h⟩
  · obtain ⟨hd, hj⟩ := of_inSession hd
    rcases of_dropTemp hd with ⟨hs, -⟩ | ⟨q, hq, htext, hs⟩
    · exact ⟨hj, by simp, [], by simp [hs], by simp, by simp⟩
    · exact ⟨hj, by simp, [q], by simp [hs], by simpa using ⟨hq, htext⟩, by simp⟩
  · obtain ⟨rfl, rfl⟩ := Prod.mk.inj h
    obtain ⟨hd, hj⟩ := of_inSession hd
    rcases of_dropTemp hd with ⟨-, e, he⟩ | ⟨q, hq, htext, hs⟩
    · cases he
    · exact ⟨hj, by simp, [q], by simp [hs], by simpa using ⟨hq, htext⟩, by simp⟩

theorem Stopped.of_counted (counted : List Request) (hs : session'.sent = session.sent ++ counted)
    (hc : ∀ q ∈ counted, q.returnsRows = false) : Stopped job job session session' r :=
  ⟨rfl, counted, [], by rw [hs, List.append_nil], hc, .inl rfl⟩

theorem Stopped.silent (hs : session'.sent = session.sent) : Stopped job job session session' r :=
  .of_counted [] (by rw [hs, List.append_nil]) (by simp)

theorem Prepared.ordinal_isSome (p : Prepared job session) :
    (job.rows.model.ordinal? p.identity.id).isSome := Model.ordinal?_identityColumn p.identity_eq

theorem Prepared.spec_exists (p : Prepared job session) :
    ∃ spec, p.identity.identity = some spec := Model.spec_identityColumn p.identity_eq

theorem Prepared.of_run (p : Prepared job session)
    (h : ActionOn.runWith (do
      let inserted ← inSession
        (executeOnce (rowsetInsert job.rows.model p.rowset (some p.map.model)))
      let outcome ←
        if 0 < inserted then propagate p.map p.identity inserted
        else pure { completed := true, inserted }
      inSession (dropTemp p.map.model)
      pure outcome) server ⟨p.ready, job⟩ = (r, ⟨session', job'⟩)) :
    (Stopped job job' session session' r ∧ ∀ o, r = .ok o → o.inserted = 0) ∨
      ∃ k : KeysRead server job session, Nonempty (k.Rest r job' session') := by
  have hcreate : ∀ q ∈ [p.create], q.returnsRows = false := by simp [p.counted]
  rcases of_bind h with ⟨e, hi, rfl⟩ | ⟨inserted, ⟨s, j⟩, hi, h⟩
  · obtain ⟨hi, hj⟩ := of_inSession hi
    obtain rfl : job' = job := hj
    refine .inl ⟨?_, by simp⟩
    rcases of_executeOnce hi with ⟨hs, -⟩ | ⟨q, -, hs, -⟩
    · exact .of_counted [p.create] (by rw [show session' = p.ready from hs]; rfl) hcreate
    · exact ⟨rfl, [p.create], [q], by rw [show session' = p.ready.noteSent q from hs]; rfl, hcreate,
        .inr ⟨q, e, rfl, rfl⟩⟩
  obtain ⟨hi, hj⟩ := of_inSession hi
  obtain rfl : j = job := hj
  rcases of_executeOnce hi with ⟨-, e, he⟩ | ⟨insert, hinsert, hs, haff⟩
  · cases he
  obtain rfl : s = p.ready.noteSent insert := hs
  obtain ⟨-, -, -, -, hcounted, -⟩ := requestOf_ok hinsert
  have hboth : ∀ q ∈ [p.create, insert], q.returnsRows = false := by simp [p.counted, hcounted]
  have hsent : (p.ready.noteSent insert).sent = session.sent ++ [p.create, insert] := by
    simp [Prepared.ready, withTemp, binding]
  by_cases hpos : 0 < inserted
  · simp only [hpos, if_true] at h
    obtain ⟨r₁, run₁, ha, hjob, hok, dropped, hdrop, hdropped, hnone⟩ := of_dropping h
    dsimp only at hjob hdrop
    obtain ⟨spec, hspec⟩ := p.spec_exists
    rcases of_propagate hspec p.ordinal_isSome p.provisional ha with
      ⟨hj, e, last, rfl, hlog, hlast⟩ |
      ⟨read, answer, mapped, pairs, rows, hread, hans, hm, hk, hkeyed, hf⟩
    · obtain rfl : job' = j := hjob.trans hj
      refine .inl ⟨?_, fun o ho => by cases hok o ho⟩
      obtain ⟨rfl, rfl⟩ := hnone e rfl
      rw [hlog, List.append_nil] at hdrop
      exact ⟨rfl, _, last, by rw [hdrop]; exact congrArg (· ++ last) hsent, hboth,
        hlast.imp_right fun ⟨q, hq⟩ => ⟨q, e, hq, rfl⟩⟩
    · let k : KeysRead server j session :=
        { p with
          insert, inserted, read, answer, mapped, pairs
          insert_eq := hinsert
          inserted_eq := haff.symm
          inserted_pos := hpos
          read_eq := hread
          answer_eq := hans
          mapped_eq := hm
          pairs_eq := hk }
      obtain ⟨hrows, htarget, hout, realigned, remapped, hlog, hfollowed⟩ := of_follow hf
      rw [htarget] at hdropped
      exact .inr ⟨k, ⟨rows, run₁, r₁, realigned, remapped, dropped, hkeyed, hfollowed, hjob,
        by rw [hjob, hrows], by rw [hdrop, hlog]; rfl, hdropped, hok,
        fun o ho => hout o (hok o ho)⟩⟩
  · simp only [hpos, if_false] at h
    obtain ⟨r₁, run₁, ha, hjob, hok, dropped, hdrop, hdropped, -⟩ := of_dropping h
    obtain ⟨rfl, rfl⟩ := Prod.mk.inj ha
    obtain rfl : job' = j := hjob
    refine .inl ⟨.of_counted ([p.create, insert] ++ dropped) ?_ ?_, fun o ho => ?_⟩
    · rw [← List.append_assoc, ← hsent]
      exact hdrop
    · intro q hq
      exact (List.mem_append.1 hq).elim (hboth q) fun hq => (hdropped q hq).1
    · cases hok o ho
      exact Nat.eq_zero_of_not_pos hpos

theorem of_runWithMapping {identity : Column} {rowset : Rowset} {supply : Supply}
    (hi : job.rows.model.identityColumn? = some identity)
    (hb : Rowset.build session.supply job.rows session.types job.rows.model.insertableColumns =
      .ok (rowset, supply))
    (h : (runWithMapping identity rowset).runWith server ⟨binding session supply rowset, job⟩ =
      (r, ⟨session', job'⟩)) :
    (Stopped job job' session session' r ∧ ∀ o, r = .ok o → o.inserted = 0) ∨
      ∃ k : KeysRead server job session, Nonempty (k.Rest r job' session') := by
  rw [runWithMapping, runWith_bind, runWith_get] at h
  dsimp only at h
  rw [runWith_bind, runWith_lift] at h
  cases hp : job.rows.checkProvisional identity with
  | error e =>
    simp only [hp] at h
    obtain ⟨rfl, he⟩ := Prod.mk.inj h
    cases he
    exact .inl ⟨.silent rfl, by simp⟩
  | ok x =>
  simp only [hp] at h
  rw [runWith_bind, runWith_supplying] at h
  rcases hm : IdentityMap.make supply identity with e | ⟨map, supply'⟩
  · simp only [binding, hm] at h
    obtain ⟨rfl, he⟩ := Prod.mk.inj h
    cases he
    exact .inl ⟨.silent rfl, by simp⟩
  simp only [binding, hm] at h
  rcases of_bind h with ⟨e, hc, rfl⟩ | ⟨name, ⟨s, j⟩, hc, h⟩
  · obtain ⟨hc, hj⟩ := of_inSession hc
    obtain rfl : job' = job := hj
    refine .inl ⟨?_, by simp⟩
    rcases of_createTemp hc with ⟨-, -, hs | ⟨q, hq, hs⟩⟩ | ⟨-, q, -, he, -⟩
    · exact .silent hs
    · exact .of_counted [q] hs (by simpa using hq)
    · cases he
  · obtain ⟨hc, hj⟩ := of_inSession hc
    obtain rfl : j = job := hj
    rcases of_createTemp hc with ⟨e, he, -⟩ | ⟨hfresh, create, hcounted, -, hs⟩
    · cases he
    let p : Prepared j session :=
      { identity, rowset, map, create
        supplies := (supply, supply')
        identity_eq := hi
        rowset_eq := hb
        provisional := hp
        map_eq := hm
        fresh := hfresh
        counted := hcounted }
    obtain rfl : s = p.ready := hs
    exact p.of_run h

theorem runWith_sendRows :
    sendRows.runWith server run = match Rowset.build run.session.supply run.job.rows
        run.session.types run.job.rows.model.insertableColumns with
      | .ok (rowset, supply) =>
        (.ok rowset, { run with session := binding run.session supply rowset })
      | .error e => (.error e, run) := by
  rw [sendRows, runWith_bind, runWith_get]
  dsimp only
  rw [runWith_rowset]
  rfl

/-- An insert that brings no keys back sends at most one request. -/
theorem of_plainInsert {rowset : Rowset} {supply : Supply} {c : Command}
    (h : ActionOn.runWith (do
      let inserted ← inSession (executeOnce c)
      pure { completed := false, inserted }) server ⟨binding session supply rowset, job⟩ =
        (r, ⟨session', job'⟩)) : Stopped job job' session session' r := by
  obtain ⟨r', hi⟩ : ∃ r', (inSession (executeOnce c)).runWith server
      ⟨binding session supply rowset, job⟩ = (r', ⟨session', job'⟩) := by
    rcases of_bind h with ⟨e, hi, -⟩ | ⟨n, u, hi, hu⟩
    · exact ⟨_, hi⟩
    · cases hu
      exact ⟨_, hi⟩
  obtain ⟨hi, hj⟩ := of_inSession hi
  obtain rfl : job' = job := hj
  rcases of_executeOnce hi with ⟨hs, -⟩ | ⟨q, hq, hs, -⟩
  · exact .silent (by rw [show session' = _ from hs]; rfl)
  · obtain ⟨-, -, -, -, hcounted, -⟩ := requestOf_ok hq
    exact .of_counted [q] (by rw [show session' = _ from hs]; rfl) (by simpa using hcounted)

theorem steps_of_run (h : job.run server session = (r, job', session')) :
    steps.runWith server ⟨session, job⟩ = (r, ⟨session', job'⟩) := by
  rw [BulkInsert.run] at h
  rcases hs : steps.runWith server ⟨session, job⟩ with ⟨r₁, s₁, j₁⟩
  rw [hs] at h
  cases h
  rfl

/-- A run stops before its first key is written, or reads a key for every row. -/
theorem run_cases (h : job.run server session = (r, job', session')) :
    (Stopped job job' session session' r ∧ ∀ o, r = .ok o → 0 < o.inserted →
      job.rows.model.identityColumn? = none ∨ job.propagates = false) ∨
      ∃ k : KeysRead server job session, Nonempty (k.Rest r job' session') := by
  have hrun := steps_of_run h
  rw [steps, runWith_bind, runWith_get] at hrun
  dsimp only at hrun
  split_ifs at hrun with hempty
  · obtain ⟨rfl, he⟩ := Prod.mk.inj hrun
    cases he
    exact .inl ⟨.silent rfl, fun o ho hpos => by cases ho; cases hpos⟩
  rw [runWith_bind, runWith_sendRows] at hrun
  rcases hb : Rowset.build session.supply job.rows session.types job.rows.model.insertableColumns
    with e | ⟨rowset, supply⟩ <;> simp only [hb] at hrun
  · obtain ⟨rfl, he⟩ := Prod.mk.inj hrun
    cases he
    exact .inl ⟨.silent rfl, by simp⟩
  split at hrun
  next identity hi hp =>
    rcases of_runWithMapping hi hb hrun with ⟨hs, hz⟩ | hk
    · exact .inl ⟨hs, fun o ho hpos => absurd (hz o ho) hpos.ne'⟩
    · exact .inr hk
  next hne =>
    refine .inl ⟨of_plainInsert hrun, fun o _ _ => ?_⟩
    cases hi : job.rows.model.identityColumn? with
    | none => exact .inl rfl
    | some identity => exact .inr (Bool.eq_false_iff.2 (hne identity hi))

end BulkInsert

end Tsql
