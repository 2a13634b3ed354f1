import Tsql.Proofs.Session.Requests
import Tsql.Session.BulkInsert

/-!
# Foreign keys follow the new keys

The steps of a bulk insert as operations on its session and its data, and what the steps after the
keys are written come to: `Followed` lists the requests that they send.
-/

namespace Tsql

open ActionOn Session

namespace BulkInsert

variable {server : Server} {run run' : Run}

theorem runWith_inSession {α : Type} (a : Action α) :
    (inSession a).runWith server run =
      ((a.runWith server run.session).1,
        { run with session := (a.runWith server run.session).2 }) := by
  simp only [inSession, runWith_bind, runWith_get, runWith_read, runWith_set, runWith_lift]

theorem runWith_supplying {α : Type} (f : Session → Result (α × Supply)) :
    (supplying f).runWith server run = match f run.session with
      | .ok (a, supply) => (.ok a, { run with session := { run.session with supply } })
      | .error e => (.error e, run) := by
  simp only [supplying, runWith_bind, runWith_get, runWith_lift]
  rcases f run.session with e | ⟨a, supply⟩
  · rfl
  · simp only [runWith_set, runWith_pure]

theorem of_inSession {α : Type} {a : Action α} {r : Result α}
    (h : (inSession a).runWith server run = (r, run')) :
    a.runWith server run.session = (r, run'.session) ∧ run'.job = run.job := by
  rw [runWith_inSession] at h
  obtain ⟨rfl, rfl⟩ := Prod.mk.inj h
  exact ⟨rfl, rfl⟩

/-- The session in which the parameter of a rowset is bound to its text. -/
def binding (s : Session) (supply : Supply) (rowset : Rowset) : Session :=
  { s with supply, bindings := s.bindings.set rowset.param.id (.string rowset.text) }

theorem runWith_rowset {α : Type} (build : Session → Result (Rowset × Supply))
    (f : Rowset → Step α) :
    ActionOn.runWith (do
      let rowset ← supplying build
      bindRowset rowset
      f rowset) server run = match build run.session with
        | .ok (rowset, supply) =>
          (f rowset).runWith server { run with session := binding run.session supply rowset }
        | .error e => (.error e, run) := by
  rw [runWith_bind, runWith_supplying]
  rcases build run.session with e | ⟨rowset, supply⟩
  · rfl
  · simp only [bindRowset, runWith_bind, runWith_inSession, setParam, runWith_modify]
    rfl

variable {m : IdentityMap} {identity : Column} {mapped pairs : List KeyPair}

/-- The requests that correct the mapping table, and the session after them. -/
inductive Realigned (m : IdentityMap) (identity : Column) (mapped pairs : List KeyPair)
    (s : Session) : List Request → Session → Prop where
  | aligned (h : pairs.map Prod.fst = mapped.map Prod.fst) :
      Realigned m identity mapped pairs s [] s
  | corrected {rowset : Rowset} {supply : Supply} {q : Request}
      (h : pairs.map Prod.fst ≠ mapped.map Prod.fst)
      (rowset_eq : m.pairRowset identity s.types s.supply pairs = .ok (rowset, supply))
      (request_eq : (binding s supply rowset).requestOf false (m.realignCommand rowset) = .ok q) :
      Realigned m identity mapped pairs s [q] ((binding s supply rowset).noteSent q)

theorem Realigned.target_eq {s t : Session} {log : List Request}
    (h : Realigned m identity mapped pairs s log t) : t.target = s.target := by
  cases h with
  | aligned => rfl
  | corrected => rfl

theorem Realigned.sent_eq {s t : Session} {log : List Request}
    (h : Realigned m identity mapped pairs s log t) : t.sent = s.sent ++ log := by
  cases h with
  | aligned => simp
  | corrected => rfl

theorem Realigned.exists_request {s t : Session} {log : List Request}
    (h : Realigned m identity mapped pairs s log t)
    (hne : pairs.map Prod.fst ≠ mapped.map Prod.fst) :
    ∃ s' rowset q, requestOf s' false (m.realignCommand rowset) = .ok q ∧ log = [q] := by
  cases h with
  | aligned heq => exact absurd heq hne
  | corrected _ _ hrequest => exact ⟨_, _, _, hrequest, rfl⟩

theorem of_correct {rowset : Rowset} {supply : Supply} {r : Result Nat}
    (hne : pairs.map Prod.fst ≠ mapped.map Prod.fst)
    (hb : m.pairRowset identity run.session.types run.session.supply pairs = .ok (rowset, supply))
    (h : (inSession (executeOnce (m.realignCommand rowset))).runWith server
      { run with session := binding run.session supply rowset } = (r, run')) :
    run'.job = run.job ∧ run'.session.target = run.session.target ∧
      ((run'.session.sent = run.session.sent ∧ ∃ e, r = .error e) ∨
        ∃ log, Realigned m identity mapped pairs run.session log run'.session) := by
  obtain ⟨h, hj⟩ := of_inSession h
  refine ⟨hj, ?_⟩
  rcases of_executeOnce h with ⟨hs, he⟩ | ⟨q, hq, hs, -⟩
  · rw [hs]
    exact ⟨rfl, .inl ⟨rfl, he⟩⟩
  · rw [hs]
    exact ⟨rfl, .inr ⟨[q], .corrected hne hb hq⟩⟩

theorem of_realign {r : Result Unit}
    (h : (realign m identity mapped pairs).runWith server run = (r, run')) :
    run'.job = run.job ∧ run'.session.target = run.session.target ∧
      ((run'.session.sent = run.session.sent ∧ ∃ e, r = .error e) ∨
        ∃ log, Realigned m identity mapped pairs run.session log run'.session) := by
  unfold realign at h
  split_ifs at h with hne
  · rw [runWith_rowset] at h
    rcases hb : m.pairRowset identity run.session.types run.session.supply pairs
      with e | ⟨rowset, supply⟩ <;> simp only [hb] at h
    · obtain ⟨rfl, rfl⟩ := Prod.mk.inj h
      exact ⟨rfl, rfl, .inl ⟨rfl, e, rfl⟩⟩
    · rcases of_bind h with ⟨e, hx, rfl⟩ | ⟨n, u, hx, hu⟩
      · obtain ⟨hj, ht, ⟨hs, -⟩ | hr⟩ := of_correct hne hb hx
        · exact ⟨hj, ht, .inl ⟨hs, e, rfl⟩⟩
        · exact ⟨hj, ht, .inr hr⟩
      · obtain ⟨rfl, rfl⟩ := Prod.mk.inj hu
        obtain ⟨hj, ht, ⟨-, e, he⟩ | hr⟩ := of_correct hne hb hx
        · cases he
        · exact ⟨hj, ht, .inr hr⟩
  · obtain ⟨rfl, rfl⟩ := Prod.mk.inj h
    exact ⟨rfl, rfl, .inr ⟨[], .aligned (not_not.1 hne)⟩⟩

/-- The requests that move the foreign keys of some temporary tables: those of the first few. -/
theorem of_remapTempTables {items : List (Model × Field)} {r : Result Nat}
    (h : (remapTempTables m items).runWith server run = (r, run')) :
    run'.job = run.job ∧ run'.session.target = run.session.target ∧
      ∃ log, run'.session.sent = run.session.sent ++ log ∧ List.Forall₂ (fun item q =>
        run.session.requestOf false (m.remapCommand item.1 item.2) = .ok q)
        (items.take log.length) log := by
  induction items generalizing run r with
  | nil =>
    obtain ⟨rfl, rfl⟩ := Prod.mk.inj h
    exact ⟨rfl, rfl, [], by simp, .nil⟩
  | cons item rest ih =>
    obtain ⟨child, f⟩ := item
    rw [remapTempTables] at h
    rcases of_bind h with ⟨e, ha, rfl⟩ | ⟨n, u, ha, h⟩
    · obtain ⟨ha, hj⟩ := of_inSession ha
      rcases of_executeOnce ha with ⟨hs, -⟩ | ⟨q, hq, hs, -⟩
      · exact ⟨hj, by rw [hs], [], by simp [hs], .nil⟩
      · exact ⟨hj, by rw [hs]; rfl, [q], by simp [hs], .cons hq .nil⟩
    · obtain ⟨ha, hj⟩ := of_inSession ha
      rcases of_executeOnce ha with ⟨-, e, he⟩ | ⟨q, hq, hs, -⟩
      · cases he
      obtain ⟨r', hrest⟩ : ∃ r', (remapTempTables m rest).runWith server u = (r', run') := by
        rcases of_bind h with ⟨e, hx, -⟩ | ⟨k, v, hx, hv⟩
        · exact ⟨_, hx⟩
        · obtain ⟨-, rfl⟩ := Prod.mk.inj hv
          exact ⟨_, hx⟩
      obtain ⟨hj', ht, log, hlog, hall⟩ := ih hrest
      rw [hs] at ht hlog hall
      exact ⟨hj'.trans hj, ht, q :: log, by simp [hlog], .cons hq hall⟩

/-- What comes after the keys are written: the foreign keys follow them. -/
def follow (m : IdentityMap) (identity : Column) (inserted : Nat) (mapped pairs : List KeyPair) :
    Step BulkOutcome := do
  realign m identity mapped pairs
  let childrenRemapped ← remapChildren identity.toField (Remapping.ofPairs pairs)
  let run ← get
  let tempRowsRemapped ←
    remapTempTables m (run.session.tempChildren run.job.rows.model.id identity.name)
  pure { completed := true, inserted, propagated := (Remapping.ofPairs pairs).size, childrenRemapped
         tempRowsRemapped }

theorem propagate_eq (m : IdentityMap) (identity : Column) (inserted : Nat) :
    propagate m identity inserted = (do
      let mapped ← readMapping m identity
      let pairs ← (← get).job.rows.pairKeys identity.toField mapped
      writeKeys identity.toField pairs
      follow m identity inserted mapped pairs) := rfl

/-- The requests by which foreign keys follow the new keys, and the result: those that correct the
mapping table, then those that update temporary tables. The latter are only sent when the mapping
table is right and the children in memory are done. -/
inductive Followed (m : IdentityMap) (identity : Column) (mapped pairs : List KeyPair)
    (before after : Run) : Result BulkOutcome → List Request → List Request → Prop where
  | stopped {e : Error} : Followed m identity mapped pairs before after (.error e) [] []
  | realigned {e : Error} {log : List Request} {s : Session}
      (h : Realigned m identity mapped pairs before.session log s) :
      Followed m identity mapped pairs before after (.error e) log []
  | remapped {r : Result BulkOutcome} {log tables : List Request} {s : Session} {n : Nat}
      (h : Realigned m identity mapped pairs before.session log s)
      (children : remapAll (Remapping.ofPairs pairs) before.job.rows.model.id identity.name
        before.job.children = (.ok n, after.job.children))
      (tables_eq : List.Forall₂
        (fun item q => s.requestOf false (m.remapCommand item.1 item.2) = .ok q)
        ((s.tempChildren before.job.rows.model.id identity.name).take tables.length) tables)
      (counted : ∀ o, r = .ok o → o.childrenRemapped = n) :
      Followed m identity mapped pairs before after r log tables

theorem of_remapChildren {f : Field} {remapping : Remapping} {r : Result Nat}
    (h : (remapChildren f remapping).runWith server run = (r, run')) :
    run'.session = run.session ∧ run'.job.rows = run.job.rows ∧
      remapAll remapping run.job.rows.model.id f.name run.job.children =
        (r, run'.job.children) := by
  simp only [remapChildren, runWith_bind, runWith_get, runWith_set, runWith_lift] at h
  obtain ⟨rfl, rfl⟩ := Prod.mk.inj h
  exact ⟨rfl, rfl, rfl⟩

theorem of_follow {inserted : Nat} {r : Result BulkOutcome}
    (h : (follow m identity inserted mapped pairs).runWith server run = (r, run')) :
    run'.job.rows = run.job.rows ∧ run'.session.target = run.session.target ∧
      (∀ o, r = .ok o → o.inserted = inserted ∧ o.propagated = (Remapping.ofPairs pairs).size) ∧
      ∃ realigned remapped, run'.session.sent = run.session.sent ++ realigned ++ remapped ∧
        Followed m identity mapped pairs run run' r realigned remapped := by
  unfold follow at h
  rcases of_bind h with ⟨e, hr, rfl⟩ | ⟨x, run₁, hr, h⟩
  · obtain ⟨hj, ht, ⟨hs, -⟩ | ⟨log, hlog⟩⟩ := of_realign hr
    · exact ⟨by rw [hj], ht, by simp, [], [], by simp [hs], .stopped⟩
    · exact ⟨by rw [hj], ht, by simp, log, [], by simp [hlog.sent_eq], .realigned hlog⟩
  obtain ⟨hj, -, ⟨-, e, he⟩ | ⟨log, hlog⟩⟩ := of_realign hr
  · cases he
  rcases of_bind h with ⟨e, hc, rfl⟩ | ⟨n, run₂, hc, h⟩
  · obtain ⟨hs, hrows, -⟩ := of_remapChildren hc
    exact ⟨by rw [hrows, hj], by rw [hs, hlog.target_eq], by simp, log, [],
      by simp [hs, hlog.sent_eq], .realigned hlog⟩
  obtain ⟨hs, hrows, hall⟩ := of_remapChildren hc
  rw [runWith_bind, runWith_get] at h
  dsimp only at h
  rw [hj] at hrows hall
  obtain ⟨ho, hcounted, r', ht⟩ : (∀ o, r = .ok o → o.inserted = inserted ∧
      o.propagated = (Remapping.ofPairs pairs).size) ∧
      (∀ o, r = .ok o → o.childrenRemapped = n) ∧ ∃ r', (remapTempTables m
        (run₂.session.tempChildren run₂.job.rows.model.id identity.name)).runWith server run₂ =
          (r', run') := by
    rcases of_bind h with ⟨e, ht, rfl⟩ | ⟨k, run₃, ht, h⟩
    · exact ⟨by simp, by simp, _, ht⟩
    · obtain ⟨rfl, rfl⟩ := Prod.mk.inj h
      exact ⟨by rintro o ⟨⟩; exact ⟨rfl, rfl⟩, by rintro o ⟨⟩; rfl, _, ht⟩
  obtain ⟨hj', htarget, tables, hsent, htables⟩ := of_remapTempTables ht
  rw [hs] at hsent htables htarget
  rw [hrows] at htables
  rw [← hj'] at hall
  exact ⟨by rw [hj', hrows], htarget.trans hlog.target_eq, ho, log, tables,
    by rw [hsent, hlog.sent_eq], .remapped hlog hall htables hcounted⟩

end BulkInsert

end Tsql
