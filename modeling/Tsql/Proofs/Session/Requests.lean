import Tsql.Proofs.Result
import Tsql.Proofs.Session.Action
import Tsql.Session.Execution

/-!
# The requests of single operations

An operation that renders a command for one time sends one request or none. `Session.requestOf` is
the request that carries a command; the lemmas say how the session goes on and what answer it takes.
-/

namespace Tsql.Session

open ActionOn

variable {server : Server} {s t : Session}

/-- The request that carries a command, with the values that its parameters have. -/
def requestOf (s : Session) (returnsRows : Bool) (c : Command) : Result Request := do
  let text ← s.target.generate c
  let params ← text.bind s.bindings
  .ok (s.request returnsRows text.sql params)

theorem requestOf_ok {returnsRows : Bool} {c : Command} {q : Request}
    (h : s.requestOf returnsRows c = .ok q) :
    ∃ text, s.target.generate c = .ok text ∧ text.bind s.bindings = .ok q.params ∧
      q.sql = text.sql ∧ q.returnsRows = returnsRows ∧ q.timeout = s.timeout := by
  obtain ⟨text, ht, h⟩ := Result.bind_eq_ok h
  obtain ⟨params, hp, h⟩ := Result.bind_eq_ok h
  obtain rfl := Except.ok.inj h
  exact ⟨text, ht, hp, rfl, rfl, rfl⟩

/-- What comes of a request that is sent unless it could not be made or the caller has cancelled. -/
def attempt {α : Type} (server : Server) (s : Session) (answer : Request → Result α) :
    Result Request → Result α × Session
  | .error e => (.error e, s)
  | .ok q => if server.cancelled s.sent then (.error .cancelled, s) else (answer q, s.noteSent q)

theorem of_attempt {α : Type} {answer : Request → Result α} {made : Result Request} {r : Result α}
    (h : attempt server s answer made = (r, t)) :
    (t = s ∧ ∃ e, r = .error e) ∨
      ∃ q, made = .ok q ∧ server.cancelled s.sent = false ∧ t = s.noteSent q ∧ r = answer q := by
  cases made with
  | error e =>
    obtain ⟨rfl, rfl⟩ := Prod.mk.inj h
    exact .inl ⟨rfl, e, rfl⟩
  | ok q =>
    simp only [attempt] at h
    split at h <;> obtain ⟨rfl, rfl⟩ := Prod.mk.inj h
    · exact .inl ⟨rfl, _, rfl⟩
    · next hc => exact .inr ⟨q, rfl, Bool.not_eq_true _ ▸ hc, rfl, rfl⟩

theorem runWith_executeOnce (c : Command) :
    (executeOnce c).runWith server s =
      attempt server s (server.affected s.sent) (s.requestOf false c) := by
  simp only [executeOnce, executeText, runWith_bind, runWith_get, runWith_lift,
    runWith_sendCounted, requestOf]
  cases s.target.generate c with
  | error e => rfl
  | ok text => cases h : text.bind s.bindings <;> simp [attempt, bind, Except.bind, h]

theorem runWith_queryOnce (c : Command) :
    (queryOnce c).runWith server s =
      attempt server s (server.rows s.sent) (s.requestOf true c) := by
  simp only [queryOnce, queryText, runWith_bind, runWith_get, runWith_lift,
    runWith_sendReading, requestOf]
  cases s.target.generate c with
  | error e => rfl
  | ok text => cases h : text.bind s.bindings <;> simp [attempt, bind, Except.bind, h]

/-- A command executed once: nothing was sent, or its request was answered with a number. -/
theorem of_executeOnce {c : Command} {r : Result Nat}
    (h : (executeOnce c).runWith server s = (r, t)) :
    (t = s ∧ ∃ e, r = .error e) ∨
      ∃ q, s.requestOf false c = .ok q ∧ t = s.noteSent q ∧ r = server.affected s.sent q := by
  rw [runWith_executeOnce] at h
  exact (of_attempt h).imp_right fun ⟨q, hq, _, hsent⟩ => ⟨q, hq, hsent⟩

/-- A query executed once: nothing was sent, or its request was answered with rows. -/
theorem of_queryOnce {c : Command} {r : Result (List ResultRow)}
    (h : (queryOnce c).runWith server s = (r, t)) :
    (t = s ∧ ∃ e, r = .error e) ∨
      ∃ q, s.requestOf true c = .ok q ∧ t = s.noteSent q ∧ r = server.rows s.sent q := by
  rw [runWith_queryOnce] at h
  exact (of_attempt h).imp_right fun ⟨q, hq, _, hsent⟩ => ⟨q, hq, hsent⟩

/-- The session in which a temporary table was created by a request. -/
def withTemp (s : Session) (m : Model) (q : Request) : Session :=
  { s with
    temps := (s.temps.realize m).2
    liveTemps := (m.id, m) :: s.liveTemps
    sent := s.sent ++ [q] }

theorem get?_withTemp (s : Session) (m : Model) (q : Request) :
    (s.withTemp m q).temps.get? m.id = some (s.temps.realize m).1 := by
  show (s.temps.realize m).2.get? m.id = _
  unfold TempTables.realize
  split
  · assumption
  · simp [TempTables.get?]

theorem runWith_sendText (made : Result String) :
    ActionOn.runWith (do let sql ← made; let _ ← sendCounted sql []) server s =
      attempt server s (fun q => (server.affected s.sent q).map fun _ => ())
        (made.map fun sql => s.request false sql []) := by
  simp only [runWith_bind, runWith_lift, runWith_sendCounted]
  cases made with
  | error e => rfl
  | ok sql =>
    by_cases hc : server.cancelled s.sent = true
    · simp [attempt, Except.map, hc]
    · cases h : server.affected s.sent (s.request false sql []) <;> simp [attempt, Except.map, hc, h]

/-- The session with a name for a temporary table that is still to be created. -/
def naming (s : Session) (m : Model) : Session := { s with temps := (s.temps.realize m).2 }

theorem ensureCreatable_ok {m : Model} (h : ensureCreatable s m = .ok ()) :
    s.temps.get? m.id = none := by
  unfold ensureCreatable at h
  split at h
  · split at h
    · cases h
    · assumption
  · cases h

/-- Sends the text that creates a temporary table once it has a name. -/
def sendCreate (server : Server) (u : Session) (m : Model) : Result Unit × Session :=
  attempt server u (fun q => (server.affected u.sent q).map fun _ => ())
    ((u.target.createTableSql u.bindings m true).map fun sql => u.request false sql [])

theorem runWith_createTemp (m : Model) :
    (createTemp m).runWith server s = match ensureCreatable s m with
      | .error e => (.error e, s)
      | .ok _ => match sendCreate server (s.naming m) m with
        | (.error e, u) => (.error e, forgetTemp m.id u)
        | (.ok _, u) =>
          (.ok (s.temps.realize m).1, { u with liveTemps := (m.id, m) :: u.liveTemps }) := by
  rw [createTemp, runWith_bind, runWith_get]
  dsimp only
  rw [runWith_bind, runWith_lift]
  cases ensureCreatable s m with
  | error e => rfl
  | ok _ =>
    dsimp only
    rw [runWith_bind, runWith_get]
    dsimp only
    rw [runWith_bind, runWith_modify]
    dsimp only
    rw [show ({ s with temps := (s.temps.realize m).2 } : Session) = s.naming m from rfl,
      runWith_bind, runWith_undoingOnError, runWith_bind, runWith_get]
    dsimp only
    rw [runWith_sendText, ← sendCreate]
    rcases sendCreate server (s.naming m) m with ⟨e | x, u⟩
    · rfl
    · rfl

/-- A temporary table: at most one request was sent, and it stands where there was no error. -/
theorem of_createTemp {m : Model} {r : Result String} (h : (createTemp m).runWith server s = (r, t)) :
    (∃ e, r = .error e ∧ (t.sent = s.sent ∨
      ∃ q : Request, q.returnsRows = false ∧ t.sent = s.sent ++ [q])) ∨
    (s.temps.get? m.id = none ∧ ∃ q : Request, q.returnsRows = false ∧
      r = .ok (s.temps.realize m).1 ∧ t = s.withTemp m q) := by
  rw [runWith_createTemp] at h
  cases hc : ensureCreatable s m with
  | error e =>
    simp only [hc] at h
    obtain ⟨rfl, rfl⟩ := Prod.mk.inj h
    exact .inl ⟨e, rfl, .inl rfl⟩
  | ok _ =>
    simp only [hc] at h
    rcases ha : sendCreate server (s.naming m) m with ⟨e | x, u⟩ <;> simp only [ha] at h <;>
      obtain ⟨rfl, rfl⟩ := Prod.mk.inj h <;> rcases of_attempt ha with ⟨rfl, he⟩ | ⟨q, hq, -, rfl, -⟩
    · exact .inl ⟨e, rfl, .inl rfl⟩
    · obtain ⟨sql, -, rfl⟩ := Result.map_eq_ok hq
      exact .inl ⟨e, rfl, .inr ⟨_, rfl, rfl⟩⟩
    · obtain ⟨e, he⟩ := he
      cases he
    · obtain ⟨sql, -, rfl⟩ := Result.map_eq_ok hq
      exact .inr ⟨ensureCreatable_ok hc, _, rfl, rfl, rfl⟩

/-- Dropping a temporary table sends at most one request. -/
theorem of_dropTemp {m : Model} {r : Result Unit} (h : (dropTemp m).runWith server s = (r, t)) :
    (t.sent = s.sent ∧ ∃ e, r = .error e) ∨
      ∃ q : Request, q.returnsRows = false ∧ s.target.dropTableSql m true = .ok q.sql ∧
        t.sent = s.sent ++ [q] := by
  rw [dropTemp, runWith_bind, runWith_get] at h
  dsimp only at h
  rw [runWith_bind, runWith_lift] at h
  cases hd : s.target.dropTableSql m true with
  | error e =>
    simp only [hd] at h
    obtain ⟨rfl, rfl⟩ := Prod.mk.inj h
    exact .inl ⟨rfl, e, rfl⟩
  | ok sql =>
    simp only [hd] at h
    rw [runWith_bind, runWith_sendCounted] at h
    by_cases hc : server.cancelled s.sent = true
    · simp only [hc, if_true] at h
      obtain ⟨rfl, rfl⟩ := Prod.mk.inj h
      exact .inl ⟨rfl, _, rfl⟩
    · refine .inr ⟨s.request false sql [], rfl, rfl, ?_⟩
      cases ha : server.affected s.sent (s.request false sql []) <;>
        simp only [hc, ha, Bool.false_eq_true, if_false] at h <;>
        obtain ⟨-, rfl⟩ := Prod.mk.inj h <;> rfl

end Tsql.Session
