import Tsql.Proofs.Session.Cache
import Tsql.Proofs.Session.Stages
import Tsql.Proofs.Session.Transactions

/-!
# Calls that fail

`Session.SameStanding` is what a call that failed leaves alone: the open levels, the names of temporary
tables and the tables that exist. A call that executes changes none of them in any case; the others change
them first and undo that on every way out by an error. A caller who had cancelled before a call has nothing
sent: `Session.call_undone` says both, of any session.
-/

namespace Tsql

open ActionOn

/-- The calls that undo what they did where they fail: all but those that end a transaction as a whole, go
on after a failure, or cannot fail. -/
def Call.isUndone : Call → Bool
  | createTemp _ | dropTemp _ | beginTransaction _ | commit _ | rollback _ => true
  | c => c.executes

/-- The levels of the transaction, the names of temporary tables and the tables that exist are the same. -/
structure Session.SameStanding (s t : Session) : Prop where
  levels_eq : t.transactions.levels = s.transactions.levels
  names_eq : t.temps.names = s.temps.names
  liveTemps_eq : t.liveTemps = s.liveTemps

theorem TransactionStack.levels_of_begin {t t' : TransactionStack} {isolation : Option Isolation} {e : Error}
    (h : t.begin isolation = (.error e, t')) : t'.levels = t.levels := by
  by_cases hl : t.levels = []
  · rw [begin_root hl] at h
    cases h
  · cases isolation with
    | none =>
      rw [begin_nested hl] at h
      cases h
    | some level =>
      obtain ⟨e', he⟩ := begin_isolated hl level
      rw [he] at h
      cases h
      rfl

namespace Session

variable {commands : StatementId → Command} {server : Server} {s t : Session} {e : Error}

namespace SameStanding

theorem refl (s : Session) : s.SameStanding s := ⟨rfl, rfl, rfl⟩

/-- Commands and permanent tables are of no account. -/
theorem executionInvariant (s : Session) :
    ExecutionInvariant commands server s.SameStanding where
  noteSent _ _ _ h := ⟨h.levels_eq, h.names_eq, h.liveTemps_eq⟩
  cached _ _ _ _ h := ⟨h.levels_eq, h.names_eq, h.liveTemps_eq⟩

theorem createTemp {m : Model} (h : (createTemp m).runWith server s = (.error e, t)) :
    s.SameStanding t := by
  rw [runWith_createTemp] at h
  cases hc : ensureCreatable s m with
  | error e =>
    rw [hc] at h
    cases h
    exact .refl s
  | ok _ =>
    have hforgotten : ((s.temps.realize m).2.forget m.id).names = s.temps.names := by
      rw [TempTables.forget_realize_of_new (ensureCreatable_ok hc)]
    rw [hc] at h
    dsimp only at h
    rcases ha : sendCreate server (s.naming m) m with ⟨e' | x, u⟩ <;> rw [ha] at h <;> cases h
    rcases of_attempt ha with ⟨rfl, -⟩ | ⟨q, -, -, rfl, -⟩ <;>
      exact ⟨rfl, hforgotten, rfl⟩

theorem dropTemp {m : Model} (h : (dropTemp m).runWith server s = (.error e, t)) :
    s.SameStanding t := by
  rw [runWith_dropTemp] at h
  rcases ha : attempt server s (fun q => (server.affected s.sent q).map fun _ => ())
    ((s.target.dropTableSql m true).map fun sql => s.request false sql []) with ⟨e' | x, u⟩ <;>
    rw [ha] at h <;> cases h
  rcases of_attempt ha with ⟨rfl, -⟩ | ⟨q, -, -, rfl, -⟩ <;> exact ⟨rfl, rfl, rfl⟩

/-- Commands that were sent in vain are of no account once the stack is what it was before. -/
theorem of_sendAll {sent : List TransactionCommand} {stack : TransactionStack} {r : Result Unit}
    (h : (sendAll sent).runWith server { s with transactions := stack } = (r, t)) :
    s.SameStanding { t with transactions := s.transactions } := by
  have hkeeps : (sendAll sent).Keeps server
      fun u => s.SameStanding { u with transactions := s.transactions } :=
    keeps_sendAll (fun _ _ _ hu => ⟨rfl, hu.names_eq, hu.liveTemps_eq⟩) sent
  have hkept := hkeeps { s with transactions := stack } (.refl s)
  rw [h] at hkept
  exact hkept

theorem beginTransaction {isolation : Option Isolation}
    (h : (beginTransaction isolation).runWith server s = (.error e, t)) : s.SameStanding t := by
  rw [runWith_beginTransaction] at h
  rcases hb : s.transactions.begin isolation with ⟨e' | ⟨handle, sent⟩, stack⟩ <;> rw [hb] at h
  · cases h
    exact ⟨TransactionStack.levels_of_begin hb, rfl, rfl⟩
  · dsimp only at h
    rcases hsend : (sendAll sent).runWith server { s with transactions := stack } with ⟨e' | x, u⟩ <;>
      rw [hsend] at h <;> cases h
    exact of_sendAll hsend

theorem closeLevel {closed : TransactionStack} {sent : List TransactionCommand}
    (h : (closeLevel closed sent).runWith server s = (.error e, t)) : s.SameStanding t := by
  rw [runWith_closeLevel] at h
  rcases hsend : (sendAll sent).runWith server { s with transactions := closed } with ⟨e' | x, u⟩ <;>
    rw [hsend] at h <;> cases h
  exact of_sendAll hsend

theorem commit {handle : TransactionHandle}
    (h : (Session.commit handle).runWith server s = (.error e, t)) : s.SameStanding t := by
  rw [runWith_commit] at h
  rcases hc : s.transactions.commit handle with e' | ⟨command, closed⟩ <;> rw [hc] at h
  · cases h
    exact .refl s
  · exact closeLevel h

theorem rollback {handle : TransactionHandle}
    (h : (Session.rollback handle).runWith server s = (.error e, t)) : s.SameStanding t := by
  rw [runWith_rollback] at h
  rcases hc : s.transactions.rollback handle with e' | ⟨command, closed⟩ <;> rw [hc] at h
  · cases h
    exact .refl s
  · exact closeLevel h

/-- An operation whose value is not asked for fails where it fails itself. -/
theorem of_ignored {α : Type} {a : Action α}
    (ha : ∀ e, a.runWith server s = (.error e, t) → s.SameStanding t)
    (h : ActionOn.runWith (do let _ ← a) server s = (.error e, t)) : s.SameStanding t := by
  rcases of_bind h with ⟨e', hrun, -⟩ | ⟨x, u, -, hdone⟩
  · exact ha e' hrun
  · cases hdone

theorem of_executes {c : Call} (hc : c.executes = true) {r : Result Unit}
    (h : (c.action commands).runWith server s = (r, t)) : s.SameStanding t := by
  have hinvariant : ExecutionInvariant commands server s.SameStanding := executionInvariant s
  have hkept := hinvariant.action c hc s (.refl s)
  rw [h] at hkept
  exact hkept

theorem of_call {c : Call} (hc : c.isUndone = true)
    (h : (c.action commands).runWith server s = (.error e, t)) : s.SameStanding t := by
  cases c with
  | createTemp m => exact of_ignored (fun _ => createTemp) h
  | dropTemp m => exact dropTemp h
  | beginTransaction isolation => exact of_ignored (fun _ => beginTransaction) h
  | commit handle => exact commit h
  | rollback handle => exact rollback h
  | _ =>
    refine of_executes ?_ h
    exact hc

end SameStanding

/-- Nothing is sent while the caller has cancelled. -/
theorem silent_invariant {log : List Request} (hcancelled : server.cancelled log = true) :
    CallInvariant commands server fun s => s.sent = log where
  noteSent s _ hc h := by
    rw [h, hcancelled] at hc
    cases hc
  created s _ _ hc _ h := by
    rw [h, hcancelled] at hc
    cases hc
  cached _ _ _ _ h := h
  bind _ _ h := h
  supply _ _ h := h
  invalidated _ _ h := h
  notCreated _ _ _ h := h
  dropped _ _ h := h
  transactions _ _ h := h

/-- In any session, whatever the server answers and the caller does: a call that fails leaves the open
levels, the names of temporary tables and the tables that exist as they were. No call of the session sends
anything for a caller who had cancelled before it. -/
theorem call_undone (commands : StatementId → Command) (server : Server) (c : Call) (s : Session) :
    (c.isUndone = true → ∀ e t, (c.action commands).runWith server s = (.error e, t) →
        s.SameStanding t) ∧
      (c.isDirect = false → server.cancelled s.sent = true →
        ((c.action commands).runWith server s).2.sent = s.sent) := by
  refine ⟨fun hc e t => SameStanding.of_call hc, fun hc hcancelled => ?_⟩
  exact (silent_invariant hcancelled).action c (fun hd => by rw [hc] at hd; cases hd) s rfl

/-- A session with a temporary table and an open transaction. -/
def staged : Session :=
  afterCalls (fun _ => .query (.table staging)) {}
    [(.createTemp staging, constantServer true), (.beginTransaction none, constantServer true)]

/-- A second table is refused when it was given its name already, and a caller who has cancelled gives up
the transaction without a word to the server. -/
theorem call_undone_staged :
    (∃ t, ((Call.createTemp (staging.cloneAs ⟨2⟩ "Other")).action fun _ =>
        .query (.table staging)).runWith (constantServer false) staged =
          (.error (.database "refused"), t) ∧ t.sent.length = 3 ∧
        staged.temps.names = [(⟨1⟩, "#Staging")] ∧ staged.SameStanding t) ∧
      (((Call.abort).action fun _ => .query (.table staging)).runWith
        { constantServer true with cancelled := fun _ => true } staged).2.sent = staged.sent := by
  rcases h : ((Call.createTemp (staging.cloneAs ⟨2⟩ "Other")).action fun _ =>
    .query (.table staging)).runWith (constantServer false) staged with ⟨r, t⟩
  have hresult : (((Call.createTemp (staging.cloneAs ⟨2⟩ "Other")).action fun _ =>
      .query (.table staging)).runWith (constantServer false) staged).1 =
        .error (.database "refused") := by decide +kernel
  have hsent : (((Call.createTemp (staging.cloneAs ⟨2⟩ "Other")).action fun _ =>
      .query (.table staging)).runWith (constantServer false) staged).2.sent.length = 3 := by
    decide +kernel
  rw [h] at hresult hsent
  obtain rfl : r = _ := hresult
  exact ⟨⟨t, rfl, hsent, by decide +kernel, (call_undone _ _ _ _).1 rfl _ _ h⟩,
    (call_undone _ _ .abort _).2 rfl rfl⟩

end Session

end Tsql
