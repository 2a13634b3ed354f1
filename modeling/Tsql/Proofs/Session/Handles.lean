import Tsql.Proofs.Session.Cache
import Tsql.Proofs.Session.Transactions

/-!
# Handles of transactions

`TransactionStack.History` is the use of a stack by itself, `Session.History` that of a session whose
statements may fail; both keep the handles that were returned and those that were resolved. Handles are
told apart by their identities alone, and a stack that is restored gives out its last identity again. What
carries the inductions is `TransactionStack.Traced`: an identity that was returned is never given to another
handle, and what was resolved is not open. By `Session.handles_frozen` a stack accepts the innermost open
handle and refuses all others that were returned.
-/

namespace Tsql

open ActionOn

namespace TransactionStack

variable {t u : TransactionStack} {issued resolved : List TransactionHandle} {h : TransactionHandle}

/-- A handle is the innermost level, and can be committed or rolled back. -/
structure Accepts (t : TransactionStack) (h : TransactionHandle) : Prop where
  ensured : t.ensureCurrent h = .ok ()
  committed : t.commit h = .ok (if h.isRoot then some .commit else none, t.pop)
  rolledBack : t.rollback h = .ok (.rollback h.savepoint, t.pop)

/-- A handle is not the innermost level, and can be neither committed nor rolled back. -/
def Refuses (t : TransactionStack) (h : TransactionHandle) : Prop :=
  ∃ d, t.ensureCurrent h = .error (.transaction d) ∧ t.commit h = .error (.transaction d) ∧
    t.rollback h = .error (.transaction d)

theorem Accepts.of_ensureCurrent (hc : t.ensureCurrent h = .ok ()) : t.Accepts h where
  ensured := hc
  committed := by rw [commit_eq, hc]; rfl
  rolledBack := by rw [rollback_eq, hc]; rfl

theorem Refuses.of_ensureCurrent {e : Error} (hc : t.ensureCurrent h = .error e) : t.Refuses h := by
  obtain ⟨d, rfl⟩ : ∃ d, e = .transaction d := by
    unfold ensureCurrent at hc
    split at hc
    · exact ⟨_, (Except.error.inj hc).symm⟩
    · split at hc
      · cases hc
      · exact ⟨_, (Except.error.inj hc).symm⟩
  exact ⟨d, hc, by rw [commit_eq, hc]; rfl, by rw [rollback_eq, hc]; rfl⟩

/-- What a new stack comes to by calls on its own handles, with the handles that it returned and those that
were resolved. Calls that fail leave a stack alone, but for an identity that is used up. -/
inductive History : TransactionStack → List TransactionHandle → List TransactionHandle → Prop where
  | new : History {} [] []
  | begin {t : TransactionStack} {issued resolved : List TransactionHandle}
      (before : History t issued resolved) (isolation : Option Isolation) :
      History (t.begin isolation).2
        (issued ++ ((t.begin isolation).1.toOption.map Prod.fst).toList) resolved
  | commit {t u : TransactionStack} {issued resolved : List TransactionHandle} {h : TransactionHandle}
      {command : Option TransactionCommand} (before : History t issued resolved) (own : h ∈ issued)
      (done : t.commit h = .ok (command, u)) : History u issued (h :: resolved)
  | rollback {t u : TransactionStack} {issued resolved : List TransactionHandle} {h : TransactionHandle}
      {command : TransactionCommand} (before : History t issued resolved) (own : h ∈ issued)
      (done : t.rollback h = .ok (command, u)) : History u issued (h :: resolved)
  | abort {t : TransactionStack} {issued resolved : List TransactionHandle}
      (before : History t issued resolved) : History t.abort.2 issued (t.levels ++ resolved)

/-- Identities tell returned handles apart, and what was resolved is not open. -/
structure Traced (t : TransactionStack) (issued resolved : List TransactionHandle) : Prop
    extends Issued t issued where
  levels_nodup : t.levels.Nodup
  issued_of_resolved : ∀ h ∈ resolved, h ∈ issued
  closed_of_resolved : ∀ h ∈ resolved, h ∉ t.levels

namespace Traced

theorem opened (ht : Traced t issued resolved) (hid : h.id = t.lastId + 1) (last : Nat) :
    Traced ⟨t.levels ++ [h], t.lastId + 1, last⟩ (issued ++ [h]) resolved := by
  have hnew := ht.id_ne hid
  refine ⟨ht.pushed hid last, ?_,
    fun g hg => List.mem_append_left _ (ht.issued_of_resolved g hg), fun g hg ho => ?_⟩
  · refine ht.levels_nodup.append (List.nodup_singleton h) (List.disjoint_singleton.2 fun ho => ?_)
    exact hnew h (ht.issued_of_open h ho) rfl
  · rcases List.mem_append.1 ho with ho | ho
    · exact ht.closed_of_resolved g hg ho
    · exact hnew g (ht.issued_of_resolved g hg) (by rw [List.mem_singleton.1 ho])

/-- The innermost level is closed for good. -/
theorem closed (ht : Traced t issued resolved) (hi : h ∈ issued) (hc : t.ensureCurrent h = .ok ()) :
    Traced t.pop issued (h :: resolved) := by
  have hl := ht.current hi hc
  have hopen : ∀ g ∈ t.pop.levels, g ∈ t.levels := fun g hg => by rw [hl]; simp [hg]
  refine ⟨ht.popped, ht.levels_nodup.sublist (List.dropLast_sublist _), fun g hg => ?_,
    fun g hg ho => ?_⟩ <;> rcases List.mem_cons.1 hg with rfl | hg
  · exact hi
  · exact ht.issued_of_resolved g hg
  · have hnodup := ht.levels_nodup
    rw [hl] at hnodup
    exact (List.nodup_append.1 hnodup).2.2 g ho g (by simp) rfl
  · exact ht.closed_of_resolved g hg (hopen g ho)

/-- A level that was committed or rolled back is closed for good. -/
theorem resolved_of_map {α : Type} {command c : α} (ht : Traced t issued resolved) (hi : h ∈ issued)
    (done : ((t.ensureCurrent h).map fun _ => (c, t.pop)) = .ok (command, u)) :
    Traced u issued (h :: resolved) := by
  cases hc : t.ensureCurrent h with
  | error e =>
    rw [hc] at done
    cases done
  | ok _ =>
    rw [hc] at done
    cases done
    exact ht.closed hi hc

theorem aborted (ht : Traced t issued resolved) : Traced t.abort.2 issued (t.levels ++ resolved) := by
  have hclosed : t.abort.2.levels = [] := by
    unfold abort
    split
    · exact List.isEmpty_iff.1 ‹_›
    · rfl
  have hlast : t.abort.2.lastId = t.lastId := by
    unfold abort
    split <;> rfl
  refine ⟨ht.mono (by simp [hclosed]) hlast.ge, by simp [hclosed], fun g hg => ?_, by simp [hclosed]⟩
  exact (List.mem_append.1 hg).elim (ht.issued_of_open g) (ht.issued_of_resolved g)

end Traced

/-- One call after the other keeps handles apart. -/
theorem History.traced (hist : History t issued resolved) : Traced t issued resolved := by
  induction hist with
  | new => exact ⟨.new, .nil, by simp, by simp⟩
  | @begin t issued resolved before isolation ih =>
    by_cases hl : t.levels = []
    · rw [begin_root hl]
      exact ih.opened rfl _
    · cases isolation with
      | none =>
        rw [begin_nested hl]
        exact ih.opened rfl _
      | some level =>
        obtain ⟨e, he⟩ := begin_isolated hl level
        rw [he]
        simpa [Except.toOption] using { ih with toIssued := ih.skipId }
  | commit before own done ih =>
    rw [commit_eq] at done
    exact ih.resolved_of_map own done
  | rollback before own done ih =>
    rw [rollback_eq] at done
    exact ih.resolved_of_map own done
  | abort before ih => exact ih.aborted

/-- The innermost level is the one handle that is accepted, and what was resolved is refused. -/
structure Freezes (t : TransactionStack) (issued resolved : List TransactionHandle) : Prop where
  issued_of_current : ∀ h, t.current? = some h → h ∈ issued
  accepts_current : ∀ h, t.current? = some h → t.Accepts h
  refuses_others : ∀ h ∈ issued, t.current? ≠ some h → t.Refuses h
  issued_of_resolved : ∀ h ∈ resolved, h ∈ issued
  refuses_resolved : ∀ h ∈ resolved, t.Refuses h

namespace Traced

theorem ensureCurrent_of_current (ht : Traced t issued resolved) (hc : t.current? = some h) :
    t.ensureCurrent h = .ok () := by
  obtain ⟨outer, hl⟩ := List.getLast?_eq_some_iff.1 hc
  have hfind : t.levels.findIdx? (fun l => l.id == h.id) = some outer.length := by
    have houter : outer.findIdx? (fun l => l.id == h.id) = none := by
      refine List.findIdx?_eq_none_iff.2 fun g hg => beq_eq_false_iff_ne.2 fun hid => ?_
      have heq := ht.eq_of_id g (ht.issued_of_open g (by simp [hl, hg])) h
        (ht.issued_of_open h (by simp [hl])) hid
      have hnodup := ht.levels_nodup
      rw [hl] at hnodup
      exact (List.nodup_append.1 hnodup).2.2 g hg h (by simp) heq
    simp [hl, List.findIdx?_append, houter]
  rw [ensureCurrent, hfind]
  simp [depth, hl]

theorem freezes (ht : Traced t issued resolved) : t.Freezes issued resolved := by
  have hrefuses : ∀ h ∈ issued, t.current? ≠ some h → t.Refuses h := fun h hi hne => by
    cases hc : t.ensureCurrent h with
    | error e => exact .of_ensureCurrent hc
    | ok _ =>
      have hl := ht.current hi hc
      exact absurd (by rw [current?, hl, List.getLast?_concat]) hne
  have hopen : ∀ h, t.current? = some h → h ∈ t.levels := fun h hc => List.mem_of_getLast? hc
  exact ⟨fun h hc => ht.issued_of_open h (hopen h hc),
    fun h hc => .of_ensureCurrent (ht.ensureCurrent_of_current hc), hrefuses, ht.issued_of_resolved,
    fun h hr => hrefuses h (ht.issued_of_resolved h hr)
      fun hc => ht.closed_of_resolved h hr (hopen h hc)⟩

end Traced

end TransactionStack

namespace Session

open TransactionStack

variable {commands : StatementId → Command} {s t : Session} {issued resolved : List TransactionHandle}
  {h : TransactionHandle}

/-- What a new session comes to by any calls, each with a server and a caller of its own, as long as
commits and rollbacks are on its own handles. A level counts as resolved where its commit or rollback
succeeded, and where it was open when the transaction was aborted, whatever came of that. -/
inductive History (commands : StatementId → Command) :
    Session → List TransactionHandle → List TransactionHandle → Prop where
  | new {s : Session} (transactions_eq : s.transactions = {}) : History commands s [] []
  | begin {s t : Session} {issued resolved : List TransactionHandle} {server : Server}
      {isolation : Option Isolation} {r : Result TransactionHandle}
      (before : History commands s issued resolved)
      (run : (beginTransaction isolation).runWith server s = (r, t)) :
      History commands t (issued ++ r.toOption.toList) resolved
  | commit {s t : Session} {issued resolved : List TransactionHandle} {server : Server}
      {h : TransactionHandle} {r : Result Unit} (before : History commands s issued resolved)
      (own : h ∈ issued) (run : (Session.commit h).runWith server s = (r, t)) :
      History commands t issued (if r.isOk then h :: resolved else resolved)
  | rollback {s t : Session} {issued resolved : List TransactionHandle} {server : Server}
      {h : TransactionHandle} {r : Result Unit} (before : History commands s issued resolved)
      (own : h ∈ issued) (run : (Session.rollback h).runWith server s = (r, t)) :
      History commands t issued (if r.isOk then h :: resolved else resolved)
  | abort {s t : Session} {issued resolved : List TransactionHandle} {server : Server} {r : Result Unit}
      (before : History commands s issued resolved) (run : Session.abort.runWith server s = (r, t)) :
      History commands t issued (s.transactions.levels ++ resolved)
  | other {s : Session} {issued resolved : List TransactionHandle} (server : Server) (c : Call)
      (before : History commands s issued resolved) (hc : c.isTransactional = false) :
      History commands ((c.action commands).runWith server s).2 issued resolved

/-- A statement inside a level that is accepted is a statement of the session. -/
structure Accepts (s : Session) (h : TransactionHandle) : Prop where
  executeIn_eq : ∀ server tree,
    (Session.executeIn h tree).runWith server s = (Session.execute tree).runWith server s
  queryIn_eq : ∀ server tree,
    (Session.queryIn h tree).runWith server s = (Session.query tree).runWith server s

/-- Whatever is asked of a level fails as a transaction and leaves the session as it is: nothing is sent. -/
structure Refuses (s : Session) (h : TransactionHandle) (d : String) : Prop where
  executeIn_eq : ∀ server tree,
    (Session.executeIn h tree).runWith server s = (.error (.transaction d), s)
  queryIn_eq : ∀ server tree,
    (Session.queryIn h tree).runWith server s = (.error (.transaction d), s)
  commit_eq : ∀ server, (Session.commit h).runWith server s = (.error (.transaction d), s)
  rollback_eq : ∀ server, (Session.rollback h).runWith server s = (.error (.transaction d), s)

theorem Accepts.of_stack (ha : s.transactions.Accepts h) : s.Accepts h where
  executeIn_eq server tree := by simp [Session.executeIn, runWith_bind, ha.ensured]
  queryIn_eq server tree := by simp [Session.queryIn, runWith_bind, ha.ensured]

theorem Refuses.of_stack (hr : s.transactions.Refuses h) : ∃ d, s.Refuses h d := by
  obtain ⟨d, hensured, hcommitted, hrolledBack⟩ := hr
  exact ⟨d, fun server tree => by simp [Session.executeIn, runWith_bind, hensured],
    fun server tree => by simp [Session.queryIn, runWith_bind, hensured],
    fun server => by rw [runWith_commit, hcommitted],
    fun server => by rw [runWith_rollback, hrolledBack]⟩

/-! ### A session's stack -/

theorem transactions_invariant (stack : TransactionStack) (server : Server) :
    TableInvariant commands server fun s => s.transactions = stack where
  noteSent _ _ _ h := h
  cached _ _ _ _ h := h
  bind _ _ h := h
  supply _ _ h := h
  invalidated _ _ h := h
  created _ _ _ _ _ h := h
  notCreated _ _ _ h := h
  dropped _ _ h := h

theorem transactions_of_sendAll {server : Server} {r : Result Unit} {sent : List TransactionCommand}
    (hrun : (sendAll sent).runWith server s = (r, t)) : t.transactions = s.transactions := by
  have hkeeps : (sendAll sent).Keeps server fun u => u.transactions = s.transactions :=
    keeps_sendAll (fun _ _ _ hu => hu) sent
  have hkept := hkeeps s rfl
  rw [hrun] at hkept
  exact hkept

theorem transactions_of_closeLevel {server : Server} {r : Result Unit} {closed : TransactionStack}
    {sent : List TransactionCommand} (hrun : (closeLevel closed sent).runWith server s = (r, t)) :
    t.transactions = if r.isOk then closed else s.transactions := by
  rw [runWith_closeLevel] at hrun
  rcases hsend : (sendAll sent).runWith server { s with transactions := closed } with ⟨e | x, u⟩ <;>
    rw [hsend] at hrun <;> cases hrun
  · rfl
  · exact transactions_of_sendAll hsend

/-- A session uses its stack as anyone does. -/
theorem History.stack (hist : History commands s issued resolved) :
    TransactionStack.History s.transactions issued resolved := by
  induction hist with
  | new he =>
    rw [he]
    exact .new
  | @begin s t issued resolved server isolation r before run ih =>
    rw [runWith_beginTransaction] at run
    have hnext := ih.begin isolation
    rcases hb : s.transactions.begin isolation with ⟨e | ⟨handle, sent⟩, stack⟩ <;>
      rw [hb] at run hnext <;> dsimp only at run
    · cases run
      exact hnext
    · rcases hsend : (sendAll sent).runWith server { s with transactions := stack } with ⟨e | x, u⟩ <;>
        rw [hsend] at run <;> cases run
      · simpa [Except.toOption] using ih
      · rw [transactions_of_sendAll hsend]
        exact hnext
  | @commit s t issued resolved server h r before own run ih =>
    rw [runWith_commit] at run
    rcases hc : s.transactions.commit h with e | ⟨command, closed⟩ <;> rw [hc] at run
    · cases run
      exact ih
    · rw [transactions_of_closeLevel run]
      cases r with
      | error e => exact ih
      | ok _ => exact ih.commit own hc
  | @rollback s t issued resolved server h r before own run ih =>
    rw [runWith_rollback] at run
    rcases hc : s.transactions.rollback h with e | ⟨command, closed⟩ <;> rw [hc] at run
    · cases run
      exact ih
    · rw [transactions_of_closeLevel run]
      cases r with
      | error e => exact ih
      | ok _ => exact ih.rollback own hc
  | @abort s t issued resolved server r before run ih =>
    have ht : t.transactions = s.transactions.abort.2 := by
      simp only [Session.abort, runWith_bind, runWith_get, runWith_modify] at run
      exact transactions_of_sendAll run
    rw [ht]
    exact ih.abort
  | @other s issued resolved server c before hc ih =>
    have hinvariant : TableInvariant commands server fun u => u.transactions = s.transactions :=
      transactions_invariant s.transactions server
    have hkept := hinvariant.action c hc (fun _ _ _ h => h) s rfl
    rw [hkept]
    exact ih

/-- However a stack is used, by itself or through a session whose statements fail, it accepts the innermost
open handle and no other; a handle that was resolved is refused from then on, and a statement through a
handle that is not accepted fails without a word to the server. -/
theorem handles_frozen :
    (∀ t issued resolved, TransactionStack.History t issued resolved → t.Freezes issued resolved) ∧
      ∀ commands s issued resolved, History commands s issued resolved →
        s.transactions.Freezes issued resolved ∧
          (∀ h, s.transactions.current? = some h → s.Accepts h) ∧
          (∀ h ∈ issued, s.transactions.current? ≠ some h → ∃ d, s.Refuses h d) ∧
          ∀ h ∈ resolved, ∃ d, s.Refuses h d := by
  refine ⟨fun t issued resolved hist => hist.traced.freezes, fun commands s issued resolved hist => ?_⟩
  have hfrozen := hist.stack.traced.freezes
  exact ⟨hfrozen, fun h hc => Accepts.of_stack (hfrozen.accepts_current h hc),
    fun h hi hne => Refuses.of_stack (hfrozen.refuses_others h hi hne),
    fun h hr => Refuses.of_stack (hfrozen.refuses_resolved h hr)⟩

def begun : Session := ((beginTransaction none).runWith failingThird {}).2

def begunTwice : Session := ((beginTransaction none).runWith failingThird begun).2

/-- The session after an abort whose rollback was refused. -/
def abortedInVain : Session := (Session.abort.runWith failingThird begunTwice).2

def begunAnew : Session := ((beginTransaction none).runWith failingThird abortedInVain).2

/-- Both levels are frozen though the rollback was refused; on a stack by itself, so is a savepoint that was
committed. -/
theorem handles_frozen_begunAnew :
    begunAnew.sent.length = 4 ∧ begunAnew.Accepts ⟨3, none⟩ ∧ (∃ d, begunAnew.Refuses ⟨1, none⟩ d) ∧
      (∃ d, begunAnew.Refuses ⟨2, some "sp_1"⟩ d) ∧
      TransactionStack.Accepts ⟨[⟨1, none⟩], 2, 1⟩ ⟨1, none⟩ ∧
      TransactionStack.Refuses ⟨[⟨1, none⟩], 2, 1⟩ ⟨2, some "sp_1"⟩ := by
  have hbegun : (beginTransaction none).runWith failingThird {} = (.ok ⟨1, none⟩, begun) :=
    Prod.ext (by decide +kernel) rfl
  have htwice : (beginTransaction none).runWith failingThird begun = (.ok ⟨2, some "sp_1"⟩, begunTwice) :=
    Prod.ext (by decide +kernel) rfl
  have haborted : Session.abort.runWith failingThird begunTwice =
      (.error (.database "deadlock victim"), abortedInVain) := Prod.ext (by decide +kernel) rfl
  have hanew : (beginTransaction none).runWith failingThird abortedInVain = (.ok ⟨3, none⟩, begunAnew) :=
    Prod.ext (by decide +kernel) rfl
  have hnew : History (fun _ => .query (.table staging)) {} [] [] := .new rfl
  have hist := (((hnew.begin hbegun).begin htwice).abort haborted).begin hanew
  have hlevels : begunTwice.transactions.levels = [⟨1, none⟩, ⟨2, some "sp_1"⟩] := by decide +kernel
  rw [hlevels] at hist
  have hstack : (({} : TransactionStack).begin none).2.begin none =
      (.ok (⟨2, some "sp_1"⟩, [.save "sp_1"]), ⟨[⟨1, none⟩, ⟨2, some "sp_1"⟩], 2, 1⟩) := by
    decide +kernel
  have hist' := (TransactionStack.History.new.begin none).begin none
  rw [hstack] at hist'
  replace hist' := hist'.commit (h := ⟨2, some "sp_1"⟩) (List.mem_append_right _ (by decide)) rfl
  obtain ⟨-, haccepts, -, hrefuses⟩ := handles_frozen.2 _ _ _ _ hist
  have hfrozen := handles_frozen.1 _ _ _ hist'
  exact ⟨by decide +kernel, haccepts _ (by decide +kernel), hrefuses _ (by decide), hrefuses _ (by decide),
    hfrozen.accepts_current _ rfl, hfrozen.refuses_resolved _ (by decide)⟩

end Session

end Tsql
