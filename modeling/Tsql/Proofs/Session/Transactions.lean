import Mathlib.Data.List.Nodup
import Tsql.Proofs.Session.Action
import Tsql.Proofs.Session.ServerTransaction
import Tsql.Proofs.Text.Digits

/-!
# The transaction stack stays in step with the server

`TransactionRun` is a session that begins, commits, rolls back and aborts, in any order, on handles
that it returned itself; statements may fail and callers may cancel. What carries the induction is
`Synced`: the nested levels are a subsequence of the savepoints that the server holds, whose numbers
ascend, so that a savepoint that was committed or rolled back past does no harm. `InStep` is what
this comes to between the stack and the server.
-/

namespace Tsql

open ActionOn

namespace TransactionStack

theorem savepointName_injective {m n : Nat} (h : savepointName m = savepointName n) : m = n :=
  Text.natText_injective (String.append_right_inj _ |>.1 h)

/-- The stack agrees with the transaction that the server has. -/
structure InStep (t : TransactionStack) (db : ServerTransaction) : Prop where
  open_iff : t.levels = [] ↔ db = none
  root_iff : ∀ i h, t.levels[i]? = some h → (h.isRoot = true ↔ i = 0)
  savepoints_nodup : (t.levels.filterMap TransactionHandle.savepoint).Nodup
  savepoints_sublist : (t.levels.filterMap TransactionHandle.savepoint).Sublist (db.getD [])

/-- Levels over a server's transaction, by the numbers of their savepoints. -/
inductive Nested (last : Nat) : List TransactionHandle → ServerTransaction → Prop where
  | closed : Nested last [] none
  | opened {root : TransactionHandle} {nested : List TransactionHandle} (mine held : List Nat)
      (root_eq : root.savepoint = none)
      (nested_eq : nested.map TransactionHandle.savepoint = mine.map fun n => some (savepointName n))
      (sub : mine.Sublist held) (ascending : held.Pairwise (· < ·))
      (bounded : ∀ n ∈ held, n ≤ last) :
      Nested last (root :: nested) (some (held.map savepointName))

namespace Nested

variable {last : Nat} {levels : List TransactionHandle} {db : ServerTransaction}

/-- Opening the transaction is legal where no level is open. -/
theorem begin (h : Nested last [] db) (id : Nat) :
    db.next? .begin = some (some []) ∧ Nested last [⟨id, none⟩] (some []) := by
  cases h
  exact ⟨rfl, .opened [] [] rfl rfl .slnil .nil (by simp)⟩

/-- A savepoint of the next number is legal inside a transaction. -/
theorem save (h : Nested last levels db) (hne : levels ≠ []) (id : Nat) :
    ∃ db', db.next? (.save (savepointName (last + 1))) = some db' ∧
      Nested (last + 1) (levels ++ [⟨id, some (savepointName (last + 1))⟩]) db' := by
  cases h with
  | closed => exact absurd rfl hne
  | opened mine held hr hn hs ha hb =>
    refine ⟨some ((held ++ [last + 1]).map savepointName), by simp [ServerTransaction.next?],
      .opened (mine ++ [last + 1]) (held ++ [last + 1]) hr (by simp [hn]) (hs.append_right _) ?_
        ?_⟩
    · rw [List.pairwise_append]
      refine ⟨ha, List.pairwise_singleton _ _, fun n hm k hk => ?_⟩
      have := hb n hm
      rw [List.mem_singleton.1 hk]
      omega
    · intro n hm
      rcases List.mem_append.1 hm with hm | hm
      · exact (hb n hm).trans (Nat.le_succ _)
      · exact (List.mem_singleton.1 hm).le

theorem pop {h : TransactionHandle} (hn : Nested last (levels ++ [h]) db) :
    (levels = [] ∧ h.savepoint = none ∧ ∃ savepoints, db = some savepoints) ∨
      ∃ root nested mine k held, levels = root :: nested ∧ h.savepoint = some (savepointName k) ∧
        db = some (held.map savepointName) ∧ root.savepoint = none ∧
        nested.map TransactionHandle.savepoint = (mine.map fun n => some (savepointName n)) ∧
        (mine ++ [k]).Sublist held ∧ held.Pairwise (· < ·) ∧ ∀ n ∈ held, n ≤ last := by
  generalize hl : levels ++ [h] = all at hn
  cases hn with
  | closed => simp at hl
  | @opened root nested mine held hr he hs ha hb =>
    cases levels with
    | nil =>
      obtain ⟨rfl, rfl⟩ := List.cons.inj hl
      exact .inl ⟨rfl, hr, _, rfl⟩
    | cons l ls =>
      rw [List.cons_append] at hl
      obtain ⟨rfl, rfl⟩ := List.cons.inj hl
      obtain ⟨mine', k, rfl, hm, hk⟩ : ∃ mine' k, mine = mine' ++ [k] ∧
          ls.map TransactionHandle.savepoint = (mine'.map fun n => some (savepointName n)) ∧
          h.savepoint = some (savepointName k) := by
        rw [List.map_append, eq_comm, List.map_eq_append_iff] at he
        obtain ⟨m, k, rfl, hm, hk⟩ := he
        obtain ⟨k, rfl, hk⟩ := List.map_eq_singleton_iff.1 hk
        exact ⟨m, k, rfl, hm.symm, by simpa using hk.symm⟩
      exact .inr ⟨l, ls, mine', k, held, rfl, hk, rfl, hr, hm, hs, ha, hb⟩

/-- Closing the only level closes the transaction, by a commit as well as by a rollback. -/
theorem close_root {h : TransactionHandle} (hn : Nested last (levels ++ [h]) db)
    (hr : h.savepoint = none) :
    db.next? .commit = some none ∧ db.next? (.rollback none) = some none ∧
      Nested last levels none := by
  rcases hn.pop with ⟨rfl, -, savepoints, rfl⟩ | ⟨_, _, _, _, _, -, hk, -⟩
  · exact ⟨rfl, rfl, .closed⟩
  · rw [hr] at hk
    cases hk

/-- A savepoint that is committed stays with the server. -/
theorem forget {h : TransactionHandle} (hn : Nested last (levels ++ [h]) db)
    (hs : h.savepoint ≠ none) : Nested last levels db := by
  rcases hn.pop with ⟨-, hr, -⟩ | ⟨root, nested, mine, k, held, rfl, -, rfl, hr, he, hsub, ha, hb⟩
  · exact absurd hr hs
  · exact .opened _ _ hr he ((List.sublist_append_left _ _).trans hsub) ha hb

/-- Rolling back to the innermost savepoint is legal and keeps the savepoints of all levels around
it. -/
theorem rollback {h : TransactionHandle} {s : String} (hn : Nested last (levels ++ [h]) db)
    (hs : h.savepoint = some s) :
    ∃ db', db.next? (.rollback (some s)) = some db' ∧ Nested last levels db' := by
  rcases hn.pop with ⟨-, hr, -⟩ | ⟨root, nested, mine, k, held, rfl, hk, rfl, hr, he, hsub, ha, hb⟩
  · rw [hr] at hs
    cases hs
  obtain rfl : s = savepointName k := by rw [hk] at hs; exact (Option.some.inj hs).symm
  have hmem : k ∈ held := hsub.subset (by simp)
  obtain ⟨below, above, rfl⟩ := List.append_of_mem hmem
  have habove : savepointName k ∉ above.map savepointName := by
    intro hm
    obtain ⟨n, hn', he'⟩ := List.mem_map.1 hm
    have := (List.pairwise_cons.1 (List.pairwise_append.1 ha).2.1).1 n hn'
    rw [savepointName_injective he'] at this
    exact Nat.lt_irrefl _ this
  -- what lies below `k` in the numbers of the levels lies below `k` in those of the server
  have hbelow : mine.Sublist below := by
    have hf := hsub.filter (· < k)
    have hmine : ∀ n ∈ mine, n < k := fun n hm =>
      (List.pairwise_append.1 (ha.sublist hsub)).2.2 n hm k (by simp)
    have hlow : ∀ n ∈ below, n < k := fun n hm =>
      (List.pairwise_append.1 ha).2.2 n hm k (by simp)
    have hhigh : ∀ n ∈ above, ¬ n < k := fun n hm =>
      Nat.not_lt_of_gt ((List.pairwise_cons.1 (List.pairwise_append.1 ha).2.1).1 n hm)
    have hm' : mine.filter (· < k) = mine := List.filter_eq_self.2 (by simpa using hmine)
    have hl' : below.filter (· < k) = below := List.filter_eq_self.2 (by simpa using hlow)
    have hh' : above.filter (· < k) = [] := List.filter_eq_nil_iff.2 (by simpa using hhigh)
    simpa [List.filter_append, hm', hl', hh'] using hf
  have hsplit : (below ++ k :: above).map savepointName =
      below.map savepointName ++ savepointName k :: above.map savepointName := by simp
  have hkept : (below ++ [k]).Sublist (below ++ k :: above) := by simp
  refine ⟨some ((below ++ [k]).map savepointName), ?_, .opened _ _ hr he
    (hbelow.trans (List.sublist_append_left _ _)) (ha.sublist hkept)
    fun n hm => hb n (hkept.subset hm)⟩
  rw [ServerTransaction.next?, Option.bind_some, hsplit, if_pos (by simp),
    ServerTransaction.keepTo_append habove]
  simp

theorem inStep {t : TransactionStack} (h : Nested last t.levels db) : InStep t db := by
  generalize hl : t.levels = levels at h
  cases h with
  | closed =>
    exact ⟨by simp [hl], by simp [hl], by simp [hl], by simp [hl]⟩
  | @opened root nested mine held hr he hs ha hb =>
    have hsp : t.levels.filterMap TransactionHandle.savepoint = mine.map savepointName := by
      rw [hl, List.filterMap_cons, hr]
      have : nested.filterMap TransactionHandle.savepoint =
          (nested.map TransactionHandle.savepoint).filterMap id := by simp
      rw [this, he]
      simp [List.filterMap_map]
    refine ⟨by simp [hl], fun i g hg => ?_, ?_, ?_⟩
    · rw [hl] at hg
      cases i with
      | zero =>
        obtain rfl : root = g := by simpa using hg
        simp [TransactionHandle.isRoot, hr]
      | succ i =>
        have hg' : (nested.map TransactionHandle.savepoint)[i]? = some g.savepoint := by
          simp only [List.getElem?_cons_succ] at hg
          simp [hg]
        rw [he, List.getElem?_map] at hg'
        obtain ⟨n, -, hn⟩ := Option.map_eq_some_iff.1 hg'
        simp [TransactionHandle.isRoot, ← hn]
    · rw [hsp]
      refine List.Nodup.map (fun m n h => savepointName_injective h) ?_
      exact (ha.sublist hs).imp Nat.ne_of_lt
    · rw [hsp]
      exact hs.map _

end Nested

/-! ## Opening a level -/

theorem begin_root {t : TransactionStack} (h : t.levels = []) (isolation : Option Isolation) :
    t.begin isolation =
      (.ok (⟨t.lastId + 1, none⟩, (isolation.map .isolate).toList ++ [.begin]),
        ⟨t.levels ++ [⟨t.lastId + 1, none⟩], t.lastId + 1, t.lastSavepoint⟩) := by
  obtain ⟨levels, lastId, lastSavepoint⟩ := t
  obtain rfl : levels = [] := h
  cases isolation <;> rfl

theorem begin_nested {t : TransactionStack} (h : t.levels ≠ []) :
    t.begin none =
      (.ok (⟨t.lastId + 1, some (savepointName (t.lastSavepoint + 1))⟩,
          [.save (savepointName (t.lastSavepoint + 1))]),
        ⟨t.levels ++ [⟨t.lastId + 1, some (savepointName (t.lastSavepoint + 1))⟩], t.lastId + 1,
          t.lastSavepoint + 1⟩) := by
  obtain ⟨levels, lastId, lastSavepoint⟩ := t
  cases levels with
  | nil => exact absurd rfl h
  | cons l ls => rfl

theorem begin_isolated {t : TransactionStack} (h : t.levels ≠ []) (level : Isolation) :
    ∃ e, t.begin (some level) = (.error e, { t with lastId := t.lastId + 1 }) := by
  obtain ⟨levels, lastId, lastSavepoint⟩ := t
  cases levels with
  | nil => exact absurd rfl h
  | cons l ls => exact ⟨_, rfl⟩

/-! ## Closing a level -/

theorem commit_eq (t : TransactionStack) (h : TransactionHandle) :
    t.commit h = (t.ensureCurrent h).map fun _ =>
      (if h.isRoot then some TransactionCommand.commit else none, t.pop) := by
  rw [commit]
  cases t.ensureCurrent h <;> rfl

theorem rollback_eq (t : TransactionStack) (h : TransactionHandle) :
    t.rollback h = (t.ensureCurrent h).map fun _ => (.rollback h.savepoint, t.pop) := by
  rw [rollback]
  cases t.ensureCurrent h <;> rfl

/-! ## The invariant -/

/-- A new identity tells its handle from all others. -/
theorem eq_of_id_concat {issued : List TransactionHandle} {h : TransactionHandle}
    (hnew : ∀ g ∈ issued, g.id ≠ h.id) (heq : ∀ g ∈ issued, ∀ k ∈ issued, g.id = k.id → g = k) :
    ∀ g ∈ issued ++ [h], ∀ k ∈ issued ++ [h], g.id = k.id → g = k := by
  intro g hg k hk hid
  rcases List.mem_append.1 hg with hg | hg <;> rcases List.mem_append.1 hk with hk | hk
  · exact heq g hg k hk hid
  · rw [List.mem_singleton.1 hk] at hid
    exact absurd hid (hnew g hg)
  · rw [List.mem_singleton.1 hg] at hid
    exact absurd hid.symm (hnew k hk)
  · rw [List.mem_singleton.1 hg, List.mem_singleton.1 hk]

theorem of_ensureCurrent {t : TransactionStack} {h : TransactionHandle}
    (hc : t.ensureCurrent h = .ok ()) : ∃ outer l, t.levels = outer ++ [l] ∧ l.id = h.id := by
  unfold ensureCurrent at hc
  split at hc
  · cases hc
  · next i hi =>
    split at hc
    · next hd =>
      obtain ⟨hlt, hid, -⟩ := List.findIdx?_eq_some_iff_getElem.1 hi
      have hne : t.levels ≠ [] := List.ne_nil_of_length_pos (by omega)
      refine ⟨t.levels.dropLast, t.levels.getLast hne, (List.dropLast_append_getLast hne).symm, ?_⟩
      have hlast : t.levels.getLast hne = t.levels[i] := by
        rw [List.getLast_eq_getElem]
        congr 1
        unfold depth at hd
        omega
      rw [hlast]
      simpa using hid
    · cases hc

/-- The handles that a stack returned: the open levels are among them, and identities tell them apart. -/
structure Issued (t : TransactionStack) (issued : List TransactionHandle) : Prop where
  issued_of_open : ∀ h ∈ t.levels, h ∈ issued
  id_le : ∀ h ∈ issued, h.id ≤ t.lastId
  eq_of_id : ∀ g ∈ issued, ∀ h ∈ issued, g.id = h.id → g = h

namespace Issued

variable {t u : TransactionStack} {issued : List TransactionHandle} {h : TransactionHandle}

theorem new : Issued {} [] := ⟨by simp, by simp, by simp⟩

/-- Closing levels and using up identities does no harm. -/
theorem mono (hs : Issued t issued) (hopen : ∀ h ∈ u.levels, h ∈ t.levels) (hlast : t.lastId ≤ u.lastId) :
    Issued u issued :=
  ⟨fun h hm => hs.issued_of_open h (hopen h hm), fun h hm => (hs.id_le h hm).trans hlast, hs.eq_of_id⟩

theorem skipId (hs : Issued t issued) : Issued { t with lastId := t.lastId + 1 } issued :=
  hs.mono (fun _ hm => hm) (Nat.le_succ _)

theorem popped (hs : Issued t issued) : Issued t.pop issued :=
  hs.mono (fun _ hm => (List.dropLast_sublist _).subset hm) le_rfl

/-- A handle of the session that is accepted is the innermost level itself. -/
theorem current (hs : Issued t issued) (hi : h ∈ issued) (hc : t.ensureCurrent h = .ok ()) :
    t.levels = t.pop.levels ++ [h] := by
  obtain ⟨outer, l, hl, hid⟩ := of_ensureCurrent hc
  obtain rfl : l = h := hs.eq_of_id l (hs.issued_of_open l (by simp [hl])) h hi hid
  simp [pop, hl]

/-- The next identity was not given to any handle. -/
theorem id_ne (hs : Issued t issued) (hid : h.id = t.lastId + 1) : ∀ g ∈ issued, g.id ≠ h.id := by
  intro g hg heq
  have := hs.id_le g hg
  omega

/-- A level with the next identity is opened. -/
theorem pushed (hs : Issued t issued) (hid : h.id = t.lastId + 1) (last : Nat) :
    Issued ⟨t.levels ++ [h], t.lastId + 1, last⟩ (issued ++ [h]) := by
  refine ⟨fun g hg => ?_, fun g hg => ?_, eq_of_id_concat (hs.id_ne hid) hs.eq_of_id⟩
  · rcases List.mem_append.1 hg with hg | hg
    · exact List.mem_append_left _ (hs.issued_of_open g hg)
    · exact List.mem_append_right _ hg
  · rcases List.mem_append.1 hg with hg | hg
    · exact (hs.id_le g hg).trans (Nat.le_succ _)
    · rw [List.mem_singleton.1 hg, hid]

end Issued

/-- A stack with the handles that it returned so far, over a server's transaction. -/
structure Synced (t : TransactionStack) (db : ServerTransaction)
    (issued : List TransactionHandle) : Prop extends Issued t issued where
  nested : Nested t.lastSavepoint t.levels db

end TransactionStack

/-! ## Runs -/

namespace Session

open TransactionStack

variable {server : Server} {s t : Session}

theorem runWith_sendAll_cons (c : TransactionCommand) (rest : List TransactionCommand) :
    (sendAll (c :: rest)).runWith server s =
      if server.cancelled s.sent then (.error .cancelled, s)
      else match server.affected s.sent (s.request false c.sql []) with
        | .ok _ => (sendAll rest).runWith server (s.noteSent (s.request false c.sql []))
        | .error e => (.error e, s.noteSent (s.request false c.sql [])) := by
  rw [sendAll, runWith_bind, runWith_sendCounted]
  cases server.cancelled s.sent
  · cases server.affected s.sent (s.request false c.sql []) <;> rfl
  · rfl

/-- A batch whose last command alone changes the transaction: it takes effect as a whole or, where
some command of it fails or is not sent, not at all. -/
theorem sendAll_legal {cs : List TransactionCommand} {c : TransactionCommand}
    {db db' : ServerTransaction} {r : Result Unit}
    (hrun : (sendAll (cs ++ [c])).runWith server s = (r, t))
    (h : ServerTransaction.after server.affected s.sent = some db)
    (hcs : ∀ x ∈ cs, db.next? x = some db) (hc : db.next? c = some db') :
    t.transactions = s.transactions ∧
      ServerTransaction.after server.affected t.sent = some (if r.isOk then db' else db) := by
  induction cs generalizing s with
  | nil =>
    have ha := ServerTransaction.after_command server.affected h
      (r := s.request false c.sql []) rfl hc
    rw [List.nil_append, runWith_sendAll_cons] at hrun
    split at hrun
    · cases hrun
      exact ⟨rfl, h⟩
    · split at hrun
      · next n hn =>
        cases hrun
        rw [hn] at ha
        exact ⟨rfl, ha⟩
      · next e he =>
        cases hrun
        rw [he] at ha
        exact ⟨rfl, ha⟩
  | cons x cs ih =>
    have ha := ServerTransaction.after_command server.affected h
      (r := s.request false x.sql []) rfl (hcs x List.mem_cons_self)
    rw [ite_self] at ha
    rw [List.cons_append, runWith_sendAll_cons] at hrun
    split at hrun
    · cases hrun
      exact ⟨rfl, h⟩
    · split at hrun
      · obtain ⟨ht, hr⟩ := ih hrun ha fun y hy => hcs y (List.mem_cons_of_mem _ hy)
        exact ⟨ht, hr⟩
      · cases hrun
        exact ⟨rfl, ha⟩

theorem send_legal {c : TransactionCommand} {db db' : ServerTransaction} {r : Result Unit}
    (hrun : (sendAll [c]).runWith server s = (r, t))
    (h : ServerTransaction.after server.affected s.sent = some db) (hc : db.next? c = some db') :
    t.transactions = s.transactions ∧
      ServerTransaction.after server.affected t.sent = some (if r.isOk then db' else db) :=
  have hrun' : (sendAll ([] ++ [c])).runWith server s = (r, t) := hrun
  sendAll_legal hrun' h (fun _ hx => by cases hx) hc

/-- The session's stack agrees with the server, given the handles returned so far. -/
def InSync (answer : List Request → Request → Result Nat) (s : Session)
    (issued : List TransactionHandle) : Prop :=
  ∃ db, ServerTransaction.after answer s.sent = some db ∧ Synced s.transactions db issued

theorem runWith_beginTransaction (isolation : Option Isolation) :
    (beginTransaction isolation).runWith server s =
      match s.transactions.begin isolation with
      | (.error e, stack) => (.error e, { s with transactions := stack })
      | (.ok (h, commands), stack) =>
        match (sendAll commands).runWith server { s with transactions := stack } with
        | (.ok _, t) => (.ok h, t)
        | (.error e, t) => (.error e, { t with transactions := s.transactions }) := by
  rcases hb : s.transactions.begin isolation with ⟨e | ⟨h, commands⟩, stack⟩
  · simp [beginTransaction, runWith_bind, hb]
  · simp only [beginTransaction, runWith_bind, runWith_get, hb, runWith_modify, runWith_lift,
      runWith_undoingOnError]
    rcases (sendAll commands).runWith server { s with transactions := stack } with ⟨e | x, t⟩ <;> rfl

theorem runWith_commit (h : TransactionHandle) :
    (Session.commit h).runWith server s = match s.transactions.commit h with
      | .ok (command, closed) => (closeLevel closed command.toList).runWith server s
      | .error e => (.error e, s) := by
  rw [Session.commit, runWith_bind, runWith_get]
  simp only [runWith_bind, runWith_lift]
  rcases s.transactions.commit h with e | ⟨command, closed⟩ <;> rfl

theorem runWith_rollback (h : TransactionHandle) :
    (Session.rollback h).runWith server s = match s.transactions.rollback h with
      | .ok (command, closed) => (closeLevel closed [command]).runWith server s
      | .error e => (.error e, s) := by
  rw [Session.rollback, runWith_bind, runWith_get]
  simp only [runWith_bind, runWith_lift]
  rcases s.transactions.rollback h with e | ⟨command, closed⟩ <;> rfl

theorem runWith_closeLevel (closed : TransactionStack) (commands : List TransactionCommand) :
    (closeLevel closed commands).runWith server s =
      match (sendAll commands).runWith server { s with transactions := closed } with
      | (.ok x, t) => (.ok x, t)
      | (.error e, t) => (.error e, { t with transactions := s.transactions }) := by
  simp only [closeLevel, runWith_bind, runWith_get, runWith_modify, runWith_undoingOnError]
  rcases (sendAll commands).runWith server { s with transactions := closed } with ⟨e | x, t⟩ <;> rfl

/-- A new level is entered on the stack, and left there if its commands are sent. -/
theorem InSync.push {issued : List TransactionHandle} {db db' : ServerTransaction}
    {h : TransactionHandle} {c : TransactionCommand} {last : Nat} {r : Result TransactionHandle}
    (cs : List TransactionCommand)
    (hdb : ServerTransaction.after server.affected s.sent = some db)
    (hs : Synced s.transactions db issued) (hcs : ∀ x ∈ cs, db.next? x = some db)
    (hc : db.next? c = some db') (hid : h.id = s.transactions.lastId + 1)
    (hn : Nested last (s.transactions.levels ++ [h]) db')
    (hrun : (match (sendAll (cs ++ [c])).runWith server { s with transactions :=
        ⟨s.transactions.levels ++ [h], s.transactions.lastId + 1, last⟩ } with
      | (.ok _, u) => (.ok h, u)
      | (.error e, u) => (.error e, { u with transactions := s.transactions })) = (r, t)) :
    InSync server.affected t (issued ++ r.toOption.toList) := by
  rcases hsend : (sendAll (cs ++ [c])).runWith server { s with transactions :=
    ⟨s.transactions.levels ++ [h], s.transactions.lastId + 1, last⟩ } with ⟨e | u, u'⟩
  all_goals
    obtain ⟨hu, hdb'⟩ := sendAll_legal hsend hdb hcs hc
    rw [hsend] at hrun
    cases hrun
  · exact ⟨db, hdb', by simpa [Except.toOption] using hs⟩
  · refine ⟨db', hdb', ?_⟩
    rw [hu]
    exact ⟨hs.pushed hid last, hn⟩

/-- Beginning a level keeps the session in step; its handle is new. -/
theorem InSync.begin {issued : List TransactionHandle} (h : InSync server.affected s issued)
    {isolation : Option Isolation} {r : Result TransactionHandle}
    (hrun : (beginTransaction isolation).runWith server s = (r, t)) :
    InSync server.affected t (issued ++ r.toOption.toList) := by
  obtain ⟨db, hdb, hs⟩ := h
  rw [runWith_beginTransaction] at hrun
  by_cases hl : s.transactions.levels = []
  · rw [begin_root hl] at hrun
    have hn := hs.nested
    rw [hl] at hn
    obtain ⟨hlegal, hopen⟩ := hn.begin (s.transactions.lastId + 1)
    refine .push _ hdb hs (fun x hx => ?_) hlegal rfl (by rw [hl]; exact hopen) hrun
    obtain ⟨l, -, rfl⟩ : ∃ l, isolation = some l ∧ x = .isolate l := by simpa [eq_comm] using hx
    rfl
  · cases isolation with
    | some level =>
      obtain ⟨e, he⟩ := begin_isolated hl level
      rw [he] at hrun
      cases hrun
      exact ⟨db, hdb, by simpa [Except.toOption] using ⟨hs.skipId, hs.nested⟩⟩
    | none =>
      rw [begin_nested hl] at hrun
      obtain ⟨db', hlegal, hopen⟩ := hs.nested.save hl (s.transactions.lastId + 1)
      exact .push [] hdb hs (by simp) hlegal rfl hopen hrun

/-- Closing the innermost level keeps the session in step, with no command or with one. -/
theorem InSync.close {issued : List TransactionHandle} {db db' : ServerTransaction}
    {r : Result Unit} (command : Option TransactionCommand)
    (hdb : ServerTransaction.after server.affected s.sent = some db)
    (hs : Synced s.transactions db issued)
    (hc : ∀ c ∈ command, db.next? c = some db') (hnone : command = none → db' = db)
    (hn : Nested s.transactions.lastSavepoint s.transactions.pop.levels db')
    (hrun : (closeLevel s.transactions.pop command.toList).runWith server s = (r, t)) :
    InSync server.affected t issued := by
  rw [runWith_closeLevel] at hrun
  cases command with
  | none =>
    cases hrun
    exact ⟨db, hdb, hs.popped, hnone rfl ▸ hn⟩
  | some c =>
    rcases hsend : (sendAll [c]).runWith server { s with transactions := s.transactions.pop } with
      ⟨e | u, u'⟩
    all_goals
      obtain ⟨hu, hdb'⟩ := send_legal hsend hdb (hc c rfl)
      simp only [Option.toList_some, hsend] at hrun
      cases hrun
    · exact ⟨db, hdb', hs⟩
    · refine ⟨db', hdb', ?_⟩
      rw [hu]
      exact ⟨hs.popped, hn⟩

/-- Committing keeps the session in step. -/
theorem InSync.commit {issued : List TransactionHandle} (h : InSync server.affected s issued)
    {handle : TransactionHandle} (hi : handle ∈ issued) {r : Result Unit}
    (hrun : (Session.commit handle).runWith server s = (r, t)) : InSync server.affected t issued := by
  obtain ⟨db, hdb, hs⟩ := h
  rw [runWith_commit, commit_eq] at hrun
  cases hc : s.transactions.ensureCurrent handle with
  | error e =>
    rw [hc] at hrun
    cases hrun
    exact ⟨db, hdb, hs⟩
  | ok u =>
    have hn := hs.nested
    rw [hs.current hi hc] at hn
    rw [hc] at hrun
    cases hsp : handle.savepoint with
    | none =>
      obtain ⟨hlegal, -, hrest⟩ := hn.close_root hsp
      refine .close (r := r) (some .commit) hdb hs (fun c hm => ?_) (by simp) hrest ?_
      · obtain rfl : TransactionCommand.commit = c := by simpa using hm
        exact hlegal
      · simpa [Except.map, TransactionHandle.isRoot, hsp] using hrun
    | some sp =>
      refine .close (r := r) none hdb hs (by simp) (fun _ => rfl)
        (hn.forget (by simp [hsp])) ?_
      simpa [Except.map, TransactionHandle.isRoot, hsp] using hrun

/-- Rolling back keeps the session in step. -/
theorem InSync.rollback {issued : List TransactionHandle} (h : InSync server.affected s issued)
    {handle : TransactionHandle} (hi : handle ∈ issued) {r : Result Unit}
    (hrun : (Session.rollback handle).runWith server s = (r, t)) : InSync server.affected t issued := by
  obtain ⟨db, hdb, hs⟩ := h
  rw [runWith_rollback, rollback_eq] at hrun
  cases hc : s.transactions.ensureCurrent handle with
  | error e =>
    rw [hc] at hrun
    cases hrun
    exact ⟨db, hdb, hs⟩
  | ok u =>
    have hn := hs.nested
    rw [hs.current hi hc] at hn
    rw [hc] at hrun
    obtain ⟨db', hlegal, hrest⟩ : ∃ db', db.next? (.rollback handle.savepoint) = some db' ∧
        Nested s.transactions.lastSavepoint s.transactions.pop.levels db' := by
      cases hsp : handle.savepoint with
      | none => exact ⟨none, (hn.close_root hsp).2.1, (hn.close_root hsp).2.2⟩
      | some sp => exact hn.rollback hsp
    refine .close (some (.rollback handle.savepoint)) hdb hs (fun c hm => ?_)
      (by simp) hrest hrun
    obtain rfl : TransactionCommand.rollback handle.savepoint = c := by simpa using hm
    exact hlegal

/-- Aborting keeps the session in step if its rollback goes through. -/
theorem InSync.abort {issued : List TransactionHandle} (h : InSync server.affected s issued)
    (hrun : Session.abort.runWith server s = (.ok (), t)) : InSync server.affected t issued := by
  obtain ⟨db, hdb, hs⟩ := h
  have hopen := (Nested.inStep hs.nested).open_iff
  simp only [Session.abort, TransactionStack.abort, runWith_bind, runWith_get, runWith_modify]
    at hrun
  cases hl : s.transactions.levels with
  | nil =>
    simp only [hl] at hrun
    cases hrun
    exact ⟨db, hdb, hs⟩
  | cons root nested =>
    have hsome : db ≠ none := fun e => by simpa [hl] using hopen.2 e
    obtain ⟨savepoints, rfl⟩ := Option.ne_none_iff_exists'.1 hsome
    simp only [hl] at hrun
    obtain ⟨ht, hdb'⟩ := send_legal hrun hdb rfl
    refine ⟨none, hdb', ?_⟩
    rw [ht]
    exact ⟨hs.mono (by simp) le_rfl, .closed⟩

inductive TransactionCall where
  | begin (isolation : Option Isolation)
  | commit (h : TransactionHandle)
  | rollback (h : TransactionHandle)
  | abort
  deriving DecidableEq

namespace TransactionCall

def handle? : TransactionCall → Option TransactionHandle
  | commit h | rollback h => some h
  | begin _ | abort => none

/-- What a call does; it gives the handles that it returns. -/
def action : TransactionCall → Action (List TransactionHandle)
  | begin isolation => do return [← beginTransaction isolation]
  | commit h => do Session.commit h; return []
  | rollback h => do Session.rollback h; return []
  | abort => do Session.abort; return []

end TransactionCall

/-- The states that a new session comes to by calls on its own handles, each call with a caller of
its own who may cancel at any time, and the handles returned until then. Statements may fail, but an
abort goes through. -/
inductive TransactionRun (server : Server) : Session → List TransactionHandle → Prop where
  | start {s : Session} (transactions_eq : s.transactions = {}) (sent_eq : s.sent = []) :
      TransactionRun server s []
  | call {s t : Session} {issued : List TransactionHandle} {call : TransactionCall}
      {cancelled : List Request → Bool} {r : Result (List TransactionHandle)}
      (before : TransactionRun server s issued) (own : ∀ h ∈ call.handle?, h ∈ issued)
      (run : call.action.runWith { server with cancelled } s = (r, t))
      (aborted : call = .abort → r.isOk = true) :
      TransactionRun server t (issued ++ (r.toOption.getD []))

/-- One call keeps the session in step. -/
theorem InSync.call {issued : List TransactionHandle} {call : TransactionCall}
    {r : Result (List TransactionHandle)} (hrun : call.action.runWith server s = (r, t))
    (h : InSync server.affected s issued) (own : ∀ h ∈ call.handle?, h ∈ issued)
    (aborted : call = .abort → r.isOk = true) :
    InSync server.affected t (issued ++ (r.toOption.getD [])) := by
  cases call with
  | begin isolation =>
    rcases of_bind hrun with ⟨e, hb, rfl⟩ | ⟨x, u, hb, hret⟩
    · simpa [Except.toOption] using h.begin hb
    · cases hret
      simpa [Except.toOption] using h.begin hb
  | commit handle =>
    rcases of_bind hrun with ⟨e, hb, rfl⟩ | ⟨x, u, hb, hret⟩
    · simpa [Except.toOption] using h.commit (own handle rfl) hb
    · cases hret
      simpa [Except.toOption] using h.commit (own handle rfl) hb
  | rollback handle =>
    rcases of_bind hrun with ⟨e, hb, rfl⟩ | ⟨x, u, hb, hret⟩
    · simpa [Except.toOption] using h.rollback (own handle rfl) hb
    · cases hret
      simpa [Except.toOption] using h.rollback (own handle rfl) hb
  | abort =>
    rcases of_bind hrun with ⟨e, hb, rfl⟩ | ⟨x, u, hb, hret⟩
    · cases aborted rfl
    · cases hret
      simpa [Except.toOption] using h.abort hb

theorem TransactionRun.inSync {issued : List TransactionHandle}
    (h : TransactionRun server s issued) : InSync server.affected s issued := by
  induction h with
  | start ht hsent =>
    refine ⟨none, by rw [hsent]; rfl, ?_⟩
    rw [ht]
    exact ⟨.new, .closed⟩
  | call _ own run aborted ih =>
    have := InSync.call run ih own aborted
    exact this

/-- Whatever statements fail, no command that was sent was illegal, and the stack agrees with the
transaction that the server has. -/
theorem stack_inStep {issued : List TransactionHandle} (h : TransactionRun server s issued) :
    ∃ db, ServerTransaction.after server.affected s.sent = some db ∧ InStep s.transactions db := by
  obtain ⟨db, hdb, hs⟩ := h.inSync
  exact ⟨db, hdb, hs.nested.inStep⟩

/-! ## A run to look at -/

/-- Makes calls one after the other, as long as they are on handles returned before and no abort
fails; gives the session and the handles. -/
def callAll (server : Server) : List TransactionCall → Session → List TransactionHandle →
    Option (Session × List TransactionHandle)
  | [], s, issued => some (s, issued)
  | c :: rest, s, issued =>
    let (r, t) := c.action.runWith server s
    if c.handle?.all issued.contains && (c != .abort || r.isOk) then
      callAll server rest t (issued ++ (r.toOption.getD []))
    else none

theorem TransactionRun.of_callAll {calls : List TransactionCall} :
    ∀ {s t : Session} {issued issued' : List TransactionHandle}, TransactionRun server s issued →
      callAll server calls s issued = some (t, issued') → TransactionRun server t issued' := by
  induction calls with
  | nil =>
    intro s t issued issued' h hc
    cases hc
    exact h
  | cons c rest ih =>
    intro s t issued issued' h hc
    rcases hrun : c.action.runWith server s with ⟨r, u⟩
    simp only [callAll, hrun] at hc
    split at hc
    · next hok =>
      simp only [Bool.and_eq_true, Bool.or_eq_true, bne_iff_ne, ne_eq] at hok
      refine ih (.call h (fun g hg => ?_) hrun fun he => ?_) hc
      · have := hok.1
        rw [Option.mem_def.1 hg] at this
        simpa using this
      · exact hok.2.resolve_left (not_not_intro he)
    · cases hc

def failingThird : Server where
  affected sent _ := if sent.length = 2 then .error (.database "deadlock victim") else .ok 0
  rows _ _ := .ok []
  cancelled _ := false

/-- The second level is begun twice, since its first savepoint fails. The third level is committed,
which the server does not hear of; the rollbacks after it go past its savepoint. -/
def nestedCalls : List TransactionCall :=
  [.begin (some .snapshot), .begin none, .begin none, .begin none, .commit ⟨3, some "sp_2"⟩,
    .begin none, .rollback ⟨4, some "sp_3"⟩, .rollback ⟨2, some "sp_1"⟩]

theorem stack_inStep_nestedCalls :
    ∃ s issued, TransactionRun failingThird s issued ∧ s.sent.length = 8 ∧
      s.transactions.levels = [⟨1, none⟩] ∧
      ∃ db, ServerTransaction.after failingThird.affected s.sent = some db ∧
        InStep s.transactions db := by
  obtain ⟨⟨s, issued⟩, hs, hsent, hlevels⟩ :
      ∃ p, callAll failingThird nestedCalls {} [] = some p ∧ p.1.sent.length = 8 ∧
        p.1.transactions.levels = [⟨1, none⟩] := by
    have h : (callAll failingThird nestedCalls {} []).any (fun p =>
        p.1.sent.length == 8 && p.1.transactions.levels == [⟨1, none⟩]) = true := by
      decide +kernel
    simpa [Option.any_eq_true] using h
  have hrun : TransactionRun failingThird s issued := .of_callAll (.start rfl rfl) hs
  exact ⟨s, issued, hrun, hsent, hlevels, stack_inStep hrun⟩

end Session

end Tsql
