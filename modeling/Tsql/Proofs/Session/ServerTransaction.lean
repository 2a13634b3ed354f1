import Mathlib.Data.List.TakeWhile
import Tsql.Session.Basic

/-!
# The transaction of a connection as the server has it

`ServerTransaction` is what a server knows of the transaction of one connection: nothing, or an open
transaction with its savepoints. `next?` is the effect of a command, and says which commands are
illegal. A server sees texts, so `TransactionCommand.read?` reads the command off a text, and
`ServerTransaction.after` follows the texts that were sent: a command that the server answered with
an error had no effect, and nothing at all comes out once an illegal command was sent.
-/

namespace Tsql

open Text

namespace TransactionCommand

def savepointAfter? (words sql : String) : Option String :=
  let body := (sql.toList.drop (words.length + 1)).dropLast.dropLast
  let savepoint := String.ofList (undoubled ']' body)
  if sql = words ++ quoteIdentifier savepoint ++ ";" then some savepoint else none

def unnamed : List (String × TransactionCommand) :=
  [("BEGIN TRANSACTION;", begin), ("COMMIT TRANSACTION;", commit),
    ("ROLLBACK TRANSACTION;", rollback none),
    ("SET TRANSACTION ISOLATION LEVEL READ UNCOMMITTED;", isolate .readUncommitted),
    ("SET TRANSACTION ISOLATION LEVEL READ COMMITTED;", isolate .readCommitted),
    ("SET TRANSACTION ISOLATION LEVEL REPEATABLE READ;", isolate .repeatableRead),
    ("SET TRANSACTION ISOLATION LEVEL SNAPSHOT;", isolate .snapshot),
    ("SET TRANSACTION ISOLATION LEVEL SERIALIZABLE;", isolate .serializable)]

/-- The command that a text is, if it is one that concerns transactions. -/
def read? (sql : String) : Option TransactionCommand :=
  match savepointAfter? "SAVE TRANSACTION " sql, savepointAfter? "ROLLBACK TRANSACTION " sql with
  | some s, _ => some (save s)
  | none, some s => some (rollback (some s))
  | none, none => unnamed.lookup sql

theorem savepointAfter?_quoted (words s : String) :
    savepointAfter? words (words ++ quoteIdentifier s ++ ";") = some s := by
  have hbody : ((words ++ quoteIdentifier s ++ ";").toList.drop (words.length + 1)).dropLast.dropLast
      = doubled ']' s.toList := by
    simp only [quoteIdentifier, String.toList_append, String.toList_ofList, List.append_assoc,
      ← String.length_toList]
    rw [← List.drop_drop, List.drop_left]
    simp [List.dropLast_append_of_ne_nil]
  simp only [savepointAfter?, hbody, undoubled_doubled, String.ofList_toList, if_true]

theorem savepointAfter?_eq_none {words sql : String} {c d : Char}
    (hw : words.toList.head? = some c) (hs : sql.toList.head? = some d) (h : c ≠ d) :
    savepointAfter? words sql = none := by
  refine if_neg fun he => h ?_
  have hd := congrArg (fun s : String => s.toList.head?) he
  simp only [String.toList_append, List.append_assoc, List.head?_append, hw, hs,
    Option.some_or, Option.some.injEq] at hd
  exact hd.symm

/-- A server reads back what a session writes. -/
theorem read?_sql (c : TransactionCommand) : read? c.sql = some c := by
  cases c with
  | isolate level => cases level <;> decide +kernel
  | begin => decide +kernel
  | commit => decide +kernel
  | save s =>
    have hs : savepointAfter? "SAVE TRANSACTION " (save s).sql = some s :=
      savepointAfter?_quoted _ s
    simp only [read?, hs]
  | rollback s =>
    cases s with
    | none => decide +kernel
    | some s =>
      have hr : ("ROLLBACK TRANSACTION " ++ quoteIdentifier s ++ ";").toList.head? = some 'R' := by
        simp only [String.toList_append, String.reduceToList]
        simp
      have hn : savepointAfter? "SAVE TRANSACTION " (rollback (some s)).sql = none :=
        savepointAfter?_eq_none (by decide +kernel : _ = some 'S') hr (by decide)
      have hs : savepointAfter? "ROLLBACK TRANSACTION " (rollback (some s)).sql = some s :=
        savepointAfter?_quoted _ s
      simp only [read?, hn, hs]

end TransactionCommand

/-- The transaction of a connection: none, or an open one with its savepoints, the first one first.
-/
abbrev ServerTransaction := Option (List String)

namespace ServerTransaction

def keepTo (savepoint : String) (savepoints : List String) : List String :=
  (savepoints.reverse.dropWhile (· ≠ savepoint)).reverse

/-- The state after a command; there is none where the command is illegal. -/
def next? (db : ServerTransaction) : TransactionCommand → Option ServerTransaction
  | .isolate _ => some db
  | .begin => match db with
    | none => some (some [])
    | some _ => none
  | .save s => db.map fun savepoints => some (savepoints ++ [s])
  | .commit | .rollback none => db.map fun _ => none
  | .rollback (some s) => db.bind fun savepoints =>
    if s ∈ savepoints then some (some (keepTo s savepoints)) else none

variable (answer : List Request → Request → Result Nat)

/-- The state after one more request, nothing where that is an illegal command. A request that fails
has no effect. -/
def follow (sent : List Request) (db : ServerTransaction) (r : Request) :
    Option ServerTransaction :=
  match TransactionCommand.read? r.sql with
  | none => some db
  | some c => (db.next? c).map fun after => if (answer sent r).isOk then after else db

def followAll (sent : List Request) (db : ServerTransaction) :
    List Request → Option ServerTransaction
  | [] => some db
  | r :: rest => (follow answer sent db r).bind fun db => followAll (sent ++ [r]) db rest

/-- The state after all requests of a connection, nothing once an illegal command was sent. -/
def after (sent : List Request) : Option ServerTransaction := followAll answer [] none sent

theorem followAll_concat (sent : List Request) (db : ServerTransaction) (rs : List Request)
    (r : Request) :
    followAll answer sent db (rs ++ [r]) =
      (followAll answer sent db rs).bind fun db => follow answer (sent ++ rs) db r := by
  induction rs generalizing sent db with
  | nil => cases h : follow answer sent db r <;> simp [followAll, h]
  | cons q rs ih => cases h : follow answer sent db q <;> simp [followAll, h, ih]

theorem after_concat (sent : List Request) (r : Request) :
    after answer (sent ++ [r]) = (after answer sent).bind fun db => follow answer sent db r := by
  simp [after, followAll_concat]

/-- Sending a legal command: it takes effect unless the server fails it. -/
theorem after_command {sent : List Request} {r : Request} {c : TransactionCommand}
    {db db' : ServerTransaction} (h : after answer sent = some db) (hr : r.sql = c.sql)
    (hc : db.next? c = some db') :
    after answer (sent ++ [r]) = some (if (answer sent r).isOk then db' else db) := by
  rw [after_concat, h, Option.bind_some, follow, hr, TransactionCommand.read?_sql]
  simp [hc]

theorem keepTo_append {savepoint : String} {a b : List String} (h : savepoint ∉ b) :
    keepTo savepoint (a ++ savepoint :: b) = a ++ [savepoint] := by
  have hb : b.reverse.dropWhile (· ≠ savepoint) = [] := by
    rw [List.dropWhile_eq_nil_iff]
    intro x hx
    have : x ≠ savepoint := fun e => h (e ▸ List.mem_reverse.1 hx)
    simpa using this
  rw [keepTo, List.reverse_append, List.reverse_cons, List.append_assoc,
    List.dropWhile_append, hb]
  simp

end ServerTransaction

end Tsql
