import Tsql.Proofs.Render.MoreTables
import Tsql.Proofs.Session.Calls

/-!
# Rendered texts stay right

A session renders a command tree once and keeps the text, while temporary tables come and go and
parameters change their values. `Session.IsFresh` says that each text is what rendering would give
now. A rendering knows nothing of values; a new table leaves texts as they are, whether it comes to
stay or is taken back at once; and with a table all texts go.
-/

namespace Tsql.Session

variable {commands : StatementId → Command} {s : Session}

/-- Each text that is kept is what rendering its command tree gives now. -/
def IsFresh (commands : StatementId → Command) (s : Session) : Prop :=
  ∀ e ∈ s.cache, s.target.generate (commands e.1) = .ok e.2

/-- Texts stay right while names are added. -/
theorem IsFresh.withTemps (h : s.IsFresh commands) {temps : TempTables}
    (hkept : s.temps.IsKeptBy temps) :
    IsFresh commands { s with temps } := by
  intro e he
  have htarget : ({ s with temps } : Session).target = { s.target with temps } := rfl
  rw [htarget]
  exact Target.generate_withTemps (t := s.target) hkept (h e he)

theorem IsFresh.invariant (commands : StatementId → Command) :
    Invariant commands (IsFresh commands) where
  noteSent _ _ h := h
  bind _ _ h := h
  supply _ _ h := h
  transactions _ _ h := h
  cached s tree text hg h := by
    intro e he
    rcases List.mem_cons.1 he with rfl | he
    · exact hg
    · exact h e he
  invalidated s tree h e he := h e (List.mem_of_mem_filter he)
  created s m q hnew h := h.withTemps (.realize hnew)
  notCreated s m hnew h := h.withTemps (.forget_realize hnew)
  dropped s m h := by
    intro e he
    cases he

/-- After any calls in any order, whatever the servers answered, each text that a session keeps is
what its command tree would be rendered to, with the parameters in the same order. -/
theorem afterCalls_isFresh {start : Session} (hstart : start.cache = []) (calls : List (Call × Server)) :
    (start.afterCalls commands calls).IsFresh commands :=
  (IsFresh.invariant commands).afterCalls (by simp [IsFresh, hstart]) calls

def staging : Model :=
  { Model.empty ⟨1⟩ "Staging" .tempTable with
    columns := [{ id := ⟨1⟩, name := "Amount", type := .int32 }] }

/-- A server that answers every request or refuses every one. -/
def constantServer (answers : Bool) : Server where
  affected _ _ := if answers then .ok 0 else .error (.database "refused")
  rows _ _ := if answers then .ok [] else .error (.database "refused")
  cancelled _ := false

/-- The table is created and read, then a second one is refused. -/
def stagingCalls : List (Call × Server) :=
  [(.createTemp staging, constantServer true), (.query ⟨1⟩, constantServer true),
    (.createTemp (staging.cloneAs ⟨2⟩ "Other"), constantServer false),
    (.setParam ⟨1⟩ (.int32 5), constantServer true), (.query ⟨1⟩, constantServer false)]

theorem afterCalls_isFresh_staging :
    (afterCalls (fun _ => .query (.table staging)) {} stagingCalls).cache =
        [(⟨1⟩, ⟨"SELECT [Staging].[Amount]\nFROM [#Staging] [Staging];", []⟩)] ∧
      (afterCalls (fun _ => .query (.table staging)) {} stagingCalls).IsFresh
        fun _ => .query (.table staging) :=
  ⟨by decide +kernel, afterCalls_isFresh rfl stagingCalls⟩

end Tsql.Session
