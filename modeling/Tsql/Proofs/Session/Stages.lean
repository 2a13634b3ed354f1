import Tsql.Proofs.Session.Requests

/-!
# Requests in stages

An operation that sends one request after another is meant to go through a list of stages.
`Session.Sends` says how far it came: it has sent the requests of the first stages of its list, none
after a cancellation or a failed one, and all of them unless it failed itself. The relation is closed
under doing one operation after another.
-/

namespace Tsql

open ActionOn

namespace Server

variable {server : Server} {sent log₁ log₂ : List Request} {q : Request}

def Answers (server : Server) (sent : List Request) (q : Request) : Prop :=
  if q.returnsRows then ∃ rows, server.rows sent q = .ok rows
  else ∃ n, server.affected sent q = .ok n

/-- Each of the requests that follow others is answered. -/
def AnswersAll (server : Server) (sent log : List Request) : Prop :=
  ∀ pre q post, log = pre ++ q :: post → server.Answers (sent ++ pre) q

/-- Requests that follow others end where the caller has cancelled, and behind one that failed. -/
structure Paces (server : Server) (sent log : List Request) : Prop where
  cancelled : ∀ pre post, log = pre ++ post → server.cancelled (sent ++ pre) = true → post = []
  failed : ∀ pre q post, log = pre ++ q :: post → ¬ server.Answers (sent ++ pre) q → post = []

theorem AnswersAll.nil : server.AnswersAll sent [] := by
  intro pre q post h
  simp at h

theorem AnswersAll.append (h₁ : server.AnswersAll sent log₁)
    (h₂ : server.AnswersAll (sent ++ log₁) log₂) : server.AnswersAll sent (log₁ ++ log₂) := by
  intro pre q post h
  rcases List.append_eq_append_iff.1 h with ⟨mid, rfl, hlog⟩ | ⟨mid, rfl, hlog⟩
  · rw [← List.append_assoc]
    exact h₂ mid q post hlog
  · cases mid with
    | nil =>
      have := h₂ [] q post hlog.symm
      simpa using this
    | cons q' mid =>
      obtain ⟨rfl, rfl⟩ := List.cons.inj hlog
      exact h₁ pre q mid rfl

theorem AnswersAll.of_append (h : server.AnswersAll sent (log₁ ++ log₂)) :
    server.AnswersAll (sent ++ log₁) log₂ := by
  rintro pre q post rfl
  rw [List.append_assoc]
  exact h _ q post (List.append_assoc ..).symm

theorem answersAll_singleton : server.AnswersAll sent [q] ↔ server.Answers sent q := by
  constructor
  · intro h
    simpa using h [] q [] rfl
  · intro h pre q' post hlog
    obtain ⟨rfl, rfl, rfl⟩ : pre = [] ∧ q = q' ∧ post = [] := by
      cases pre <;> simp_all
    simpa using h

namespace Paces

theorem nil : server.Paces sent [] := ⟨by simp, by simp⟩

theorem singleton (h : server.cancelled sent = false) : server.Paces sent [q] := by
  constructor
  · intro pre post hlog hcancelled
    cases pre with
    | nil => simp [h] at hcancelled
    | cons q' pre => simp_all
  · intro pre q' post hlog _
    cases pre <;> simp_all

theorem append (hall : server.AnswersAll sent log₁) (h₁ : server.Paces sent log₁)
    (h₂ : server.Paces (sent ++ log₁) log₂) : server.Paces sent (log₁ ++ log₂) := by
  constructor
  · intro pre post h hcancelled
    rcases List.append_eq_append_iff.1 h with ⟨mid, rfl, hlog⟩ | ⟨mid, rfl, rfl⟩
    · exact h₂.cancelled mid post hlog (by rwa [List.append_assoc])
    · obtain rfl := h₁.cancelled pre mid rfl hcancelled
      rw [List.append_nil] at h₂
      exact h₂.cancelled [] log₂ rfl (by rwa [List.append_nil])
  · intro pre q post h hfailed
    rcases List.append_eq_append_iff.1 h with ⟨mid, rfl, hlog⟩ | ⟨mid, rfl, hlog⟩
    · exact h₂.failed mid q post hlog (by rwa [List.append_assoc])
    · cases mid with
      | nil => exact h₂.failed [] q post hlog.symm (by simpa using hfailed)
      | cons q' mid =>
        obtain ⟨rfl, rfl⟩ := List.cons.inj hlog
        exact absurd (hall pre q mid rfl) hfailed

end Paces

end Server

inductive Stage where
  | create (m : Model)
  | execute (c : Command)
  | query (c : Command)
  | drop (m : Model)

/-- A request that a target writes for a stage. -/
def Stage.SentAs (t : Target) : Stage → Request → Prop
  | create m, q => q.returnsRows = false ∧ ∃ b, t.createTableSql b m true = .ok q.sql
  | execute c, q => q.returnsRows = false ∧ ∃ text, t.generate c = .ok text ∧ text.sql = q.sql
  | query c, q => q.returnsRows = true ∧ ∃ text, t.generate c = .ok text ∧ text.sql = q.sql
  | drop m, q => q.returnsRows = false ∧ t.dropTableSql m true = .ok q.sql

namespace Session

variable {α β : Type} {server : Server} {t : Target} {full full₁ full₂ : List Stage}
  {before between after : List Request}

/-- What an operation with a list of stages has sent. -/
structure Sends (server : Server) (t : Target) (full : List Stage) (before after : List Request)
    (r : Result α) (stages : List Stage) (log : List Request) : Prop where
  sent_eq : after = before ++ log
  sentAs : List.Forall₂ (Stage.SentAs t) stages log
  paces : server.Paces before log
  isPrefix : stages <+: full
  complete : ∀ x, r = .ok x → stages = full ∧ server.AnswersAll before log

/-- The operation has given a value if all stages were answered. -/
structure SendsExactly (server : Server) (t : Target) (full : List Stage)
    (before after : List Request) (r : Result α) (stages : List Stage) (log : List Request) : Prop
    extends Sends server t full before after r stages log where
  ok : stages = full → server.AnswersAll before log → ∃ x, r = .ok x

namespace Sends

variable {stages stages₁ stages₂ : List Stage} {log log₁ log₂ : List Request}

theorem silent {r : Result α} (h : after = before) : Sends server t [] before after r [] [] :=
  ⟨by simp [h], .nil, .nil, List.prefix_rfl, fun _ _ => ⟨rfl, .nil⟩⟩

/-- An operation that failed before its first stage. -/
theorem failed (e : Error) (h : after = before) :
    Sends server t full before after (.error e : Result α) [] [] :=
  ⟨by simp [h], .nil, .nil, List.nil_prefix, nofun⟩

/-- An operation that failed did not come to what was to be done next. -/
theorem stop {e : Error}
    (h : Sends server t full₁ before after (.error e : Result α) stages log) :
    Sends server t (full₁ ++ full₂) before after (.error e : Result β) stages log :=
  ⟨h.sent_eq, h.sentAs, h.paces, h.isPrefix.trans (List.prefix_append ..), nofun⟩

/-- Another result is given, but no value that was not there. -/
theorem returns {r : Result α} {r' : Result β} (h : Sends server t full before after r stages log)
    (hr : ∀ y, r' = .ok y → ∃ x, r = .ok x) : Sends server t full before after r' stages log :=
  ⟨h.sent_eq, h.sentAs, h.paces, h.isPrefix, fun y hy =>
    let ⟨x, hx⟩ := hr y hy
    h.complete x hx⟩

theorem andThen {x : α} {r : Result β}
    (h₁ : Sends server t full₁ before between (.ok x) stages₁ log₁)
    (h₂ : Sends server t full₂ between after r stages₂ log₂) :
    Sends server t (full₁ ++ full₂) before after r (stages₁ ++ stages₂) (log₁ ++ log₂) := by
  obtain ⟨rfl, hsent, hpaces, -, hcomplete⟩ := h₁
  obtain ⟨rfl, hall⟩ := hcomplete x rfl
  refine ⟨by rw [h₂.sent_eq, List.append_assoc], List.rel_append hsent h₂.sentAs,
    .append hall hpaces h₂.paces, List.prefix_append_right_inj _ |>.2 h₂.isPrefix, ?_⟩
  intro y hy
  obtain ⟨rfl, hrest⟩ := h₂.complete y hy
  exact ⟨rfl, hall.append hrest⟩

/-- An operation that stopped before its last stage. -/
theorem stopBefore {e : Error}
    (h : Sends server t full₁ before after (.error e : Result α) stages log) (hne : full₂ ≠ []) :
    SendsExactly server t (full₁ ++ full₂) before after (.error e : Result β) stages log := by
  refine ⟨h.stop, fun hall => ?_⟩
  have hle := h.isPrefix.length_le
  have hpos := List.length_pos_iff.2 hne
  rw [hall, List.length_append] at hle
  omega

theorem andThenExactly {x : α} {r : Result β}
    (h₁ : Sends server t full₁ before between (.ok x) stages₁ log₁)
    (h₂ : SendsExactly server t full₂ between after r stages₂ log₂) :
    SendsExactly server t (full₁ ++ full₂) before after r (stages₁ ++ stages₂) (log₁ ++ log₂) := by
  refine ⟨h₁.andThen h₂.toSends, fun hall hanswers => ?_⟩
  obtain ⟨rfl, -⟩ := h₁.complete x rfl
  have hlast := hanswers.of_append
  rw [← h₁.sent_eq] at hlast
  exact h₂.ok (List.append_cancel_left hall) hlast

end Sends

namespace SendsExactly

variable {stages : List Stage} {log : List Request}

theorem returns {r : Result α} {r' : Result β}
    (h : SendsExactly server t full before after r stages log)
    (hr : (∃ y, r' = .ok y) ↔ ∃ x, r = .ok x) :
    SendsExactly server t full before after r' stages log :=
  ⟨h.toSends.returns fun y hy => hr.1 ⟨y, hy⟩, fun hall hanswers => hr.2 (h.ok hall hanswers)⟩

/-- One request, sent unless it could not be made or the caller has cancelled. -/
theorem of_attempt (stage : Stage) {s u : Session} {answer : Request → Result α}
    {made : Result Request} {r : Result α} (h : attempt server s answer made = (r, u))
    (hmade : ∀ q, made = .ok q → stage.SentAs t q ∧
      ((∃ x, answer q = .ok x) ↔ server.Answers s.sent q)) :
    ∃ stages log, SendsExactly server t [stage] s.sent u.sent r stages log := by
  cases made with
  | error e =>
    obtain ⟨rfl, rfl⟩ := Prod.mk.inj h
    exact ⟨[], [], .failed e rfl, nofun⟩
  | ok q =>
    simp only [attempt] at h
    obtain ⟨hsent, hanswers⟩ := hmade q rfl
    split at h <;> obtain ⟨rfl, rfl⟩ := Prod.mk.inj h
    · exact ⟨[], [], .failed _ rfl, nofun⟩
    next hcancelled =>
      refine ⟨[stage], [q], ⟨rfl, .cons hsent .nil, .singleton (Bool.not_eq_true _ ▸ hcancelled),
        List.prefix_rfl, fun x hx => ⟨rfl, ?_⟩⟩, fun _ h => ?_⟩
      · exact Server.answersAll_singleton.2 (hanswers.1 ⟨x, hx⟩)
      · exact hanswers.2 (Server.answersAll_singleton.1 h)

end SendsExactly

variable {s t : Session} {target : Target} {m : Model} {c : Command}

theorem sends_executeOnce {r : Result Nat} (h : (executeOnce c).runWith server s = (r, t)) :
    ∃ stages log, SendsExactly server s.target [.execute c] s.sent t.sent r stages log := by
  rw [runWith_executeOnce] at h
  refine SendsExactly.of_attempt (.execute c) h fun q hq => ?_
  obtain ⟨text, htext, -, hsql, hreturns, -⟩ := requestOf_ok hq
  exact ⟨⟨hreturns, text, htext, hsql.symm⟩, by simp [Server.Answers, hreturns]⟩

theorem sends_queryOnce {r : Result (List ResultRow)}
    (h : (queryOnce c).runWith server s = (r, t)) :
    ∃ stages log, SendsExactly server s.target [.query c] s.sent t.sent r stages log := by
  rw [runWith_queryOnce] at h
  refine SendsExactly.of_attempt (.query c) h fun q hq => ?_
  obtain ⟨text, htext, -, hsql, hreturns, -⟩ := requestOf_ok hq
  exact ⟨⟨hreturns, text, htext, hsql.symm⟩, by simp [Server.Answers, hreturns]⟩

theorem exists_map_ok {r : Result α} {f : α → β} : (∃ y, r.map f = .ok y) ↔ ∃ x, r = .ok x := by
  cases r <;> simp [Except.map]

theorem sends_text {stage : Stage} {made : Result String} {r : Result Unit}
    (h : attempt server s (fun q => (server.affected s.sent q).map fun _ => ())
      (made.map fun sql => s.request false sql []) = (r, t))
    (hmade : ∀ q : Request, made = .ok q.sql → q.returnsRows = false → stage.SentAs target q) :
    ∃ stages log, SendsExactly server target [stage] s.sent t.sent r stages log := by
  refine SendsExactly.of_attempt stage h fun q hq => ?_
  obtain ⟨sql, hsql, rfl⟩ := Result.map_eq_ok hq
  exact ⟨hmade _ hsql rfl, by rw [exists_map_ok]; simp [Server.Answers, Session.request]⟩

theorem sends_createTemp {r : Result String} (h : (createTemp m).runWith server s = (r, t)) :
    ∃ stages log, SendsExactly server (s.naming m).target [.create m] s.sent t.sent r stages log := by
  rw [runWith_createTemp] at h
  cases hc : ensureCreatable s m with
  | error e =>
    simp only [hc] at h
    obtain ⟨rfl, rfl⟩ := Prod.mk.inj h
    exact ⟨[], [], .failed e rfl, nofun⟩
  | ok _ =>
    simp only [hc] at h
    rcases ha : sendCreate server (s.naming m) m with ⟨r', u⟩
    obtain ⟨stages, log, hs⟩ := sends_text ha fun q hq hcounted =>
      show (Stage.create m).SentAs (s.naming m).target q from ⟨hcounted, _, hq⟩
    rw [ha] at h
    refine ⟨stages, log, ?_⟩
    cases r' <;> obtain ⟨rfl, rfl⟩ := Prod.mk.inj h <;> exact hs.returns (by simp)

/-- The name of a table that can be created is given away, even if the table is not created. -/
theorem supply_createTemp {x : Unit} {r : Result String} (hc : ensureCreatable s m = .ok x)
    (h : (createTemp m).runWith server s = (r, t)) :
    t.temps.supply = (s.temps.realize m).2.supply := by
  rw [runWith_createTemp, hc] at h
  dsimp only at h
  rcases ha : sendCreate server (s.naming m) m with ⟨e | y, u⟩ <;> rw [ha] at h <;>
    obtain ⟨-, rfl⟩ := Prod.mk.inj h <;>
    rcases of_attempt ha with ⟨rfl, -⟩ | ⟨q, -, -, rfl, -⟩ <;> rfl

theorem runWith_dropTemp (m : Model) :
    (dropTemp m).runWith server s =
      match attempt server s (fun q => (server.affected s.sent q).map fun _ => ())
        ((s.target.dropTableSql m true).map fun sql => s.request false sql []) with
      | (.error e, u) => (.error e, u)
      | (.ok _, u) => (.ok (), { forgetTemp m.id u with
          liveTemps := u.liveTemps.filter fun (i, _) => i ≠ m.id, cache := [] }) := by
  simp only [dropTemp, runWith_bind, runWith_get, runWith_lift, runWith_sendCounted]
  cases s.target.dropTableSql m true with
  | error e => rfl
  | ok sql =>
    by_cases hc : server.cancelled s.sent = true
    · simp [attempt, Except.map, hc]
    · cases h : server.affected s.sent (s.request false sql []) <;> simp [attempt, Except.map, hc, h]

theorem sends_dropTemp {r : Result Unit} (h : (dropTemp m).runWith server s = (r, t)) :
    ∃ stages log, SendsExactly server s.target [.drop m] s.sent t.sent r stages log := by
  rw [runWith_dropTemp] at h
  rcases ha : attempt server s (fun q => (server.affected s.sent q).map fun _ => ())
    ((s.target.dropTableSql m true).map fun sql => s.request false sql []) with ⟨r', u⟩
  obtain ⟨stages, log, hs⟩ := sends_text ha fun q hq hcounted =>
    show (Stage.drop m).SentAs s.target q from ⟨hcounted, hq⟩
  rw [ha] at h
  refine ⟨stages, log, ?_⟩
  cases r' <;> obtain ⟨rfl, rfl⟩ := Prod.mk.inj h <;> exact hs.returns (by simp)

/-- Names are not given back when a table is dropped. -/
theorem preserves_dropTemp (supply : UniqueNames) (m : Model) :
    (dropTemp m).Preserves fun s => s.temps.supply = supply := fun server =>
  show (dropTemp m).Keeps server _ from .bind .get fun _ => .bind (.lift _) fun _ =>
    .bind (keeps_sendCounted (fun _ _ _ h => h) _ _) fun _ => .of_modify fun _ h => h

end Session

end Tsql
