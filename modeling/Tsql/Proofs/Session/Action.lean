import Tsql.Session.Tables

/-!
# Running operations

`ActionOn.runWith` against the operations that actions are made of. `runWith_bind` follows a sequence
step by step, `of_bind` takes a finished sequence apart: it stopped in its first part, or the first
part gave a value and the second part went on from there. `Preserves` is what holds of the state
before and after, however far the operation comes, `Keeps` the same with one server. The lemmas on
sending say what one request does: a cancelled caller sends nothing, any other request is noted before
the server answers it.
-/

namespace Tsql

namespace ActionOn

variable {σ α β : Type} (server : Server) (s : σ)

@[simp] theorem runWith_pure (a : α) : (pure a : ActionOn σ α).runWith server s = (.ok a, s) := rfl

@[simp] theorem runWith_get : (get : ActionOn σ σ).runWith server s = (.ok s, s) := rfl

@[simp] theorem runWith_set (t : σ) :
    (set t : ActionOn σ Unit).runWith server s = (.ok (), t) := rfl

@[simp] theorem runWith_modify (f : σ → σ) :
    (modify f : ActionOn σ Unit).runWith server s = (.ok (), f s) := rfl

@[simp] theorem runWith_read :
    (read : ActionOn σ Server).runWith server s = (.ok server, s) := rfl

@[simp] theorem runWith_throw (e : Error) :
    (throw e : ActionOn σ α).runWith server s = (.error e, s) := rfl

@[simp] theorem runWith_lift (r : Result α) :
    (liftM r : ActionOn σ α).runWith server s = (r, s) := rfl

theorem runWith_bind (a : ActionOn σ α) (f : α → ActionOn σ β) :
    (a >>= f).runWith server s = match a.runWith server s with
      | (.ok x, t) => (f x).runWith server t
      | (.error e, t) => (.error e, t) := by
  have h : (a >>= f).runWith server s = match a.runWith server s with
      | (x, t) => ExceptT.bindCont (m := StateM σ) (fun y => f y server) x t := rfl
  rw [h]
  rcases a.runWith server s with ⟨x | x, t⟩ <;> rfl

theorem runWith_tryCatch (a : ActionOn σ α) (f : Error → ActionOn σ α) :
    (tryCatch a f).runWith server s = match a.runWith server s with
      | (.ok x, t) => (.ok x, t)
      | (.error e, t) => (f e).runWith server t := by
  have h : (tryCatch a f).runWith server s =
      (ExceptT.tryCatch (m := StateM σ) (a server) (fun e => f e server)) s := rfl
  have ha : a.runWith server s = a server s := rfl
  rw [h, ha]
  simp only [ExceptT.tryCatch, ExceptT.mk, bind, StateT.bind]
  rcases a server s with ⟨x | x, t⟩ <;> rfl

variable {server s}

/-- A finished sequence stopped in its first part or went on from the value that part gave. -/
theorem of_bind {a : ActionOn σ α} {f : α → ActionOn σ β} {r : Result β} {t : σ}
    (h : (a >>= f).runWith server s = (r, t)) :
    (∃ e, a.runWith server s = (.error e, t) ∧ r = .error e) ∨
      ∃ x u, a.runWith server s = (.ok x, u) ∧ (f x).runWith server u = (r, t) := by
  rw [runWith_bind] at h
  rcases ha : a.runWith server s with ⟨e | x, u⟩ <;> rw [ha] at h
  · cases h
    exact .inl ⟨e, rfl, rfl⟩
  · exact .inr ⟨x, u, rfl, h⟩

/-- Whatever the server answers and wherever the operation stops, a property of the state is kept. -/
def Preserves (P : σ → Prop) (a : ActionOn σ α) : Prop :=
  ∀ server s, P s → P (a.runWith server s).2

def Keeps (server : Server) (P : σ → Prop) (a : ActionOn σ α) : Prop :=
  ∀ s, P s → P (a.runWith server s).2

namespace Keeps

variable {P : σ → Prop}

theorem pure (x : α) : (Pure.pure x : ActionOn σ α).Keeps server P := fun _ h => h

theorem get : (MonadState.get : ActionOn σ σ).Keeps server P := fun _ h => h

theorem lift (r : Result α) : (liftM r : ActionOn σ α).Keeps server P := fun _ h => h

theorem of_modify {f : σ → σ} (hf : ∀ s, P s → P (f s)) :
    (modify f : ActionOn σ Unit).Keeps server P := fun s h => hf s h

theorem bind {a : ActionOn σ α} {f : α → ActionOn σ β} (ha : a.Keeps server P)
    (hf : ∀ x, (f x).Keeps server P) : (a >>= f).Keeps server P := by
  intro s h
  have ha := ha s h
  rw [runWith_bind]
  rcases hr : a.runWith server s with ⟨e | x, t⟩ <;> rw [hr] at ha
  · exact ha
  · exact hf x t ha

theorem of_get {f : σ → ActionOn σ α} (hf : ∀ s, P s → P ((f s).runWith server s).2) :
    (MonadState.get >>= f).Keeps server P := hf

end Keeps

end ActionOn

namespace Session

open ActionOn

variable {server : Server} {s t : Session}

@[simp] theorem noteSent_sent (s : Session) (r : Request) :
    (s.noteSent r).sent = s.sent ++ [r] := rfl

@[simp] theorem noteSent_transactions (s : Session) (r : Request) :
    (s.noteSent r).transactions = s.transactions := rfl

theorem runWith_sendCounted (sql : String) (params : List BoundParam) :
    (sendCounted sql params).runWith server s =
      if server.cancelled s.sent then (.error .cancelled, s)
      else (server.affected s.sent (s.request false sql params),
        s.noteSent (s.request false sql params)) := by
  cases hc : server.cancelled s.sent <;>
    simp [sendCounted, ensureNotCancelled, runWith_bind, hc]

theorem runWith_sendReading (sql : String) (params : List BoundParam) :
    (sendReading sql params).runWith server s =
      if server.cancelled s.sent then (.error .cancelled, s)
      else (server.rows s.sent (s.request true sql params),
        s.noteSent (s.request true sql params)) := by
  cases hc : server.cancelled s.sent <;>
    simp [sendReading, ensureNotCancelled, runWith_bind, hc]

theorem runWith_undoingOnError {α : Type} (undo : Session → Session) (a : Action α) :
    (undoingOnError undo a).runWith server s = match a.runWith server s with
      | (.ok x, t) => (.ok x, t)
      | (.error e, t) => (.error e, undo t) := by
  rw [undoingOnError, runWith_tryCatch]
  rcases a.runWith server s with ⟨e | x, t⟩ <;> simp [runWith_bind]

section

variable {P : Session → Prop}
  (hsent : ∀ s r, server.cancelled s.sent = false → P s → P (s.noteSent r))

include hsent

theorem keeps_sendCounted (sql : String) (params : List BoundParam) :
    (sendCounted sql params).Keeps server P := by
  intro s h
  rw [runWith_sendCounted]
  split
  · exact h
  · next hc => exact hsent s _ (Bool.not_eq_true _ ▸ hc) h

theorem keeps_sendReading (sql : String) (params : List BoundParam) :
    (sendReading sql params).Keeps server P := by
  intro s h
  rw [runWith_sendReading]
  split
  · exact h
  · next hc => exact hsent s _ (Bool.not_eq_true _ ▸ hc) h

theorem keeps_sendAll (commands : List TransactionCommand) :
    (sendAll commands).Keeps server P := by
  induction commands with
  | nil => exact .pure ()
  | cons c r ih => exact .bind (keeps_sendCounted hsent _ _) fun _ => ih

end

theorem keeps_undoingOnError {P : Session → Prop} {α : Type} {undo : Session → Session}
    {a : Action α} (ha : a.Keeps server P) (hu : ∀ s, P s → P (undo s)) :
    (undoingOnError undo a).Keeps server P := by
  intro s h
  have ha := ha s h
  rw [runWith_undoingOnError]
  rcases hr : a.runWith server s with ⟨e | x, t⟩ <;> rw [hr] at ha
  · exact hu t ha
  · exact ha

end Session

end Tsql
