import Tsql.Proofs.BulkInsert.Run

/-!
# All or nothing

Whatever the server answers and wherever a run stops, its rows are as they were, or every one of them
holds the key that the server returned for it.
-/

namespace Tsql

namespace BulkInsert

/-- The new values in the answer to one request of a run. -/
def Returned (server : Server) (before after : Session) (t : ValueType) (keys : List Value) :
    Prop :=
  ∃ (log rest : List Request) (q : Request) (answer : List ResultRow),
    after.sent = before.sent ++ log ++ q :: rest ∧ q.returnsRows = true ∧
    server.rows (before.sent ++ log) q = .ok answer ∧
    answer.mapM (fun row => row.decodeNamed "NewValue" t) = .ok keys

/-- After a run the data are as they were before, or every row holds the key that the server has
returned for it and is sealed. -/
theorem run_allOrNothing (job : BulkInsert) (server : Server) (session : Session) :
    (job.run server session).2.1 = job ∨
      ∃ identity keys, job.rows.model.identityColumn? = some identity ∧
        Returned server session (job.run server session).2.2 identity.type keys ∧
        job.rows.Keyed (job.run server session).2.1.rows identity.toField keys := by
  rcases h : job.run server session with ⟨r, job', session'⟩
  rcases run_cases h with ⟨hs, -⟩ | ⟨k, ⟨rest⟩⟩
  · exact .inl hs.job_eq
  have hlog : k.ready.sent ++ [k.insert] = session.sent ++ [k.create, k.insert] := by
    simp [Prepared.ready, Session.withTemp, binding]
  obtain ⟨-, -, -, -, hreturns, -⟩ := Session.requestOf_ok k.read_eq
  refine .inr ⟨k.identity, k.mapped.map Prod.snd, k.identity_eq, ?_, rest.rows_eq ▸ rest.keyed⟩
  refine ⟨[k.create, k.insert], rest.realigned ++ rest.remapped ++ rest.dropped, k.read, k.answer,
    ?_, hreturns, hlog ▸ k.answer_eq, ?_⟩
  · rw [rest.sent_eq, k.asked_sent]
    simp
  · apply Result.mapM_of_forall₂
    rw [List.forall₂_map_right_iff]
    exact (Result.mapM_eq_ok k.mapped_eq).imp fun _ _ h =>
      (IdentityMap.readPair_ok k.made h).2

end BulkInsert

end Tsql
