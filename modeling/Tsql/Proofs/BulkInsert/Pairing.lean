import Mathlib.Data.List.Perm.Subperm
import Tsql.Proofs.BulkInsert.Follow
import Tsql.Proofs.BulkInsert.Keys

/-!
# Mappings that are accepted

A mapping is paired with the rows after two tests: every old number in it is that of a row, and it has as
many pairs as there are rows. Among mappings that name no old number twice these are the permutations of
the rows' numbers, and then every row is covered (`Covers.perm_iff`). A mapping with a repetition passes
both tests as well, although it leaves a row out: `pairKeys_accepts`.
-/

namespace Tsql

open ActionOn

namespace DataSet

variable {d : DataSet} {identity : Field} {numbers : List Int} {mapped pairs : List KeyPair}

/-- A mapping gives keys to as many old numbers as there are, and to no others. -/
def Covers (numbers : List Int) (mapped : List KeyPair) : Prop :=
  mapped.length = numbers.length ∧ ∀ p ∈ mapped, p.1 ∈ numbers

theorem Covers.of_perm (h : (mapped.map Prod.fst).Perm numbers) : Covers numbers mapped := by
  refine ⟨?_, fun p hp => h.mem_iff.1 (List.mem_map_of_mem hp)⟩
  simpa using h.length_eq

/-- Different old numbers, as many as there are and none but these, are all of them. -/
theorem Covers.perm (h : Covers numbers mapped) (hn : (mapped.map Prod.fst).Nodup) :
    (mapped.map Prod.fst).Perm numbers := by
  have hsubset : mapped.map Prod.fst ⊆ numbers := by
    intro i hi
    obtain ⟨p, hp, rfl⟩ := List.mem_map.1 hi
    exact h.2 p hp
  have hlength : numbers.length ≤ (mapped.map Prod.fst).length := by
    rw [List.length_map, h.1]
  exact (List.subperm_of_subset hn hsubset).perm_of_length_le hlength

/-- Numbers that are all different are covered once each, unless the mapping repeats one of them. -/
theorem Covers.perm_iff (hn : numbers.Nodup) :
    (mapped.map Prod.fst).Perm numbers ↔ Covers numbers mapped ∧ (mapped.map Prod.fst).Nodup :=
  ⟨fun h => ⟨.of_perm h, h.nodup_iff.2 hn⟩, fun h => h.1.perm h.2⟩

/-- Where the mapping numbers the rows as they are, there is nothing to correct. -/
theorem runWith_realign_aligned {m : IdentityMap} {column : Column} {server : Server}
    {run : BulkInsert.Run} (h : pairs.map Prod.fst = mapped.map Prod.fst) :
    (BulkInsert.realign m column mapped pairs).runWith server run = (.ok (), run) := by
  unfold BulkInsert.realign
  rw [if_neg (not_not.2 h)]
  rfl

/-- Where it numbers them otherwise, the step does not end well without an update. -/
theorem exists_request_of_realign {m : IdentityMap} {column : Column} {server : Server}
    {run run' : BulkInsert.Run} (hne : pairs.map Prod.fst ≠ mapped.map Prod.fst)
    (h : (BulkInsert.realign m column mapped pairs).runWith server run = (.ok (), run')) :
    ∃ s rowset q, Session.requestOf s false (m.realignCommand rowset) = .ok q ∧
      run'.session.sent = run.session.sent ++ [q] := by
  obtain ⟨-, -, ⟨-, e, he⟩ | ⟨log, hlog⟩⟩ := BulkInsert.of_realign h
  · cases he
  · obtain ⟨s, rowset, q, hrequest, rfl⟩ := hlog.exists_request hne
    exact ⟨s, rowset, q, hrequest, hlog.sent_eq⟩

/-- A mapping is accepted if its old numbers are those of the rows in some order, or if there are as many of
them, all of rows, and one of them is repeated. Then the k-th row goes with the k-th key, and the mapping
table is corrected by an update exactly if the old numbers are not in the order of the rows. -/
theorem pairKeys_accepts (hrows : d.HoldsNumbers identity numbers) (hn : numbers.Nodup)
    (mapped : List KeyPair) :
    ((∃ pairs, d.pairKeys identity mapped = .ok pairs) ↔
        (mapped.map Prod.fst).Perm numbers ∨
          ¬ (mapped.map Prod.fst).Nodup ∧ mapped.length = d.size ∧ ∀ p ∈ mapped, p.1 ∈ numbers) ∧
      ∀ pairs, d.pairKeys identity mapped = .ok pairs →
        pairs.length = d.size ∧ pairs = numbers.zip (mapped.map Prod.snd) ∧
        ∀ (m : IdentityMap) (column : Column) (server : Server) (run : BulkInsert.Run),
          (mapped.map Prod.fst = numbers →
            (BulkInsert.realign m column mapped pairs).runWith server run = (.ok (), run)) ∧
          (mapped.map Prod.fst ≠ numbers → ∀ run',
            (BulkInsert.realign m column mapped pairs).runWith server run = (.ok (), run') →
            ∃ s rowset q, Session.requestOf s false (m.realignCommand rowset) = .ok q ∧
              run'.session.sent = run.session.sent ++ [q]) := by
  have hlength := hrows.length_eq
  have haccepted : (∃ pairs, d.pairKeys identity mapped = .ok pairs) ↔ Covers numbers mapped := by
    rw [Covers, hlength]
    simp only [pairKeys_eq_ok hrows]
    exact ⟨fun ⟨_, h, _⟩ => h, fun h => ⟨_, h, rfl⟩⟩
  refine ⟨?_, fun pairs hpairs => ?_⟩
  · rw [haccepted, Covers.perm_iff hn, ← hlength]
    by_cases hrepeats : (mapped.map Prod.fst).Nodup
    · simp [hrepeats]
    · simp [hrepeats, Covers]
  · obtain ⟨⟨hmapped, -⟩, rfl⟩ := (pairKeys_eq_ok hrows).1 hpairs
    have hkeys : numbers.length = (mapped.map Prod.snd).length := by
      rw [List.length_map, hlength, hmapped]
    have hfirst : (numbers.zip (mapped.map Prod.snd)).map Prod.fst = numbers :=
      List.map_fst_zip hkeys.le
    refine ⟨by rw [List.length_zip, ← hkeys, min_self, hlength], rfl, fun m column server run => ?_⟩
    constructor
    · intro haligned
      exact runWith_realign_aligned (hfirst.trans haligned.symm)
    · intro hmisaligned run' hrun
      exact exists_request_of_realign (fun h => hmisaligned (h.symm.trans hfirst)) hrun

theorem pairKeys_accepts_crossed :
    let d := countedRows ⟨5, -10⟩ [5, -5, -15]
    let identity := (countingColumn ⟨5, -10⟩).toField
    d.HoldsNumbers identity [5, -5, -15] ∧ [5, -5, -15].Nodup ∧
      d.pairKeys identity [(-5, .int64 101), (5, .int64 102), (-15, .int64 103)] =
        .ok [(5, .int64 101), (-5, .int64 102), (-15, .int64 103)] ∧
      ¬ ∃ pairs, d.pairKeys identity [(-5, .int64 101), (7, .int64 102), (-15, .int64 103)] =
        .ok pairs := by
  intro d identity
  have hrows : d.HoldsNumbers identity [5, -5, -15] := by decide
  have hn : [5, -5, -15].Nodup := by decide
  refine ⟨hrows, hn, ?_, fun h => ?_⟩
  · obtain ⟨haccepts, hpairs⟩ :=
      pairKeys_accepts hrows hn [(-5, .int64 101), (5, .int64 102), (-15, .int64 103)]
    obtain ⟨pairs, hok⟩ := haccepts.2 (.inl (by decide))
    rw [hok, (hpairs pairs hok).2.1]
    rfl
  · rcases (pairKeys_accepts hrows hn _).1.1 h with hperm | ⟨hrepeats, -⟩
    · exact absurd hperm (by decide)
    · exact absurd (by decide) hrepeats

/-- Two keys for the first row and none for the second one are accepted, and both rows get one of them. -/
theorem pairKeys_accepts_repeated :
    let d := countedRows ⟨1, 1⟩ [1, 2]
    let identity := (countingColumn ⟨1, 1⟩).toField
    let mapped : List KeyPair := [(1, .int64 101), (1, .int64 102)]
    d.HoldsNumbers identity [1, 2] ∧ [1, 2].Nodup ∧
      d.pairKeys identity mapped = .ok [(1, .int64 101), (2, .int64 102)] ∧
      ¬ (mapped.map Prod.fst).Perm [1, 2] := by
  refine ⟨by decide, by decide, ?_, by decide⟩
  decide +kernel

end DataSet

end Tsql
