import Tsql.Proofs.BulkInsert.Children
import Tsql.Proofs.BulkInsert.KeyUpdates
import Tsql.Proofs.BulkInsert.PairRowset

/-!
# The mapping table and the replacement in memory

Foreign keys in temporary tables follow the mapping table on the server. `run_remapsAlike` is that foreign
keys in memory follow the same function from old to new keys (`DataSet.Follows`) when the first temporary
table is updated, in whatever order the mapping was read.
-/

namespace Tsql

open Text

/-- The new keys of a mapping table by their old keys. -/
abbrev MappingTable := Int → Option Value

/-- A mapping table whose new keys were overwritten from the rows of a rowset. -/
def MappingTable.overwrite (t : MappingTable) (rows : List KeyPair) : MappingTable :=
  fun old => (t old).map fun new => (rows.lookup old).getD new

/-- The new key of a value that is an old key; another value stays. -/
def MappingTable.follow (t : MappingTable) (v : Value) : Value := (v.asInt?.bind t).getD v

/-- How many foreign keys the column at a place has that refer to one column of a parent. -/
def DataSet.keysAt (d : DataSet) (parent : ModelId) (column : String) (i : Nat) : Nat :=
  d.model.constraints.countP fun c =>
    (c.referring? parent column).any fun f => d.model.ordinal? f.id = some i

theorem DataSet.keysAt_eq (d : DataSet) (parent : ModelId) (column : String) (i : Nat) :
    d.keysAt parent column i =
      (d.model.childColumns parent column).countP fun f => d.model.ordinal? f.id = some i := by
  rw [keysAt, Model.childColumns_eq, List.countP_filterMap]
  refine List.countP_congr fun c _ => ?_
  cases c.referring? parent column <;> simp

/-- A child in memory before and after it followed a mapping table. A column without a foreign key to the
identity column is as it was, and one with one foreign key holds the new keys of the old ones; a column
that is listed for more of them follows the table as often. -/
structure DataSet.Follows (table : MappingTable) (parent : ModelId) (column : String)
    (child child' : DataSet) : Prop where
  model_eq : child'.model = child.model
  counter_eq : child'.counter = child.counter
  suspended_eq : child'.suspended = child.suspended
  isSealed_eq : child'.rows.map DataRow.isSealed = child.rows.map DataRow.isSealed
  kept : ∀ k i, child.keysAt parent column i = 0 → child'.cell? k i = child.cell? k i
  moved : ∀ k i, child.keysAt parent column i = 1 →
    child'.cell? k i = (child.cell? k i).map table.follow
  repeated : ∀ k i, child'.cell? k i =
    (child.cell? k i).map table.follow^[child.keysAt parent column i]

namespace Request

/-- A request overwrites the new keys of a mapping table with those of some pairs, which are the
rows of its JSON parameter. -/
def Corrects (q : Request) (type : ValueType) (mapping : String) (pairs : List KeyPair) : Prop :=
  ∃ (u : KeyUpdate) (p : BoundParam) (layout text : String),
    q.sql = u.sql ∧ u.target = quoteIdentifier mapping ∧ u.column = "NewValue" ∧
      u.key = "OldValue" ∧ u.source = "OPENJSON(" ++ p.name ++ ") WITH (" ++ layout ++ ")" ∧
      p ∈ q.params ∧ p.value = .string text ∧ Json.keyPairs? type text = some pairs

/-- A request replaces old keys in a column by their new keys in a mapping table. -/
def Moves (q : Request) (mapping : String) : Prop :=
  ∃ u : KeyUpdate, q.sql = u.sql ∧ u.source = quoteIdentifier mapping ∧ u.column = u.key

end Request

/-- A mapping table before and after some requests that correct it. -/
inductive Corrected (type : ValueType) (mapping : String) :
    List Request → MappingTable → MappingTable → Prop where
  | nil {t : MappingTable} : Corrected type mapping [] t t
  | cons {q : Request} {rest : List Request} {pairs : List KeyPair} {t t' : MappingTable}
      (h : q.Corrects type mapping pairs) (hrest : Corrected type mapping rest (t.overwrite pairs) t') :
      Corrected type mapping (q :: rest) t t'

theorem Corrected.corrects {type : ValueType} {mapping : String} {log : List Request}
    {t t' : MappingTable} (h : Corrected type mapping log t t') :
    ∀ q ∈ log, ∃ pairs, q.Corrects type mapping pairs := by
  induction h with
  | nil => simp
  | cons hq _ ih =>
    intro q hmem
    rcases List.mem_cons.1 hmem with rfl | hmem
    · exact ⟨_, hq⟩
    · exact ih q hmem

theorem ResultRow.Holds.unique {type : ValueType} {row : ResultRow} {p q : KeyPair}
    (hp : row.Holds type p) (hq : row.Holds type q) : p = q := by
  refine Prod.ext ?_ ?_
  · exact Option.some.inj (hp.1.symm.trans hq.1)
  · exact Except.ok.inj (hp.2.symm.trans hq.2)

/-- A list that ends with a member of its second part. -/
theorem append_eq_at {α : Type} {first second before after : List α} {x : α}
    (h : first ++ second = before ++ x :: after) (hx : x ∉ first) :
    ∃ pre, before = first ++ pre ∧ second = pre ++ x :: after := by
  rcases List.append_eq_append_iff.1 h with ⟨pre, hb, hs⟩ | ⟨mid, hf, hm⟩
  · exact ⟨pre, hb, hs⟩
  · cases mid with
    | nil => exact ⟨[], by simpa using hf.symm, by simpa using hm.symm⟩
    | cons y mid =>
      obtain rfl := (List.cons.inj hm).1
      exact absurd (hf ▸ by simp) hx

/-- Overwriting with pairs for exactly the old keys of a table gives what the pairs give. -/
theorem MappingTable.overwrite_eq {t : MappingTable} {pairs : List KeyPair}
    (h : ∀ p ∈ pairs, ∀ q ∈ pairs, p.1 = q.1 → p.2 = q.2)
    (hkeys : ∀ old, (t old).isSome ↔ old ∈ pairs.map Prod.fst) :
    t.overwrite pairs = (Remapping.ofPairs pairs).get? := by
  funext old
  unfold overwrite
  by_cases hold : old ∈ pairs.map Prod.fst
  · obtain ⟨⟨i, new⟩, hp, rfl⟩ := List.mem_map.1 hold
    obtain ⟨v, hv⟩ := Option.isSome_iff_exists.1 ((hkeys i).2 hold)
    have hlookup : pairs.lookup i = some new := by
      cases hl : pairs.lookup i with
      | none => exact absurd (List.lookup_eq_none_iff.1 hl _ hp) (by simp)
      | some w =>
        obtain ⟨l, r, hlr, -⟩ := List.lookup_eq_some_iff.1 hl
        have hw : (i, w) ∈ pairs := hlr ▸ by simp
        exact congrArg some (h _ hw _ hp rfl)
    rw [hv, (Remapping.get?_ofPairs_iff h).2 hp]
    show some ((pairs.lookup i).getD v) = _
    rw [hlookup]
    rfl
  · have hnone : t old = none := by
      rw [← Option.not_isSome_iff_eq_none, hkeys]
      exact hold
    rw [hnone, Remapping.get?_ofPairs_eq_none fun p hp hk => hold (List.mem_map.2 ⟨p, hp, hk⟩)]
    rfl

namespace BulkInsert

theorem follows_of_remapAll {m : Remapping} {parent : ModelId} {column : String} {n : Nat}
    {children after : List DataSet} (h : remapAll m parent column children = (.ok n, after)) :
    List.Forall₂ (DataSet.Follows m.get? parent column) children after := by
  induction children generalizing n after with
  | nil =>
    cases h
    exact .nil
  | cons d rest ih =>
    obtain ⟨a, b, e, rest', hd, hr, rfl, -⟩ := remapAll_cons h
    have hreplaced := remapColumns_ok hd
    have hcell : ∀ k i, e.cell? k i =
        (d.cell? k i).map (MappingTable.follow m.get?)^[d.keysAt parent column i] := by
      intro k i
      rw [hreplaced.cell_eq, DataSet.keysAt_eq]
      rfl
    refine .cons ⟨hreplaced.model_eq, hreplaced.counter_eq, hreplaced.suspended_eq,
      hreplaced.isSealed_eq, fun k i hi => ?_, fun k i hi => ?_, hcell⟩ (ih hr)
    · rw [hcell, hi]
      simp
    · rw [hcell, hi, Function.iterate_one]

open Session

variable {server : Server} {job job' : BulkInsert} {session session' : Session}
  {r : Result BulkOutcome} {spec : IdentitySpec} {table : MappingTable}

namespace KeysRead

variable (k : KeysRead server job session)

/-- An update of a temporary table replaces keys by the mapping table. -/
theorem moves {s : Session} (hs : s.target = k.asked.target) {child : Model} {f : Field}
    {q : Request} (h : s.requestOf false (k.map.remapCommand child f) = .ok q) :
    q.returnsRows = false ∧ q.Moves k.table := by
  obtain ⟨text, hg, -, hsql, hrows, -⟩ := requestOf_ok h
  rw [hs] at hg
  obtain ⟨u, params, rfl, -, hcolumn, hkey, hsource⟩ :=
    KeyUpdate.of_remap k.made (show k.asked.target.temps.get? _ = _ from k.get?_table) hg
  exact ⟨hrows, u, hsql, hsource, hcolumn.trans hkey.symm⟩

theorem mapped_isKey {p : KeyPair} (hp : p ∈ k.mapped) : p.2.IsKey k.identity.type := by
  obtain ⟨row, -, hrow⟩ := mem_of_forall₂ (IdentityMap.readPairs_ok k.made k.mapped_eq) hp
  obtain ⟨n, -, hd⟩ := Result.bind_eq_ok hrow.2
  rcases decode_integral k.made.integral hd with ⟨-, hv⟩ | ⟨i, -, hv⟩
  · exact .inl hv
  · exact .inr ⟨i, hv⟩

/-- Old keys of sixty-four bits number the rows of a run. -/
theorem size_le (hs : k.identity.identity = some spec) (hinc : spec.increment ≠ 0) :
    job.rows.size ≤ Json.maxWord + 1 := by
  have hfits : ∀ i < job.rows.size, fitsInt64 (spec.nth i) = true := by
    intro i hi
    have := DataSet.number?_of_checkProvisional k.provisional hs hi
    obtain ⟨v, -, hv⟩ := Option.bind_eq_some_iff.1 this
    exact Value.fitsInt64_of_asInt? hv
  by_contra hlt
  have hword : Json.maxWord = 18446744073709551615 := rfl
  obtain ⟨h0, h0'⟩ := fitsInt64_iff.1 (hfits 0 (by omega))
  obtain ⟨h1, h1'⟩ := fitsInt64_iff.1 (hfits (Json.maxWord + 1) (by omega))
  have hle : (Json.maxWord + 1) * 1 ≤ (Json.maxWord + 1) * spec.increment.natAbs :=
    Nat.mul_le_mul_left _ (Int.natAbs_pos.2 hinc)
  have habs : (((Json.maxWord + 1 : Nat) : Int) * spec.increment).natAbs =
      (Json.maxWord + 1) * spec.increment.natAbs := by rw [Int.natAbs_mul, Int.natAbs_natCast]
  simp only [IdentitySpec.nth, minInt64, maxInt64] at h0 h0' h1 h1'
  omega

theorem pairs_mapped (hs : k.identity.identity = some spec)
    (h : k.pairs.map Prod.fst = k.mapped.map Prod.fst) : k.pairs = k.mapped := by
  obtain ⟨-, -, hp⟩ := k.pairs_zip hs
  rw [← k.pairs_fst hs, h] at hp
  rw [hp]
  exact (List.zip_of_prod rfl rfl).symm

/-- A column that does not count numbers its mapping table like its rows. -/
theorem aligned_of_constant (hs : k.identity.identity = some spec) (hinc : spec.increment = 0)
    (hperm : (k.mapped.map Prod.fst).Perm ((List.range job.rows.size).map spec.nth)) :
    k.pairs.map Prod.fst = k.mapped.map Prod.fst := by
  have hconst : (List.range job.rows.size).map spec.nth =
      List.replicate job.rows.size spec.seed := by
    rw [List.eq_replicate_iff]
    refine ⟨by simp, fun i hi => ?_⟩
    obtain ⟨n, -, rfl⟩ := List.mem_map.1 hi
    simp [IdentitySpec.nth, hinc]
  rw [hconst, List.perm_replicate] at hperm
  rw [k.pairs_fst hs, hconst, hperm]

theorem pairs_unique (hs : k.identity.identity = some spec)
    (hperm : (k.mapped.map Prod.fst).Perm ((List.range job.rows.size).map spec.nth))
    (htable : ∀ old new, table old = some new ↔ (old, new) ∈ k.mapped) :
    ∀ p ∈ k.pairs, ∀ q ∈ k.pairs, p.1 = q.1 → p.2 = q.2 := by
  by_cases hinc : spec.increment = 0
  · rw [k.pairs_mapped hs (k.aligned_of_constant hs hinc hperm)]
    intro p hp q hq hpq
    have hp' := (htable _ _).2 hp
    rw [hpq, (htable _ _).2 hq] at hp'
    exact (Option.some.inj hp').symm
  · exact k.pairs_inj hs hinc

theorem pairs_isKey (hs : k.identity.identity = some spec) {p : KeyPair} (hp : p ∈ k.pairs) :
    p.2.IsKey k.identity.type := by
  obtain ⟨-, -, hzip⟩ := k.pairs_zip hs
  rw [hzip] at hp
  obtain ⟨q, hq, hpq⟩ := List.mem_map.1 (List.of_mem_zip hp).2
  rw [← hpq]
  exact k.mapped_isKey hq

/-- The update of a mapping table overwrites it from the pairs. -/
theorem corrects (hs : k.identity.identity = some spec) (hinc : spec.increment ≠ 0)
    {rowset : Rowset} {supply : Supply} {q : Request}
    (hrowset : k.map.pairRowset k.identity k.asked.types k.asked.supply k.pairs =
      .ok (rowset, supply))
    (hrequest : (binding k.asked supply rowset).requestOf false (k.map.realignCommand rowset) =
      .ok q) : q.Corrects k.identity.type k.table k.pairs := by
  have hlen : k.pairs.length ≤ Json.maxWord + 1 := by
    have := congrArg List.length (k.pairs_fst hs)
    rw [List.length_map, List.length_map, List.length_range] at this
    exact this.trans_le (k.size_le hs hinc)
  obtain ⟨hpairs, hsource, htype⟩ :=
    IdentityMap.pairRowset_pairs k.made (fun p hp => k.pairs_isKey hs hp) hlen hrowset
  obtain ⟨text, hg, hbind, hsql, -⟩ := requestOf_ok hrequest
  obtain ⟨u, layout, rfl, htarget, hcolumn, hkey, hfrom⟩ :=
    KeyUpdate.of_realign k.made hsource
      (show (binding k.asked supply rowset).target.temps.get? _ = _ from k.get?_table) hg
  have hvalue : (binding k.asked supply rowset).bindings.get rowset.param.id =
      .string rowset.text := Bindings.get_set_self _ _ _
  obtain ⟨p, hp, hname, htext⟩ := SqlText.bind_text htype hvalue u.sql
  refine ⟨u, p, layout, rowset.text, hsql, htarget, hcolumn, hkey, hname ▸ hfrom, ?_, htext, hpairs⟩
  rw [Except.ok.inj (hbind.symm.trans hp)]
  exact List.mem_singleton_self p

/-- What the requests before the first temporary table make of the mapping table. -/
theorem corrected (hs : k.identity.identity = some spec)
    (hperm : (k.mapped.map Prod.fst).Perm ((List.range job.rows.size).map spec.nth))
    (htable : ∀ old new, table old = some new ↔ (old, new) ∈ k.mapped) {log : List Request}
    {s : Session} (h : Realigned k.map k.identity k.mapped k.pairs k.asked log s) :
    Corrected k.identity.type k.table log table (Remapping.ofPairs k.pairs).get? := by
  have hunique := k.pairs_unique hs hperm htable
  cases h with
  | aligned h =>
    have heq : table = (Remapping.ofPairs k.pairs).get? := by
      funext old
      refine Option.ext fun new => ?_
      rw [Remapping.get?_ofPairs_iff hunique, k.pairs_mapped hs h]
      exact htable old new
    rw [heq]
    exact .nil
  | corrected hne hrowset hrequest =>
    have hinc : spec.increment ≠ 0 := fun h0 => hne (k.aligned_of_constant hs h0 hperm)
    have hkeys : ∀ old, (table old).isSome ↔ old ∈ k.pairs.map Prod.fst := by
      intro old
      rw [k.pairs_fst hs, ← hperm.mem_iff, List.mem_map, Option.isSome_iff_exists]
      constructor
      · rintro ⟨new, hnew⟩
        exact ⟨(old, new), (htable old new).1 hnew, rfl⟩
      · rintro ⟨p, hp, rfl⟩
        exact ⟨p.2, (htable _ _).2 hp⟩
    rw [← MappingTable.overwrite_eq hunique hkeys]
    exact .cons (k.corrects hs hinc hrowset hrequest) .nil

theorem realigned_counted {log : List Request} {s : Session}
    (h : Realigned k.map k.identity k.mapped k.pairs k.asked log s) :
    ∀ q ∈ log, q.returnsRows = false := by
  cases h with
  | aligned => simp
  | corrected _ _ hrequest =>
    obtain ⟨-, -, -, -, hrows, -⟩ := requestOf_ok hrequest
    simpa using hrows

theorem followed_corrects (hs : k.identity.identity = some spec)
    (hperm : (k.mapped.map Prod.fst).Perm ((List.range job.rows.size).map spec.nth))
    (htable : ∀ old new, table old = some new ↔ (old, new) ∈ k.mapped)
    {rows : DataSet} {run : Run} {result : Result BulkOutcome} {log tables : List Request}
    (h : Followed k.map k.identity k.mapped k.pairs ⟨k.asked, { job with rows }⟩ run result log
      tables) :
    log.length ≤ 1 ∧ ∀ q ∈ log, ∃ pairs, q.Corrects k.identity.type k.table pairs := by
  have hrealigned : ∀ {log s}, Realigned k.map k.identity k.mapped k.pairs k.asked log s →
      log.length ≤ 1 ∧ ∀ q ∈ log, ∃ pairs, q.Corrects k.identity.type k.table pairs :=
    fun h => ⟨by cases h <;> simp, (k.corrected hs hperm htable h).corrects⟩
  cases h with
  | stopped => simp
  | realigned h => exact hrealigned h
  | remapped h => exact hrealigned h

theorem followed_requests {rows : DataSet} {run : Run} {result : Result BulkOutcome}
    {log tables : List Request}
    (h : Followed k.map k.identity k.mapped k.pairs ⟨k.asked, { job with rows }⟩ run result log
      tables) :
    (∀ q ∈ log, q.returnsRows = false) ∧ ∀ q ∈ tables, q.returnsRows = false ∧ q.Moves k.table := by
  cases h with
  | stopped => simp
  | realigned h => exact ⟨k.realigned_counted h, by simp⟩
  | remapped h _ htables =>
    refine ⟨k.realigned_counted h, fun q hq => ?_⟩
    obtain ⟨item, -, hitem⟩ := mem_of_forall₂ htables hq
    exact k.moves h.target_eq hitem

/-- Before a temporary table is updated, and in a run that succeeds, the mapping table is corrected
and the children in memory have undergone the replacement. -/
theorem followed_done {rows : DataSet} {run : Run} {result : Result BulkOutcome}
    {log tables : List Request}
    (h : Followed k.map k.identity k.mapped k.pairs ⟨k.asked, { job with rows }⟩ run result log
      tables) (hdone : tables ≠ [] ∨ ∃ o, result = .ok o) :
    (∃ s, Realigned k.map k.identity k.mapped k.pairs k.asked log s) ∧
      ∃ n, remapAll (Remapping.ofPairs k.pairs) rows.model.id k.identity.name job.children =
        (.ok n, run.job.children) := by
  cases h with
  | stopped => simp at hdone
  | realigned => simp at hdone
  | remapped h hchildren => exact ⟨⟨_, h⟩, _, hchildren⟩

/-- The last request of a run drops the mapping table. -/
theorem dropped_sql (rest : k.Rest r job' session') {q : Request} (hq : q ∈ rest.dropped) :
    q.sql = "DROP TABLE " ++ quoteIdentifier k.table ++ ";" :=
  Except.ok.inj ((rest.dropped_eq q hq).2.symm.trans (Target.dropTableSql_temp
    (show k.asked.target.temps.get? k.map.model.id = _ from k.get?_table)))

end KeysRead

/-- A run has read a mapping: what it sent before and after, and the pairs that it was answered. -/
structure MappingRead (server : Server) (session session' : Session) (type : ValueType)
    (before : List Request) (read : Request) (after : List Request) (mapped : List KeyPair) :
    Prop where
  sent_eq : session'.sent = session.sent ++ before ++ read :: after
  returnsRows : read.returnsRows = true
  answer : ∃ answer, server.rows (session.sent ++ before) read = .ok answer ∧
    List.Forall₂ (ResultRow.Holds type) answer mapped

variable {before after : List Request} {read : Request} {mapped : List KeyPair} {type : ValueType}

/-- A run that has stopped early has sent nothing after the mapping was read. -/
theorem Stopped.after_read (h : Stopped job job' session session' r)
    (hm : MappingRead server session session' type before read after mapped) :
    after = [] ∧ ∃ e, r = .error e := by
  obtain ⟨counted, last, hlog, hcounted, hlast⟩ := h.log
  have hsent := hlog.symm.trans hm.sent_eq
  rw [List.append_assoc, List.append_assoc] at hsent
  have hread : read ∉ counted := fun hq => by
    have := hcounted read hq
    rw [hm.returnsRows] at this
    cases this
  obtain ⟨pre, -, hpre⟩ := append_eq_at (List.append_cancel_left hsent) hread
  rcases hlast with rfl | ⟨q, e, rfl, he⟩
  · simp at hpre
  · cases pre with
    | nil => exact ⟨(List.cons.inj hpre).2.symm, e, he⟩
    | cons x pre => simp at hpre

theorem KeysRead.of_mappingRead (k : KeysRead server job session) (rest : k.Rest r job' session')
    (hm : MappingRead server session session' k.identity.type before read after mapped) :
    read = k.read ∧ after = rest.realigned ++ rest.remapped ++ rest.dropped ∧
      mapped = k.mapped := by
  have hsent : [k.create, k.insert] ++
      k.read :: (rest.realigned ++ rest.remapped ++ rest.dropped) = before ++ read :: after := by
    have := rest.sent_eq.symm.trans hm.sent_eq
    rw [k.asked_sent] at this
    simpa [List.append_assoc] using this
  obtain ⟨-, -, -, -, hinsert, -⟩ := requestOf_ok k.insert_eq
  have hcounted : ∀ q ∈ [k.create, k.insert] ++ (rest.realigned ++ rest.remapped ++ rest.dropped),
      q.returnsRows = false := by
    obtain ⟨hrealigned, hremapped⟩ := k.followed_requests rest.followed
    intro q hq
    simp only [List.mem_append, List.mem_cons, List.not_mem_nil, or_false] at hq
    rcases hq with (rfl | rfl) | (hq | hq) | hq
    · exact k.counted
    · exact hinsert
    · exact hrealigned q hq
    · exact (hremapped q hq).1
    · exact (rest.dropped_eq q hq).1
  have hread : ∀ q ∈ [k.create, k.insert] ++ (rest.realigned ++ rest.remapped ++ rest.dropped),
      read ≠ q := by
    rintro q hq rfl
    have := hcounted read hq
    rw [hm.returnsRows] at this
    cases this
  obtain ⟨pre, hbefore, hpre⟩ := append_eq_at hsent fun hq =>
    hread read (List.mem_append_left _ hq) rfl
  cases pre with
  | cons x pre =>
    have : read ∈ rest.realigned ++ rest.remapped ++ rest.dropped := by
      rw [(List.cons.inj hpre).2]
      simp
    exact absurd rfl (hread read (List.mem_append_right _ this))
  | nil =>
    obtain ⟨rfl, rfl⟩ := List.cons.inj hpre
    rw [List.append_nil] at hbefore
    obtain ⟨answer, hanswer, hholds⟩ := hm.answer
    have hsame : k.answer = answer := by
      have hlog : k.ready.sent ++ [k.insert] = session.sent ++ [k.create, k.insert] := by
        simp [Prepared.ready, withTemp, binding]
      have := k.answer_eq
      rw [hlog, ← hbefore] at this
      exact Except.ok.inj (this.symm.trans hanswer)
    refine ⟨rfl, rfl, ?_⟩
    have hread := IdentityMap.readPairs_ok k.made k.mapped_eq
    rw [hsame] at hread
    have hunique : Relator.RightUnique (ResultRow.Holds k.identity.type) :=
      fun _ _ _ hp hq => hp.unique hq
    exact List.right_unique_forall₂' hunique hholds hread

/-- What a run sends after it has read the mapping table `name` as `table`: corrections of it,
updates of temporary tables, and its removal. -/
structure RemapsAlike (job job' : BulkInsert) (r : Result BulkOutcome) (identity : Column)
    (spec : IdentitySpec) (read : Request) (after : List Request) (table : MappingTable)
    (name : String) (corrections updates removals : List Request) : Prop where
  after_eq : after = corrections ++ updates ++ removals
  corrections_le : corrections.length ≤ 1
  corrects : ∀ q ∈ corrections, ∃ pairs, q.Corrects identity.type name pairs
  moves : ∀ q ∈ updates, q.Moves name
  removes : ∀ q ∈ removals, q.sql = "DROP TABLE " ++ quoteIdentifier name ++ ";"
  /-- If a temporary table is updated, or the run succeeds, then the corrections have made of the
  table that was read the one that the children in memory have followed, and it gives the old key of
  each row the key that the row holds. -/
  agree : updates ≠ [] ∨ (∃ o, r = .ok o) →
    (∃ m : MappingQuery, read.sql = m.sql ∧ m.mapping = name) ∧
    ∃ corrected : MappingTable,
      List.Forall₂ (DataSet.Follows corrected job.rows.model.id identity.name) job.children
        job'.children ∧
      Corrected identity.type name corrections table corrected ∧
      (table ≠ corrected → corrections ≠ []) ∧
      ∀ i < job.rows.size, ∃ key, job'.rows.value? i identity.toField = some key ∧
        corrected (spec.nth i) = some key

/-- Foreign keys in temporary tables and in memory follow one function from old to new keys, in
whatever order the old keys were read. -/
theorem run_remapsAlike {identity : Column} (h : job.run server session = (r, job', session'))
    (hi : job.rows.model.identityColumn? = some identity) (hs : identity.identity = some spec)
    (hm : MappingRead server session session' identity.type before read after mapped)
    (hperm : (mapped.map Prod.fst).Perm ((List.range job.rows.size).map spec.nth))
    (htable : ∀ old new, table old = some new ↔ (old, new) ∈ mapped) :
    ∃ name corrections updates removals,
      RemapsAlike job job' r identity spec read after table name corrections updates removals := by
  rcases run_cases h with ⟨hstop, -⟩ | ⟨k, ⟨rest⟩⟩
  · obtain ⟨rfl, e, rfl⟩ := hstop.after_read hm
    refine ⟨"", [], [], [], rfl, by simp, by simp, by simp, by simp, ?_⟩
    rintro (hne | ⟨o, ho⟩)
    · exact absurd rfl hne
    · cases ho
  obtain rfl : k.identity = identity := Option.some.inj (k.identity_eq.symm.trans hi)
  obtain ⟨rfl, rfl, rfl⟩ := k.of_mappingRead rest hm
  obtain ⟨hlength, hcorrects⟩ := k.followed_corrects hs hperm htable rest.followed
  refine ⟨k.table, rest.realigned, rest.remapped, rest.dropped, rfl, hlength, hcorrects,
    fun q hq => ((k.followed_requests rest.followed).2 q hq).2, fun q hq => k.dropped_sql rest hq,
    fun hdone => ?_⟩
  obtain ⟨m, hsql, hmapping, -⟩ := k.read_sql
  obtain ⟨⟨s, hrealigned⟩, n, hchildren⟩ := k.followed_done rest.followed
    (hdone.imp_right fun ⟨o, ho⟩ => ⟨o, rest.result_eq o ho⟩)
  have hcorrected := k.corrected hs hperm htable hrealigned
  have hunique := k.pairs_unique hs hperm htable
  rw [rest.keyed.model_eq, ← rest.job_eq] at hchildren
  refine ⟨⟨m, hsql, hmapping⟩, (Remapping.ofPairs k.pairs).get?, follows_of_remapAll hchildren,
    hcorrected, ?_, ?_⟩
  · rintro hne hnone
    rw [hnone] at hcorrected
    cases hcorrected
    exact hne rfl
  · intro i hi
    obtain ⟨hlen, -, hzip⟩ := k.pairs_zip hs
    obtain ⟨key, hkey⟩ : ∃ key, (k.mapped.map Prod.snd)[i]? = some key :=
      ⟨_, List.getElem?_eq_getElem (by simpa [hlen] using hi)⟩
    have hmem : (spec.nth i, key) ∈ k.pairs := by
      rw [hzip]
      refine List.mem_of_getElem? (i := i) ?_
      simp [List.getElem?_zip_eq_some, hkey, hi]
    refine ⟨key, ?_, (Remapping.get?_ofPairs_iff hunique).2 hmem⟩
    rw [rest.rows_eq, rest.keyed.key i hi, hkey]

def orders : DataSet :=
  let model : Model :=
    { Model.empty ⟨1⟩ "Order" .table with
      columns := [{ id := ⟨1⟩, name := "Id", type := .int32, identity := some ⟨1, 1⟩ },
        { id := ⟨2⟩, name := "Amount", type := .int32 }] }
  { DataSet.empty model with
    rows := [{ values := [.int32 1, .int32 20] }, { values := [.int32 2, .int32 10] }] }

def pendingLines : Model :=
  let order : Field := ⟨⟨3⟩, "OrderId", .int32⟩
  { Model.empty ⟨2⟩ "Pending" .tempTable with
    columns := [{ order with }]
    constraints :=
      [⟨"FK", .foreignKey ⟨[order], ⟨1⟩, "Order", none, ["Id"], .noAction, .noAction⟩, none⟩] }

/-- A server to whose mapping table the keys of two orders have come in the wrong order. -/
def crossed : Server where
  affected _ _ := .ok 2
  rows _ _ := .ok [⟨["OldValue", "NewValue"], [.i32 2, .i32 101]⟩,
    ⟨["OldValue", "NewValue"], [.i32 1, .i32 102]⟩]
  cancelled _ := false

def pendingSession : Session :=
  { supply := ⟨3, 4, 1⟩
    liveTemps := [(⟨2⟩, pendingLines)]
    temps := { names := [(⟨2⟩, "#Pending")] } }

/-- A run with lines in memory and in the temporary table. -/
def crossedInsert : BulkInsert :=
  { rows := orders
    children :=
      [{ model := pendingLines, rows := [{ values := [.int32 2] }, { values := [.int32 1] }] }] }

theorem crossed_read :
    MappingRead crossed pendingSession (crossedInsert.run crossed pendingSession).2.2 .int32
      ((crossedInsert.run crossed pendingSession).2.2.sent.take 2)
      { returnsRows := true
        sql := MappingQuery.sql ⟨"#IdentityMap", "IdentityMap", "NewValue", .ascending, by decide⟩ }
      ((crossedInsert.run crossed pendingSession).2.2.sent.drop 3)
      [(2, .int32 101), (1, .int32 102)] where
  sent_eq := by decide +kernel
  returnsRows := rfl
  answer := ⟨_, rfl, .cons ⟨by decide +kernel, by decide +kernel⟩
    (.cons ⟨by decide +kernel, by decide +kernel⟩ .nil)⟩

theorem run_remapsAlike_crossed :
    (crossedInsert.run crossed pendingSession).1 = .ok
        { completed := true, inserted := 2, propagated := 2, childrenRemapped := 2
          tempRowsRemapped := 2 } ∧
      (crossedInsert.run crossed pendingSession).2.1.children.map (fun d => d.rows.map DataRow.values) =
        [[[.int32 102], [.int32 101]]] ∧
      ∃ name corrections updates removals,
        RemapsAlike crossedInsert (crossedInsert.run crossed pendingSession).2.1
          (crossedInsert.run crossed pendingSession).1
          { id := ⟨1⟩, name := "Id", type := .int32, identity := some ⟨1, 1⟩ } ⟨1, 1⟩
          { returnsRows := true
            sql := MappingQuery.sql
              ⟨"#IdentityMap", "IdentityMap", "NewValue", .ascending, by decide⟩ }
          ((crossedInsert.run crossed pendingSession).2.2.sent.drop 3)
          (Remapping.ofPairs [(2, .int32 101), (1, .int32 102)]).get? name corrections updates
          removals := by
  refine ⟨by decide +kernel, by decide +kernel, ?_⟩
  have hread := crossed_read
  rcases hrun : crossedInsert.run crossed pendingSession with ⟨r, job', after⟩
  rw [hrun] at hread
  exact run_remapsAlike hrun rfl rfl hread (by decide) fun _ _ =>
    Remapping.get?_ofPairs_iff (by decide)

end BulkInsert

end Tsql
