import Tsql.Proofs.BulkInsert.Protocol
import Tsql.Proofs.Render.CreatedTable
import Tsql.Proofs.Session.Cache

/-!
# The registry of temporary tables

A temporary table has a name while it exists. The name is given before the table is created and taken
back where that fails or the table is dropped, but it is never given again. `Session.Registered` is
what holds of a session between its calls; `Session.creations` are the names in the texts by which its
calls have created temporary tables, or tried to.
-/

namespace Tsql

open Text ActionOn

/-! ### Names and live tables -/

/-- The registry lists exactly the tables that exist, each under a used name with a mark. -/
structure TempTables.Lists (t : TempTables) (live : List (ModelId × Model)) : Prop where
  names_eq : t.names.map Prod.fst = live.map Prod.fst
  id_eq : ∀ e ∈ live, e.2.id = e.1
  distinct : (t.names.map fun e => lowercase e.2).Nodup
  used : ∀ e ∈ t.names, ∃ key ∈ t.supply.used, lowercase e.2 = "#" ++ key

namespace TempTables.Lists

variable {t : TempTables} {live : List (ModelId × Model)} {m : Model}

theorem realize (h : t.Lists live) (hnew : t.get? m.id = none) :
    (t.realize m).2.Lists ((m.id, m) :: live) := by
  rw [realize_of_new hnew]
  refine ⟨by simp [h.names_eq], ?_, ?_, ?_⟩
  · rw [List.forall_mem_cons]
    exact ⟨rfl, h.id_eq⟩
  · rw [List.map_cons, List.nodup_cons]
    refine ⟨fun hmem => ?_, h.distinct⟩
    obtain ⟨e, he, hsame⟩ := List.mem_map.1 hmem
    obtain ⟨key, hkey, hname⟩ := h.used e he
    rw [hname, TempTables.lowercase_marked] at hsame
    obtain rfl : key = _ := by simpa using hsame
    exact t.supply.lowercase_next_notMem m.name hkey
  · rw [List.forall_mem_cons, UniqueNames.used_next]
    refine ⟨⟨_, List.mem_cons_self, TempTables.lowercase_marked _⟩, fun e he => ?_⟩
    obtain ⟨key, hkey, hname⟩ := h.used e he
    exact ⟨key, List.mem_cons_of_mem _ hkey, hname⟩

theorem notCreated (h : t.Lists live) (hnew : t.get? m.id = none) :
    ((t.realize m).2.forget m.id).Lists live := by
  rw [TempTables.forget_realize_of_new hnew]
  refine ⟨h.names_eq, h.id_eq, h.distinct, fun e he => ?_⟩
  obtain ⟨key, hkey, hname⟩ := h.used e he
  rw [UniqueNames.used_next]
  exact ⟨key, List.mem_cons_of_mem _ hkey, hname⟩

theorem forget (h : t.Lists live) (id : ModelId) :
    (t.forget id).Lists (live.filter fun (i, _) => i ≠ id) := by
  have hkept {e : ModelId × String} (he : e ∈ (t.forget id).names) : e ∈ t.names :=
    List.mem_of_mem_filter he
  refine ⟨?_, fun e he => h.id_eq e (List.mem_of_mem_filter he), ?_, fun e he => h.used e (hkept he)⟩
  · have hids {β : Type} (l : List (ModelId × β)) :
        (l.filter fun (i, _) => i ≠ id).map Prod.fst = (l.map Prod.fst).filter (· ≠ id) := by
      rw [List.filter_map]
      rfl
    rw [TempTables.forget, hids, hids, h.names_eq]
  · exact h.distinct.sublist (List.filter_sublist.map _)

theorem invariant (commands : StatementId → Command) :
    Session.Invariant commands fun s => s.temps.Lists s.liveTemps where
  noteSent _ _ h := h
  bind _ _ h := h
  supply _ _ h := h
  transactions _ _ h := h
  cached _ _ _ _ h := h
  invalidated _ _ h := h
  created _ _ _ hnew h := h.realize hnew
  notCreated _ _ hnew h := h.notCreated hnew
  dropped _ m h := h.forget m.id

end TempTables.Lists

/-- The temporary tables that exist have names, all different in lower case; no other model has one. -/
structure Session.Registered (s : Session) : Prop where
  live : ∀ id, (∃ name, s.temps.get? id = some name) ↔ ∃ m ∈ s.tempModels, m.id = id
  distinct : ∀ i j a b, s.temps.get? i = some a → s.temps.get? j = some b →
    lowercase a = lowercase b → i = j

theorem TempTables.Lists.registered {s : Session} (h : s.temps.Lists s.liveTemps) : s.Registered where
  live id := by
    rw [TempTables.exists_get?, h.names_eq]
    constructor
    · intro hid
      obtain ⟨e, he, rfl⟩ := List.mem_map.1 hid
      refine ⟨e.2, ?_, h.id_eq e he⟩
      exact (BulkInsert.tempModels_sorted s).1.mem_iff.2 (List.mem_map_of_mem he)
    · rintro ⟨m, hm, rfl⟩
      obtain ⟨e, he, rfl⟩ := List.mem_map.1 ((BulkInsert.tempModels_sorted s).1.mem_iff.1 hm)
      rw [h.id_eq e he]
      exact List.mem_map_of_mem he
  distinct i j a b hi hj hab := by
    have hlisted {i : ModelId} {a : String} (h : s.temps.get? i = some a) :
        (i, a) ∈ s.temps.names := by
      obtain ⟨before, behind, hnames, -⟩ := List.lookup_eq_some_iff.1 h
      simp [hnames]
    exact congrArg Prod.fst (List.inj_on_of_nodup_map h.distinct (hlisted hi) (hlisted hj) hab)

/-! ### The tables that texts create -/

def Stage.created? (t : Target) : Stage → Option String
  | create m => t.temps.get? m.id
  | _ => none

theorem Stage.createdTable?_eq {t : Target} {stage : Stage} {q : Request} (h : stage.SentAs t q) :
    createdTable? q.sql = stage.created? t := by
  cases stage with
  | create m =>
    obtain ⟨-, b, hsql⟩ := h
    exact Target.createdTable?_create hsql
  | execute c | query c =>
    obtain ⟨-, text, htext, hsql⟩ := h
    rw [← hsql]
    exact Target.createdTable?_generate htext
  | drop m => exact Target.createdTable?_drop h.2

def createdTables (log : List Request) : List String := log.filterMap fun q => createdTable? q.sql

theorem createdTables_eq {t : Target} {stages : List Stage} {log : List Request}
    (h : List.Forall₂ (Stage.SentAs t) stages log) :
    createdTables log = stages.filterMap (Stage.created? t) := by
  unfold createdTables
  induction h with
  | nil => rfl
  | cons hq _ ih => rw [List.filterMap_cons, List.filterMap_cons, Stage.createdTable?_eq hq, ih]

def Session.sentSince (s t : Session) : List Request := t.sent.drop s.sent.length

namespace Session

variable {α : Type} {commands : StatementId → Command} {server : Server} {s t : Session} {m : Model}

/-- What became of the names while some were given to new tables. -/
inductive Gives (s t : Session) : List String → Prop where
  | nothing : Gives s t []
  | one (base : String) (supply_eq : t.temps.supply = (s.temps.supply.next base).2) :
      Gives s t ["#" ++ (s.temps.supply.next base).1]

theorem Gives.of_prefix {given names : List String} (h : Gives s t given) (hp : names <+: given) :
    Gives s t names := by
  cases h with
  | nothing =>
    rw [List.prefix_nil.1 hp]
    exact .nothing
  | one base hsupply =>
    cases names with
    | nil => exact .nothing
    | cons a rest =>
      obtain ⟨rfl, hrest⟩ := List.cons_prefix_cons.1 hp
      rw [List.prefix_nil.1 hrest]
      exact .one base hsupply

/-- An operation gives the names of the tables that its stages create. -/
theorem Sends.gives {target : Target} {full stages : List Stage} {log : List Request} {r : Result α}
    (h : Sends server target full s.sent t.sent r stages log)
    (hgiven : Gives s t (full.filterMap (Stage.created? target))) :
    Gives s t (createdTables (s.sentSince t)) := by
  rw [sentSince, h.sent_eq, List.drop_left, createdTables_eq h.sentAs]
  exact hgiven.of_prefix (h.isPrefix.filterMap _)

theorem Gives.of_silent (h : t.sent = s.sent) : Gives s t (createdTables (s.sentSince t)) := by
  rw [sentSince, h, List.drop_length]
  exact .nothing

theorem gives_createTemp {r : Result String} (h : (createTemp m).runWith server s = (r, t)) :
    Gives s t (createdTables (s.sentSince t)) := by
  cases hc : ensureCreatable s m with
  | error e =>
    rw [runWith_createTemp, hc] at h
    obtain ⟨-, rfl⟩ := Prod.mk.inj h
    exact .of_silent rfl
  | ok _ =>
    have hnew := ensureCreatable_ok hc
    obtain ⟨stages, log, hs⟩ := sends_createTemp h
    refine hs.toSends.gives ?_
    have hname : (s.naming m).target.temps.get? m.id =
        some ("#" ++ (s.temps.supply.next m.name).1) := TempTables.get?_realize_self hnew
    have hsupply := supply_createTemp hc h
    rw [TempTables.realize_of_new hnew] at hsupply
    rw [List.filterMap_cons, Stage.created?, hname]
    exact .one m.name hsupply

theorem created?_answerDuties (target : Target) (m : IdentityMap) (identity : Column) (inserted : Nat)
    (correction : Option BulkInsert.SentRowset) (children : List (Model × Field)) :
    ((BulkInsert.answerDuties m identity inserted correction children).map
      BulkInsert.Duty.stage).filterMap (Stage.created? target) = [] := by
  rw [List.filterMap_eq_nil_iff, List.forall_mem_map]
  intro duty hduty
  unfold BulkInsert.answerDuties BulkInsert.followDuties at hduty
  split at hduty
  · simp only [List.mem_cons, List.mem_append, Option.mem_toList, Option.map_eq_some_iff,
      List.mem_map] at hduty
    rcases hduty with rfl | ⟨c, -, rfl⟩ | ⟨child, -, rfl⟩ <;> rfl
  · cases hduty

theorem gives_bulkInsert (job : BulkInsert) {r : Result BulkOutcome}
    (h : (bulkInsert job).runWith server s = (r, t)) : Gives s t (createdTables (s.sentSince t)) := by
  rcases hrun : job.run server s with ⟨r', job', t'⟩
  obtain rfl : t' = t := by
    have ht : ((bulkInsert job).runWith server s).2 = (job.run server s).2.2 := rfl
    rw [h, hrun] at ht
    exact ht.symm
  rcases BulkInsert.runs hrun with
    ⟨hsent, -⟩ | ⟨target, mapping, full, stages, log, hcourse, hs, hsupply⟩
  · exact .of_silent hsent
  refine hs.toSends.gives ?_
  cases hcourse with
  | empty _ => exact .nothing
  | plain _ _ _ => exact .nothing
  | @keyed identity mapping rowset m _ _ _ _ _ _ _ hnew _ _ _ _ =>
    rw [TempTables.realize_of_new hnew] at hsupply
    rw [List.map_cons, List.map_cons, List.map_append, List.filterMap_cons, List.filterMap_cons,
      List.filterMap_append, created?_answerDuties]
    have hname := TempTables.get?_realize_self hnew
    simp only [BulkInsert.Duty.stage, Stage.created?, hname]
    exact .one m.model.name hsupply

end Session

/-! ### The tables that calls create -/

/-- The call creates temporary tables: one on demand, or the mapping table of a bulk insert. -/
def Call.createsTemps : Call → Bool
  | createTemp _ | bulkInsert _ => true
  | _ => false

namespace Session

def afterCall (commands : StatementId → Command) (s : Session) (c : Call × Server) : Session :=
  ((c.1.action commands).runWith c.2 s).2

/-- The names in the texts by which a call creates temporary tables, or tries to. -/
def createdBy (commands : StatementId → Command) (s : Session) (c : Call × Server) : List String :=
  if c.1.createsTemps then createdTables (s.sentSince (s.afterCall commands c)) else []

/-- The names of all temporary tables that calls create, one after the other. -/
def creations (commands : StatementId → Command) (s : Session) : List (Call × Server) → List String
  | [] => []
  | c :: rest => s.createdBy commands c ++ (s.afterCall commands c).creations commands rest

theorem gives_afterCall (commands : StatementId → Command) (s : Session) (c : Call × Server) :
    Gives s (s.afterCall commands c) (s.createdBy commands c) := by
  obtain ⟨c, server⟩ := c
  unfold createdBy
  by_cases hc : c.createsTemps = true
  · rw [if_pos hc]
    unfold afterCall
    rcases hrun : (c.action commands).runWith server s with ⟨r, t⟩
    cases c with
    | createTemp m =>
      rcases of_bind hrun with ⟨e, hcreate, -⟩ | ⟨name, u, hcreate, hdone⟩
      · exact gives_createTemp hcreate
      · obtain ⟨-, rfl⟩ := Prod.mk.inj hdone
        exact gives_createTemp hcreate
    | bulkInsert job =>
      rcases of_bind hrun with ⟨e, hinsert, -⟩ | ⟨outcome, u, hinsert, hdone⟩
      · exact gives_bulkInsert job hinsert
      · obtain ⟨-, rfl⟩ := Prod.mk.inj hdone
        exact gives_bulkInsert job hinsert
    | _ => cases hc
  · rw [if_neg hc]
    exact .nothing

/-- Names that were given away stay so. -/
theorem used_invariant (commands : StatementId → Command) (keys : List String) :
    Invariant commands fun s => keys ⊆ s.temps.supply.used where
  noteSent _ _ h := h
  bind _ _ h := h
  supply _ _ h := h
  transactions _ _ h := h
  cached _ _ _ _ h := h
  invalidated _ _ h := h
  created _ _ _ hnew h := List.Subset.trans h (TempTables.used_realize hnew)
  notCreated _ _ hnew h := List.Subset.trans h (TempTables.used_realize hnew)
  dropped _ _ h := h

/-- No table is created under a name that was given away before, and no two under the same name. -/
theorem creations_new (s : Session) (calls : List (Call × Server)) :
    (∀ key ∈ s.temps.supply.used, "#" ++ key ∉ (s.creations commands calls).map lowercase) ∧
      ((s.creations commands calls).map lowercase).Nodup := by
  induction calls generalizing s with
  | nil => exact ⟨fun _ _ => List.not_mem_nil, List.nodup_nil⟩
  | cons c rest ih =>
    obtain ⟨hold, hnodup⟩ := ih (s.afterCall commands c)
    have hused : s.temps.supply.used ⊆ (s.afterCall commands c).temps.supply.used :=
      (used_invariant commands s.temps.supply.used).action c.1 c.2 s fun _ h => h
    have hgives := gives_afterCall commands s c
    rw [creations, List.map_append]
    generalize s.createdBy commands c = names at hgives
    cases hgives with
    | nothing => exact ⟨fun key hkey => hold key (hused hkey), hnodup⟩
    | one base hsupply =>
      have hnext := UniqueNames.used_next s.temps.supply base
      rw [← hsupply] at hnext
      rw [List.map_singleton, List.singleton_append, TempTables.lowercase_marked]
      have hlater := hold _ (hnext ▸ List.mem_cons_self)
      refine ⟨fun key hkey hmem => ?_, List.nodup_cons.2 ⟨hlater, hnodup⟩⟩
      rcases List.mem_cons.1 hmem with hsame | hrest
      · obtain rfl : key = _ := by simpa using hsame
        exact s.temps.supply.lowercase_next_notMem base hkey
      · exact hold key (hused hkey) hrest

/-- After any calls in any order, whatever was cancelled or failed, exactly the temporary tables that
exist have names; these differ in lower case; and no two tables that a session has created, or tried to
create, had the same name. -/
theorem afterCalls_registered {start : Session} (htemps : start.temps = {})
    (hlive : start.liveTemps = []) (calls : List (Call × Server)) :
    (start.afterCalls commands calls).Registered ∧
      ((start.creations commands calls).map lowercase).Nodup := by
  have hstart : start.temps.Lists start.liveTemps := by
    constructor <;> simp [htemps, hlive]
  exact ⟨((TempTables.Lists.invariant commands).afterCalls hstart calls).registered,
    (creations_new start calls).2⟩

/-- A table is created and dropped; another one whose name differs in case only is refused, and the
first one is created anew. The mapping table of a bulk insert is refused. -/
def registryCalls : List (Call × Server) :=
  [(.createTemp staging, constantServer true), (.dropTemp staging, constantServer true),
    (.createTemp { staging with id := ⟨2⟩, name := "STAGING" }, constantServer false),
    (.createTemp staging, constantServer true),
    (.bulkInsert BulkInsert.oneOrder, constantServer false)]

theorem afterCalls_registered_staging :
    (afterCalls (fun _ => .query (.table staging)) {} registryCalls).temps.names =
        [(⟨1⟩, "#Staging2")] ∧
      (afterCalls (fun _ => .query (.table staging)) {} registryCalls).Registered ∧
      creations (fun _ => .query (.table staging)) {} registryCalls =
        ["#Staging", "#STAGING1", "#Staging2", "#IdentityMap"] ∧
      ((creations (fun _ => .query (.table staging)) {} registryCalls).map lowercase).Nodup := by
  have h : (afterCalls (fun _ => .query (.table staging)) {} registryCalls).Registered ∧ _ :=
    afterCalls_registered rfl rfl registryCalls
  exact ⟨by decide +kernel, h.1, by decide +kernel, h.2⟩

end Session

end Tsql
