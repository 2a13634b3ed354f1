import Mathlib.Data.List.Sort
import Tsql.Proofs.BulkInsert.Duties
import Tsql.Proofs.BulkInsert.MappingTable

/-!
# The protocol of a bulk insert

`BulkInsert.Course` lists the duties that a run is meant to go through: none without rows, the insert
alone if no keys come back, else the mapping table, the insert, what the insert's answer asks for, and
the removal of the mapping table. Each step says which of the duties it goes through (`Went`), and a run is
its steps one after the other (`BulkInsert.runs`). Only the last request can fail with all duties sent:
`run_goesThrough_dropRefused` is a run that fails so.
-/

namespace Tsql

open ActionOn Session

namespace BulkInsert

variable {α β : Type} {server : Server} {full full₁ full₂ : List Duty}
  {run run' before between after : Run} {m : IdentityMap} {identity : Column}
  {mapped pairs : List KeyPair}

/-- What a step with a list of duties has done. It leaves alone what the texts of later duties depend
on. -/
structure Went (server : Server) (full : List Duty) (before after : Run) (r : Result α) : Prop where
  target_eq : after.session.target = before.session.target
  liveTemps_eq : after.session.liveTemps = before.session.liveTemps
  model_eq : after.job.rows.model = before.job.rows.model
  sends : ∃ stages log,
    Sends server before.session.target (full.map Duty.stage) before.session.sent after.session.sent r
      stages log

namespace Went

theorem silent {r : Result α} (ht : after.session.target = before.session.target)
    (hl : after.session.liveTemps = before.session.liveTemps)
    (hm : after.job.rows.model = before.job.rows.model)
    (hs : after.session.sent = before.session.sent) : Went server [] before after r :=
  ⟨ht, hl, hm, [], [], .silent hs⟩

/-- A step that stopped did not come to what was to be done next. -/
theorem stop {e : Error} (h : Went server full₁ before after (.error e : Result α)) :
    Went server (full₁ ++ full₂) before after (.error e : Result β) := by
  obtain ⟨ht, hl, hm, stages, log, hs⟩ := h
  exact ⟨ht, hl, hm, stages, log, List.map_append ▸ hs.stop⟩

theorem andThen {x : α} {r : Result β} (h₁ : Went server full₁ before between (.ok x))
    (h₂ : Went server full₂ between after r) : Went server (full₁ ++ full₂) before after r := by
  obtain ⟨ht₁, hl₁, hm₁, stages₁, log₁, hs₁⟩ := h₁
  obtain ⟨ht₂, hl₂, hm₂, stages₂, log₂, hs₂⟩ := h₂
  rw [ht₁] at hs₂
  exact ⟨ht₂.trans ht₁, hl₂.trans hl₁, hm₂.trans hm₁, _, _, List.map_append ▸ hs₁.andThen hs₂⟩

theorem supply_eq {r : Result α} (h : Went server full before after r) :
    after.session.temps.supply = before.session.temps.supply :=
  congrArg (fun t : Target => t.temps.supply) h.target_eq

/-- A step that stopped before its first request. -/
theorem failed (e : Error) : Went server full before before (.error e : Result α) :=
  ⟨rfl, rfl, rfl, [], [], .failed e rfl⟩

theorem of_eq {r : Result α} (h : Went server full₁ before after r) (hfull : full₁ = full₂) :
    Went server full₂ before after r := hfull ▸ h

theorem bind {a : Step α} {f : α → Step β} {r : Result β}
    (h : (a >>= f).runWith server run = (r, run'))
    (ha : ∀ {x u}, a.runWith server run = (x, u) → Went server full₁ run u x)
    (hf : ∀ {x u}, (f x).runWith server u = (r, run') → Went server full₂ u run' r) :
    Went server (full₁ ++ full₂) run run' r := by
  rcases of_bind h with ⟨e, hx, rfl⟩ | ⟨x, u, hx, hrest⟩
  · exact (ha hx).stop
  · exact (ha hx).andThen (hf hrest)

/-- A value is given at the end, whatever came of the steps before. -/
theorem map {a : Step α} {f : α → β} {r : Result β}
    (h : ActionOn.runWith (do let x ← a; pure (f x)) server run = (r, run'))
    (ha : ∀ {x u}, a.runWith server run = (x, u) → Went server full run u x) :
    Went server full run run' r :=
  (bind h ha fun h => by
    obtain ⟨rfl, rfl⟩ := Prod.mk.inj h
    exact .silent rfl rfl rfl rfl).of_eq (List.append_nil _)

end Went

theorem went_executeOnce {c : Command} {r : Result Nat} (duty : Duty) (hc : duty.stage = .execute c)
    (h : (inSession (executeOnce c)).runWith server run = (r, run')) :
    Went server [duty] run run' r := by
  obtain ⟨h, hj⟩ := of_inSession h
  obtain ⟨stages, log, hs⟩ := sends_executeOnce h
  refine ⟨?_, ?_, by rw [hj], stages, log, by simpa [hc] using hs.toSends⟩ <;>
    rcases of_executeOnce h with ⟨hs, -⟩ | ⟨q, -, hs, -⟩ <;> rw [hs] <;> rfl

theorem went_readMapping {r : Result (List KeyPair)}
    (h : (readMapping m identity).runWith server run = (r, run')) :
    Went server [.read m identity] run run' r := by
  have hall : Went server ([.read m identity] ++ []) run run' r := by
    refine Went.bind h (fun h => ?_) fun h => ?_
    · obtain ⟨h, hj⟩ := of_inSession h
      obtain ⟨stages, log, hs⟩ := sends_queryOnce h
      refine ⟨?_, ?_, by rw [hj], stages, log, hs.toSends⟩ <;>
        rcases of_queryOnce h with ⟨hs, -⟩ | ⟨q, -, hs, -⟩ <;> rw [hs] <;> rfl
    · rw [runWith_lift] at h
      obtain ⟨-, rfl⟩ := Prod.mk.inj h
      exact .silent rfl rfl rfl rfl
  exact hall

/-- The rowset that corrects the mapping table is sent where it disagrees with the pairs. -/
theorem went_realign {r : Result Unit}
    (h : (realign m identity mapped pairs).runWith server run = (r, run')) :
    ∃ correction : Option SentRowset,
      Went server (correction.map (Duty.realign m)).toList run run' r := by
  unfold realign at h
  split_ifs at h with hne
  · rw [runWith_rowset] at h
    rcases hb : m.pairRowset identity run.session.types run.session.supply pairs
      with e | ⟨rowset, supply⟩ <;> simp only [hb] at h
    · obtain ⟨rfl, rfl⟩ := Prod.mk.inj h
      exact ⟨none, .failed e⟩
    · obtain ⟨d, -, hbuilt⟩ := Result.bind_eq_ok hb
      obtain ⟨sent, rfl⟩ := exists_sentRowset hbuilt
      have hbound : Went server [] run
          ⟨binding run.session supply sent.toRowset, run.job⟩ (.ok () : Result Unit) :=
        .silent rfl rfl rfl rfl
      exact ⟨some sent, hbound.andThen (Went.map h (went_executeOnce (.realign m sent) rfl))⟩
  · obtain ⟨rfl, rfl⟩ := Prod.mk.inj h
    exact ⟨none, .silent rfl rfl rfl rfl⟩

theorem went_remapTempTables {items : List (Model × Field)} {r : Result Nat}
    (h : (remapTempTables m items).runWith server run = (r, run')) :
    Went server (items.map (Duty.follow m)) run run' r := by
  induction items generalizing run run' r with
  | nil =>
    obtain ⟨rfl, rfl⟩ := Prod.mk.inj h
    exact .silent rfl rfl rfl rfl
  | cons item rest ih =>
    exact Went.bind h (went_executeOnce (.follow m item) rfl) fun h => Went.map h ih

theorem went_remapChildren {f : Field} {remapping : Remapping} {r : Result Nat}
    (h : (remapChildren f remapping).runWith server run = (r, run')) :
    Went server [] run run' r := by
  obtain ⟨hs, hrows, -⟩ := of_remapChildren h
  exact .silent (by rw [hs]) (by rw [hs]) (by rw [hrows]) (by rw [hs])

/-- The duties by which foreign keys follow the new keys. -/
def followDuties (m : IdentityMap) (correction : Option SentRowset) (children : List (Model × Field)) :
    List Duty :=
  (correction.map (Duty.realign m)).toList ++ children.map (Duty.follow m)

/-- The children of a run's rows in temporary tables. -/
def Run.tempChildren (run : Run) (identity : Column) : List (Model × Field) :=
  run.session.tempChildren run.job.rows.model.id identity.name

theorem Went.tempChildren_eq {r : Result α} (h : Went server full before after r)
    (identity : Column) : after.tempChildren identity = before.tempChildren identity := by
  unfold Run.tempChildren Session.tempChildren tempModels
  rw [h.liveTemps_eq, h.model_eq]

theorem went_follow {inserted : Nat} {r : Result BulkOutcome}
    (h : (follow m identity inserted mapped pairs).runWith server run = (r, run')) :
    ∃ correction,
      Went server (followDuties m correction (run.tempChildren identity)) run run' r := by
  unfold follow at h
  rcases of_bind h with ⟨e, hr, rfl⟩ | ⟨x, u, hr, h⟩ <;>
    obtain ⟨correction, hrealigned⟩ := went_realign hr
  · exact ⟨correction, hrealigned.stop⟩
  refine ⟨correction, hrealigned.andThen ?_⟩
  rcases of_bind h with ⟨e, hc, rfl⟩ | ⟨n, v, hc, h⟩ <;> have hchildren := went_remapChildren hc
  · exact hchildren.stop
  rw [← hrealigned.tempChildren_eq identity, ← hchildren.tempChildren_eq identity]
  rw [runWith_bind, runWith_get] at h
  exact hchildren.andThen (Went.map h went_remapTempTables)

theorem went_propagate {inserted : Nat} {spec : IdentitySpec} {r : Result BulkOutcome}
    (hspec : identity.identity = some spec)
    (ho : (run.job.rows.model.ordinal? identity.id).isSome)
    (hp : run.job.rows.checkProvisional identity = .ok ())
    (h : (propagate m identity inserted).runWith server run = (r, run')) :
    ∃ correction, Went server (.read m identity ::
      followDuties m correction (run.tempChildren identity)) run run' r := by
  rw [propagate_eq] at h
  rcases of_bind h with ⟨e, hm, rfl⟩ | ⟨mapped, u, hm, h⟩ <;> have hread := went_readMapping hm
  · exact ⟨none, hread.stop⟩
  obtain ⟨hj, -⟩ := of_readMapping hm
  rw [runWith_bind, runWith_get] at h
  dsimp only at h
  rw [runWith_bind, runWith_lift, hj] at h
  cases hk : run.job.rows.pairKeys identity.toField mapped with
  | error e =>
    simp only [hk] at h
    obtain ⟨rfl, rfl⟩ := Prod.mk.inj h
    exact ⟨none, hread.andThen (.failed e)⟩
  | ok pairs =>
    obtain ⟨rows, hw, hkeyed⟩ := DataSet.writeKeys_of_pairKeys hspec ho hp hk
    simp only [hk] at h
    rw [runWith_bind, runWith_writeKeys, hj, hw] at h
    have hwritten : Went server [] u ⟨u.session, { run.job with rows }⟩ (.ok () : Result Unit) :=
      .silent rfl rfl (by rw [hj]; exact hkeyed.model_eq) rfl
    obtain ⟨correction, hfollowed⟩ := went_follow h
    rw [hwritten.tempChildren_eq, hread.tempChildren_eq] at hfollowed
    exact ⟨correction, hread.andThen (hwritten.andThen hfollowed)⟩

/-- The last step of a run drops the mapping table. -/
theorem sends_dropping {a : Step BulkOutcome} {r r' : Result BulkOutcome}
    (h : ActionOn.runWith (do
      let outcome ← a
      inSession (dropTemp m.model)
      pure outcome) server run = (r, run'))
    (ha : a.runWith server run = (r', between)) (hw : Went server full run between r') :
    run'.session.temps.supply = run.session.temps.supply ∧
      ∃ stages log, SendsExactly server run.session.target ((full ++ [Duty.drop m]).map Duty.stage)
        run.session.sent run'.session.sent r stages log := by
  obtain ⟨stages, log, hs⟩ := hw.sends
  rw [List.map_append]
  rw [runWith_bind, ha] at h
  cases r' with
  | error e =>
    obtain ⟨rfl, rfl⟩ := Prod.mk.inj h
    exact ⟨hw.supply_eq, stages, log, hs.stopBefore (List.cons_ne_nil _ _)⟩
  | ok o =>
    obtain ⟨r₂, hd, rfl⟩ : ∃ r₂, (inSession (dropTemp m.model)).runWith server between =
        (r₂, run') ∧ r = r₂.map fun _ => o := by
      rcases of_bind h with ⟨e, hd, rfl⟩ | ⟨x, u, hd, h⟩
      · exact ⟨_, hd, rfl⟩
      · obtain ⟨rfl, rfl⟩ := Prod.mk.inj h
        exact ⟨_, hd, rfl⟩
    obtain ⟨hd, -⟩ := of_inSession hd
    have hsupply := preserves_dropTemp _ m.model server between.session rfl
    rw [hd] at hsupply
    obtain ⟨stages', log', hs'⟩ := sends_dropTemp hd
    rw [hw.target_eq] at hs'
    exact ⟨hsupply.trans hw.supply_eq, _, _, hs.andThenExactly (hs'.returns exists_map_ok)⟩

/-- The duties behind the insert: there are some only if rows were inserted. -/
def answerDuties (m : IdentityMap) (identity : Column) (inserted : Nat)
    (correction : Option SentRowset) (children : List (Model × Field)) : List Duty :=
  if 0 < inserted then .read m identity :: followDuties m correction children else []

/-- The insert and the steps behind it, up to the removal of the mapping table. -/
theorem exists_inserting (duty : Duty) {insert : Command} {spec : IdentitySpec}
    {r : Result BulkOutcome} (hc : duty.stage = .execute insert)
    (hspec : identity.identity = some spec)
    (ho : (run.job.rows.model.ordinal? identity.id).isSome)
    (hp : run.job.rows.checkProvisional identity = .ok ())
    (h : ActionOn.runWith (do
      let inserted ← inSession (executeOnce insert)
      let outcome ←
        if 0 < inserted then propagate m identity inserted
        else pure { completed := true, inserted }
      inSession (dropTemp m.model)
      pure outcome) server run = (r, run')) :
    run'.session.temps.supply = run.session.temps.supply ∧
      ∃ inserted correction stages log, SendsExactly server run.session.target
          ((duty :: (answerDuties m identity inserted correction (run.tempChildren identity)
            ++ [.drop m])).map Duty.stage) run.session.sent run'.session.sent r stages log ∧
        ∀ q n, log[0]? = some q → server.affected run.session.sent q = .ok n → inserted = n := by
  rcases of_bind h with ⟨e, hi, rfl⟩ | ⟨inserted, u, hi, h⟩ <;>
    have hw := went_executeOnce duty hc hi <;>
    obtain ⟨stages, log, hs⟩ := hw.sends <;> obtain ⟨hi, hj⟩ := of_inSession hi <;>
    have hsent := hs.sent_eq
  · refine ⟨hw.supply_eq, 0, none, stages, log, hs.stopBefore (by simp), fun q n hq hn => ?_⟩
    rcases of_executeOnce hi with ⟨ht, -⟩ | ⟨q', -, ht, hfailed⟩ <;> rw [ht] at hsent
    · obtain rfl := List.self_eq_append_right.1 hsent
      cases hq
    · obtain rfl : [q'] = log := List.append_cancel_left hsent
      obtain rfl : q' = q := by simpa using hq
      rw [hn] at hfailed
      cases hfailed
  obtain ⟨q, -, ht, haffected⟩ : ∃ q, _ ∧ u.session = run.session.noteSent q ∧
      .ok inserted = server.affected run.session.sent q := by
    rcases of_executeOnce hi with ⟨-, e, he⟩ | hq
    · cases he
    · exact hq
  rw [ht] at hsent
  obtain rfl : [q] = log := List.append_cancel_left hsent
  obtain ⟨correction, hsupply, stages', log', hs'⟩ : ∃ correction,
      run'.session.temps.supply = u.session.temps.supply ∧ ∃ stages' log',
        SendsExactly server u.session.target ((answerDuties m identity inserted correction
          (run.tempChildren identity) ++ [Duty.drop m]).map Duty.stage) u.session.sent
          run'.session.sent r stages' log' := by
    rw [← hw.tempChildren_eq]
    by_cases hpos : 0 < inserted
    · simp only [hpos, if_true] at h
      obtain ⟨correction, hbody⟩ := went_propagate hspec (hj ▸ ho) (hj ▸ hp) rfl
      refine ⟨correction, ?_⟩
      rw [answerDuties, if_pos hpos]
      exact sends_dropping h rfl hbody
    · simp only [hpos, if_false] at h
      refine ⟨none, ?_⟩
      rw [answerDuties, if_neg hpos]
      exact sends_dropping h rfl (.silent rfl rfl rfl rfl)
  rw [hw.target_eq] at hs'
  refine ⟨hsupply.trans hw.supply_eq, inserted, correction, _, _, hs.andThenExactly hs',
    fun q' n hq hn => ?_⟩
  obtain rfl : q = q' := by simpa using hq
  rw [hn] at haffected
  exact Except.ok.inj haffected

/-! ### The order of the children -/

theorem sortByNumber_eq {α : Type} (number : α → Nat) (xs : List α) :
    sortByNumber number xs = xs.insertionSort fun a b => number a ≤ number b := by
  induction xs with
  | nil => rfl
  | cons a rest ih =>
    rw [sortByNumber, ih, List.insertionSort_cons]
    induction rest.insertionSort fun a b => number a ≤ number b with
    | nil => rfl
    | cons b rest ih => rw [insertByNumber, ih, List.orderedInsert]

theorem flatMap_insertByNumber {β : Type} {number : α → Nat} {f : α → List β} {a : α} (h : f a = [])
    (xs : List α) : (insertByNumber number a xs).flatMap f = xs.flatMap f := by
  induction xs with
  | nil => simp [insertByNumber, h]
  | cons b rest ih =>
    rw [insertByNumber]
    split
    · simp [h]
    · rw [List.flatMap_cons, ih, List.flatMap_cons]

theorem tempModels_sorted (s : Session) : s.tempModels.Perm (s.liveTemps.map Prod.snd) ∧
    s.tempModels.Pairwise fun a b => a.id.number ≤ b.id.number := by
  rw [tempModels, sortByNumber_eq]
  exact ⟨List.perm_insertionSort _ _, List.pairwise_insertionSort _ _⟩

/-- The foreign keys of one column by which a model refers to an identity column. -/
def childrenIn (parent : ModelId) (identity : Column) (child : Model) : List (Model × Field) :=
  (child.constraints.filterMap (Constraint.referring? parent identity.name)).map fun f => (child, f)

theorem childrenIn_eq (parent : ModelId) (identity : Column) (child : Model) :
    childrenIn parent identity child =
      (child.childColumns parent identity.name).map fun f => (child, f) := by
  rw [childrenIn, Model.childColumns_eq]

theorem childrenIn_of_make {supply supply' : Supply}
    (h : IdentityMap.make supply identity = .ok (m, supply')) (parent : ModelId) :
    childrenIn parent identity m.model = [] := by
  unfold IdentityMap.make at h
  obtain ⟨spec, -, h⟩ := Result.bind_eq_ok h
  cases h
  rfl

/-! ### Whole runs -/

/-- The duties that a run is meant to go through, the target that its requests are written for, and the
name of its mapping table. The number of inserted rows is the answer to the second request. -/
inductive Course (job : BulkInsert) (server : Server) (session : Session) (log : List Request) :
    Target → String → List Duty → Prop where
  | empty {mapping : String} (h : job.rows.rows.isEmpty = true) :
      Course job server session log session.target mapping []
  | plain {mapping : String} (rowset : SentRowset) (h : job.rows.rows.isEmpty = false)
      (unkeyed : job.rows.model.identityColumn? = none ∨ job.propagates = false) :
      Course job server session log session.target mapping [.insert job.rows.model rowset]
  | keyed {identity : Column} {mapping : String} (rowset : SentRowset) {m : IdentityMap}
      {inserted : Nat} (correction : Option SentRowset) {models : List Model}
      (h : job.rows.rows.isEmpty = false)
      (identity_eq : job.rows.model.identityColumn? = some identity)
      (propagates : job.propagates = true) (made : m.Made identity)
      (fresh : session.temps.get? m.model.id = none)
      (named : (session.temps.realize m.model).2.get? m.model.id = some mapping)
      (inserted_eq : ∀ q n, log[1]? = some q →
        server.affected (session.sent ++ log.take 1) q = .ok n → inserted = n)
      (live : models.Perm (session.liveTemps.map Prod.snd))
      (ascending : models.Pairwise fun a b => a.id.number ≤ b.id.number) :
      Course job server session log
        { session.target with temps := (session.temps.realize m.model).2 } mapping
        (.create m :: .insertKeyed job.rows.model rowset m identity ::
          (answerDuties m identity inserted correction
            (models.flatMap (childrenIn job.rows.model.id identity)) ++ [.drop m]))

theorem Course.says {job : BulkInsert} {session : Session} {log : List Request} {t : Target}
    {mapping : String} {full : List Duty} (h : Course job server session log t mapping full)
    {duty : Duty} (hd : duty ∈ full) {q : Request} (hq : duty.stage.SentAs t q) :
    duty.Says t mapping q.sql := by
  cases h with
  | empty => cases hd
  | plain rowset =>
    obtain rfl := List.mem_singleton.1 hd
    exact Duty.says_insert hq
  | keyed rowset correction _ identity_eq _ made _ named =>
    simp only [List.mem_cons, List.mem_append, List.not_mem_nil, or_false] at hd
    rcases hd with rfl | rfl | hd | rfl
    · exact Duty.says_create named hq
    · exact Duty.says_insertKeyed named made identity_eq hq
    · unfold answerDuties followDuties at hd
      split at hd
      · simp only [List.mem_cons, List.mem_append, Option.mem_toList, Option.map_eq_some_iff,
          List.mem_map] at hd
        rcases hd with rfl | ⟨pairs, -, rfl⟩ | ⟨child, -, rfl⟩
        · exact Duty.says_read named made hq
        · exact Duty.says_realign named made hq
        · exact Duty.says_follow named made hq
      · cases hd
    · exact Duty.says_drop named hq

/-- What comes of a run: nothing was sent and it failed, or it went through its duties. In the end the
names that its target knows as given away are still so. -/
def Runs (job : BulkInsert) (server : Server) (session session' : Session)
    (r : Result BulkOutcome) : Prop :=
  (session'.sent = session.sent ∧ ∃ e, r = .error e) ∨
    ∃ t mapping full stages log, Course job server session log t mapping full ∧
      SendsExactly server t (full.map Duty.stage) session.sent session'.sent r stages log ∧
      session'.temps.supply = t.temps.supply

section

variable {job job' : BulkInsert} {session session' s : Session} {r : Result BulkOutcome}
  {rowset : SentRowset}

/-- A run that is about to create its mapping table. The session `s` differs from the one that the run
began with in values of parameters and in its supply only. -/
structure AtTable (job : BulkInsert) (session s : Session) (identity : Column) (m : IdentityMap) :
    Prop where
  target_eq : s.target = session.target
  liveTemps_eq : s.liveTemps = session.liveTemps
  sent_eq : s.sent = session.sent
  nonempty : job.rows.rows.isEmpty = false
  identity_eq : job.rows.model.identityColumn? = some identity
  propagates : job.propagates = true
  provisional : job.rows.checkProvisional identity = .ok ()
  made : m.Made identity
  childless : childrenIn job.rows.model.id identity m.model = []

namespace AtTable

variable (a : AtTable job session s identity m)

include a

theorem temps_eq : s.temps = session.temps := congrArg Target.temps a.target_eq

theorem naming_target : (s.naming m.model).target =
    { session.target with temps := (session.temps.realize m.model).2 } := by
  rw [← a.target_eq, ← a.temps_eq]
  rfl

theorem course (server : Server) (log : List Request) (i : Nat) (rowset : SentRowset)
    (correction : Option SentRowset)
    (hnew : s.temps.get? m.model.id = none)
    (hinserted : ∀ q n, log[1]? = some q →
      server.affected (session.sent ++ log.take 1) q = .ok n → i = n) :
    ∃ mapping, Course job server session log (s.naming m.model).target mapping
      (.create m :: .insertKeyed job.rows.model rowset m identity ::
        (answerDuties m identity i correction
          (session.tempModels.flatMap (childrenIn job.rows.model.id identity)) ++ [.drop m])) := by
  obtain ⟨hperm, hascending⟩ := tempModels_sorted session
  rw [a.temps_eq] at hnew
  rw [a.naming_target]
  exact ⟨_, .keyed rowset correction a.nonempty a.identity_eq a.propagates a.made hnew
    (TempTables.get?_realize_self hnew) hinserted hperm hascending⟩

/-- The mapping table was not created. -/
theorem runs_notCreated (rowset : SentRowset) {e : Error}
    (h : (createTemp m.model).runWith server s = (.error e, session')) :
    Runs job server session session' (.error e) := by
  cases hc : ensureCreatable s m.model with
  | error e =>
    rw [runWith_createTemp, hc] at h
    obtain ⟨-, rfl⟩ := Prod.mk.inj h
    exact .inl ⟨a.sent_eq, _, rfl⟩
  | ok _ =>
    obtain ⟨stages, log, hs⟩ := sends_createTemp h
    rw [a.sent_eq] at hs
    have hlength : log.length ≤ 1 := hs.sentAs.length_eq ▸ hs.isPrefix.length_le
    obtain ⟨mapping, hcourse⟩ := a.course server log 0 rowset none
      (ensureCreatable_ok hc) fun q n hq => by
        rw [List.getElem?_eq_none hlength] at hq
        cases hq
    exact .inr ⟨_, mapping, _, stages, log, hcourse,
      hs.toSends.stopBefore (List.cons_ne_nil _ _), supply_createTemp hc h⟩

/-- The mapping table was created, so it is among the tables that exist; it has no children. -/
theorem tempChildren_eq {u : Run} {q : Request} (hu : u.session = s.withTemp m.model q)
    (hj : u.job = job) : u.tempChildren identity =
      session.tempModels.flatMap (childrenIn job.rows.model.id identity) := by
  have hmodels : u.session.tempModels =
      insertByNumber (fun m => m.id.number) m.model session.tempModels := by
    rw [hu, tempModels, tempModels, ← a.liveTemps_eq]
    rfl
  rw [Run.tempChildren, Session.tempChildren, hmodels, hj]
  simp only [← childrenIn_eq]
  exact flatMap_insertByNumber a.childless _

theorem runs_created {u : Run} {name : String}
    (hcreate : (createTemp m.model).runWith server s = (.ok name, u.session)) (hj : u.job = job)
    (h : ActionOn.runWith (do
      let inserted ← inSession
        (executeOnce (rowsetInsert job.rows.model rowset.toRowset (some m.model)))
      let outcome ←
        if 0 < inserted then propagate m identity inserted
        else pure { completed := true, inserted }
      inSession (dropTemp m.model)
      pure outcome) server u = (r, ⟨session', job'⟩)) :
    Runs job server session session' r := by
  rcases of_createTemp hcreate with ⟨e, he, -⟩ | ⟨hnew, q, -, -, hu⟩
  · cases he
  obtain ⟨stages, log, hs⟩ := sends_createTemp hcreate
  obtain ⟨spec, hspec⟩ := Model.spec_identityColumn a.identity_eq
  obtain ⟨hsupply, inserted, correction, stages', log', hs', hinserted⟩ :=
    exists_inserting (.insertKeyed job.rows.model rowset m identity) rfl hspec
      (hj ▸ Model.ordinal?_identityColumn a.identity_eq) (hj ▸ a.provisional) h
  have hsent := hs.sent_eq
  rw [hu] at hsent
  obtain rfl : [q] = log := List.append_cancel_left hsent
  have htarget : u.session.target = (s.naming m.model).target := by
    rw [hu]
    rfl
  obtain ⟨mapping, hcourse⟩ := a.course server ([q] ++ log') inserted rowset correction
    hnew fun q' n hq hn => by
      refine hinserted q' n (by simpa using hq) ?_
      rw [hu]
      show server.affected (s.sent ++ [q]) q' = _
      rw [a.sent_eq]
      exact hn
  rw [a.tempChildren_eq hu hj, htarget] at hs'
  rw [a.sent_eq] at hs
  refine .inr ⟨_, mapping, _, _, _, hcourse, hs.toSends.andThenExactly hs', hsupply.trans ?_⟩
  rw [hu]
  rfl

/-- The part of a run from the mapping table on. -/
theorem runs_creating
    (h : ActionOn.runWith (do
      let _ ← inSession (createTemp m.model)
      let inserted ← inSession
        (executeOnce (rowsetInsert job.rows.model rowset.toRowset (some m.model)))
      let outcome ←
        if 0 < inserted then propagate m identity inserted
        else pure { completed := true, inserted }
      inSession (dropTemp m.model)
      pure outcome) server ⟨s, job⟩ = (r, ⟨session', job'⟩)) :
    Runs job server session session' r := by
  rcases of_bind h with ⟨e, hcreate, rfl⟩ | ⟨name, u, hcreate, h⟩ <;>
    obtain ⟨hcreate, hj⟩ := of_inSession hcreate
  · exact a.runs_notCreated rowset hcreate
  · exact a.runs_created hcreate hj h

end AtTable

theorem runs_withMapping {supply : Supply} (hrows : job.rows.rows.isEmpty = false)
    (hi : job.rows.model.identityColumn? = some identity) (hp : job.propagates = true)
    (h : (runWithMapping identity rowset.toRowset).runWith server
      ⟨binding session supply rowset.toRowset, job⟩ = (r, ⟨session', job'⟩)) :
    Runs job server session session' r := by
  rw [runWithMapping, runWith_bind, runWith_get] at h
  dsimp only at h
  rw [runWith_bind, runWith_lift] at h
  cases hprovisional : job.rows.checkProvisional identity with
  | error e =>
    simp only [hprovisional] at h
    obtain ⟨rfl, he⟩ := Prod.mk.inj h
    cases he
    exact .inl ⟨rfl, e, rfl⟩
  | ok _ =>
    simp only [hprovisional] at h
    rw [runWith_bind, runWith_supplying] at h
    rcases hm : IdentityMap.make supply identity with e | ⟨m, supply'⟩
    · simp only [binding, hm] at h
      obtain ⟨rfl, he⟩ := Prod.mk.inj h
      cases he
      exact .inl ⟨rfl, e, rfl⟩
    · simp only [binding, hm] at h
      have hat : AtTable job session
          { binding session supply rowset.toRowset with supply := supply' } identity m :=
        ⟨rfl, rfl, rfl, hrows, hi, hp, hprovisional, IdentityMap.made hm, childrenIn_of_make hm _⟩
      exact hat.runs_creating h

theorem runs (h : job.run server session = (r, job', session')) :
    Runs job server session session' r := by
  have hrun := steps_of_run h
  rw [steps, runWith_bind, runWith_get] at hrun
  dsimp only at hrun
  split_ifs at hrun with hempty
  · obtain ⟨rfl, he⟩ := Prod.mk.inj hrun
    cases he
    exact .inr ⟨_, "", _, [], [], .empty hempty, ⟨.silent rfl, fun _ _ => ⟨_, rfl⟩⟩, rfl⟩
  rw [Bool.not_eq_true] at hempty
  rw [runWith_bind, runWith_sendRows] at hrun
  rcases hb : Rowset.build session.supply job.rows session.types job.rows.model.insertableColumns
    with e | ⟨rowset, supply⟩ <;> simp only [hb] at hrun
  · obtain ⟨rfl, he⟩ := Prod.mk.inj hrun
    cases he
    exact .inl ⟨rfl, e, rfl⟩
  obtain ⟨rowset, rfl⟩ := exists_sentRowset hb
  split at hrun
  next identity hi hp => exact runs_withMapping hempty hi hp hrun
  next hne =>
    have hunkeyed : job.rows.model.identityColumn? = none ∨ job.propagates = false := by
      cases hi : job.rows.model.identityColumn? with
      | none => exact .inl rfl
      | some identity => exact .inr (Bool.eq_false_iff.2 (hne identity hi))
    obtain ⟨r', hsent, hr⟩ : ∃ r', (inSession (executeOnce
        (rowsetInsert job.rows.model rowset.toRowset none))).runWith server
          ⟨binding session supply rowset.toRowset, job⟩ = (r', ⟨session', job'⟩) ∧
            ((∃ o, r = .ok o) ↔ ∃ n, r' = .ok n) := by
      rcases of_bind hrun with ⟨e, hi, rfl⟩ | ⟨n, u, hi, hu⟩
      · exact ⟨_, hi, by simp⟩
      · cases hu
        exact ⟨_, hi, by simp⟩
    obtain ⟨stages, log, hs⟩ := sends_executeOnce (of_inSession hsent).1
    exact .inr ⟨_, "", _, stages, log, .plain rowset hempty hunkeyed, hs.returns hr,
      (went_executeOnce (.insert job.rows.model rowset) rfl hsent).supply_eq⟩

theorem Course.sentAs {t : Target} {mapping : String} {full : List Duty} {stages : List Stage}
    {log log' : List Request} (h : Course job server session log' t mapping full)
    (hp : stages <+: full.map Duty.stage) (hs : List.Forall₂ (Stage.SentAs t) stages log) :
    ∃ duties, duties <+: full ∧ duties.map Duty.stage = stages ∧
      List.Forall₂ (Duty.SentAs t mapping) duties log := by
  obtain ⟨duties, hduties, rfl⟩ := List.prefix_map_iff.1 hp
  refine ⟨duties, hduties, rfl, ?_⟩
  have hall := (List.forall₂_and_left _ _).2
    ⟨fun duty hd => hduties.subset hd, List.forall₂_map_left_iff.1 hs⟩
  exact hall.imp fun duty q ⟨hd, hq⟩ => ⟨hq, h.says hd hq⟩

/-- A run goes through the duties that it is meant to go through, in their order, as far as it comes. It
sends nothing behind a cancellation or a failed request, and gives an outcome exactly if it has sent the
requests of all duties and all were answered. -/
theorem run_goesThrough (job : BulkInsert) (server : Server) (session : Session) :
    ∃ log, (job.run server session).2.2.sent = session.sent ++ log ∧
      server.Paces session.sent log ∧
      ((log = [] ∧ ∃ e, (job.run server session).1 = .error e) ∨
        ∃ t mapping full duties, Course job server session log t mapping full ∧ duties <+: full ∧
          List.Forall₂ (Duty.SentAs t mapping) duties log ∧
          ((∃ o, (job.run server session).1 = .ok o) ↔
            duties = full ∧ server.AnswersAll session.sent log)) := by
  rcases h : job.run server session with ⟨r, job', session'⟩
  rcases runs h with ⟨hs, e, he⟩ | ⟨t, mapping, full, stages, log, hcourse, hs, -⟩
  · exact ⟨[], by rw [hs, List.append_nil], .nil, .inl ⟨rfl, e, he⟩⟩
  obtain ⟨duties, hduties, rfl, hsent⟩ := hcourse.sentAs hs.isPrefix hs.sentAs
  refine ⟨log, hs.sent_eq, hs.paces, .inr ⟨t, mapping, full, duties, hcourse, hduties, hsent, ?_⟩⟩
  constructor
  · rintro ⟨o, ho⟩
    obtain ⟨hall, hanswers⟩ := hs.complete o ho
    exact ⟨hduties.eq_of_length (by simpa using congrArg List.length hall), hanswers⟩
  · rintro ⟨rfl, hanswers⟩
    exact hs.ok rfl hanswers

/-- The keys of two orders arrive in the wrong order, and lines in a temporary table refer to them: the
mapping table is corrected before the lines follow it. -/
theorem run_goesThrough_crossed :
    let identity : Column := { id := ⟨1⟩, name := "Id", type := .int32, identity := some ⟨1, 1⟩ }
    ∃ t mapping m rowset correction, m.Made identity ∧
      t.temps.get? m.model.id = some mapping ∧ t.temps.get? pendingLines.id = some "#Pending" ∧
      List.Forall₂ (Duty.SentAs t mapping)
        [.create m, .insertKeyed orders.model rowset m identity, .read m identity,
          .realign m correction, .follow m (pendingLines, lineOrder), .drop m]
        (crossedInsert.run crossed pendingSession).2.2.sent := by
  have hresult : (crossedInsert.run crossed pendingSession).1 = .ok
      { completed := true, inserted := 2, propagated := 2, childrenRemapped := 2
        tempRowsRemapped := 2 } := by decide +kernel
  have hlength : (crossedInsert.run crossed pendingSession).2.2.sent.length = 6 := by decide +kernel
  obtain ⟨log, hsent, -, hgoes⟩ := run_goesThrough crossedInsert crossed pendingSession
  obtain rfl : (crossedInsert.run crossed pendingSession).2.2.sent = log := hsent
  rcases hgoes with ⟨-, e, he⟩ | ⟨t, mapping, full, duties, hcourse, -, hduties, hdone⟩
  · rw [hresult] at he
    cases he
  obtain ⟨rfl, -⟩ := hdone.1 ⟨_, hresult⟩
  have hsix := hduties.length_eq.trans hlength
  cases hcourse with
  | empty h => cases h
  | plain rowset h unkeyed => cases hsix
  | keyed rowset correction _ identity_eq _ made fresh named inserted_eq live _ =>
    obtain rfl := Option.some.inj identity_eq
    obtain rfl := List.perm_singleton.1 live
    obtain rfl := inserted_eq _ 2 (List.getElem?_eq_getElem (by rw [hlength]; decide)) rfl
    cases correction with
    | none => cases hsix
    | some correction =>
      have hpending := TempTables.IsKeptBy.realize fresh pendingLines.id "#Pending" rfl
      exact ⟨_, mapping, _, rowset, correction, made, named, hpending, hduties⟩

def oneOrder : BulkInsert where
  rows :=
    { DataSet.empty { Model.empty ⟨1⟩ "Order" .table with
        columns := [{ id := ⟨1⟩, name := "Id", type := .int32, identity := some ⟨1, 1⟩ },
          { id := ⟨2⟩, name := "Amount", type := .int32 }] } with
      rows := [{ values := [.int32 1, .int32 7] }] }

/-- A server that inserts nothing and does not drop tables. -/
def refusesDrop : Server where
  affected _ q := if q.sql = "DROP TABLE [#IdentityMap];" then .error (.database "refused") else .ok 0
  rows _ _ := .ok []
  cancelled _ := false

/-- All requests of a run were sent, and it fails: the last one was refused. -/
theorem run_goesThrough_dropRefused :
    ∃ t mapping full, Course oneOrder refusesDrop { supply := ⟨2, 3, 1⟩ }
        (oneOrder.run refusesDrop { supply := ⟨2, 3, 1⟩ }).2.2.sent t mapping full ∧
      List.Forall₂ (Duty.SentAs t mapping) full
        (oneOrder.run refusesDrop { supply := ⟨2, 3, 1⟩ }).2.2.sent ∧
      (oneOrder.run refusesDrop { supply := ⟨2, 3, 1⟩ }).1 = .error (.database "refused") := by
  have hresult : (oneOrder.run refusesDrop { supply := ⟨2, 3, 1⟩ }).1 =
      .error (.database "refused") := by decide +kernel
  have hlength : (oneOrder.run refusesDrop { supply := ⟨2, 3, 1⟩ }).2.2.sent.length = 3 := by
    decide +kernel
  have hinsert : ((oneOrder.run refusesDrop { supply := ⟨2, 3, 1⟩ }).2.2.sent[1]?.map
      (refusesDrop.affected [])) = some (.ok 0) := by decide +kernel
  rcases h : oneOrder.run refusesDrop { supply := ⟨2, 3, 1⟩ } with ⟨r, job', session'⟩
  rw [h] at hresult hlength hinsert
  dsimp only at hresult hlength hinsert ⊢
  rcases runs h with ⟨hs, -⟩ | ⟨t, mapping, full, stages, log, hcourse, hs, -⟩
  · rw [hs] at hlength
    cases hlength
  obtain ⟨duties, hduties, rfl, hduty⟩ := hcourse.sentAs hs.isPrefix hs.sentAs
  have hsent : session'.sent = log := hs.sent_eq.trans (List.nil_append log)
  rw [hsent] at hlength hinsert ⊢
  have hthree : duties.length = 3 := hduty.length_eq.trans hlength
  have hfull : duties = full := by
    refine hduties.eq_of_length_le ?_
    rw [hthree]
    cases hcourse with
    | empty h => cases h
    | plain _ _ _ => exact Nat.le_add_left _ _
    | keyed _ _ _ _ _ _ _ _ hinserted _ _ =>
      obtain ⟨q, hq, hzero⟩ := Option.map_eq_some_iff.1 hinsert
      obtain rfl := hinserted q 0 hq hzero
      exact le_rfl
  exact ⟨t, mapping, full, hcourse, hfull ▸ hduty, hresult⟩

end

end BulkInsert

end Tsql
