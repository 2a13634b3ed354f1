import Tsql.Proofs.Naming.TempTables
import Tsql.Proofs.Result
import Tsql.Proofs.Render.Writes

/-!
# Renderings with more temporary tables

A rendering looks up the names of the temporary tables that it mentions and nothing else about them.
So where it succeeded it stays the same while tables are added: `Target.generate_withTemps`.
-/

namespace Tsql

open Emission

namespace TempTables

variable {less more : TempTables} {m : Model}

namespace IsKeptBy

variable (h : less.IsKeptBy more)

include h

theorem require {name : String} (hr : less.require m = .ok name) : more.require m = .ok name :=
  require_eq_ok.2 (h _ _ (require_eq_ok.1 hr))

theorem aliasBase {base : String} (hb : less.aliasBase m = .ok base) :
    more.aliasBase m = .ok base := by
  unfold TempTables.aliasBase at hb ⊢
  cases hs : m.source with
  | table => simpa [hs] using hb
  | jsonRowset p => simpa [hs] using hb
  | derived => simpa [hs] using hb
  | tempTable =>
    simp only [hs] at hb ⊢
    obtain ⟨name, hr, rfl⟩ := Result.map_eq_ok hb
    rw [h.require hr]
    rfl

theorem addAlias {acc acc' : AliasMap × UniqueNames} (ha : less.addAlias acc m = .ok acc') :
    more.addAlias acc m = .ok acc' := by
  unfold TempTables.addAlias at ha ⊢
  dsimp only at ha ⊢
  split at ha
  · cases ha
  · obtain ⟨base, hb, ha⟩ := Result.bind_eq_ok ha
    rw [h.aliasBase hb]
    exact ha

theorem aliases {models : List Model} {a : AliasMap} (ha : less.aliases models = .ok a) :
    more.aliases models = .ok a := by
  obtain ⟨acc, hf, rfl⟩ := Result.map_eq_ok ha
  rw [TempTables.aliases, Result.foldlM_eq_ok (fun _ _ _ => h.addAlias) hf]
  rfl

end IsKeptBy

end TempTables

/-- The second rendering is the first one, unless that stopped with an error. -/
def Emission.IsKeptBy (x y : Emission) : Prop := x.failure = none → y = x

namespace Emission.IsKeptBy

theorem refl (x : Emission) : x.IsKeptBy x := fun _ => rfl

theorem append {a a' b b' : Emission} (ha : a.IsKeptBy a') (hb : b.IsKeptBy b') :
    (a ++ b).IsKeptBy (a' ++ b') := by
  intro h
  obtain ⟨hfa, hfb⟩ := failure_append.1 h
  rw [ha hfa, hb hfb]

theorem after {α : Type} {r r' : Result α} {f f' : α → Emission}
    (hr : ∀ a, r = .ok a → r' = .ok a) (hf : ∀ a, (f a).IsKeptBy (f' a)) :
    (Emission.after r f).IsKeptBy (Emission.after r' f') := by
  intro h
  obtain ⟨a, ha, hfa⟩ := failure_after h
  rw [ha, hr a ha]
  exact hf a hfa

theorem select (scope : Scope) (outermost : Bool) (s : Select) {source source' : Emission}
    (hs : source.IsKeptBy source') :
    (scope.select outermost s (some source)).IsKeptBy (scope.select outermost s (some source')) := by
  unfold Scope.select
  refine .append (.append (.append (.append (.append (.refl _) ?_) (.refl _)) (.refl _)) (.refl _))
    (.refl _)
  exact .append (.refl _) hs

theorem nested {x y : Emission} (hx : x.IsKeptBy y) : (Tsql.nested x).IsKeptBy (Tsql.nested y) :=
  .append (.append (.append (.append (.refl _) hx) (.refl _)) (.refl _)) (.refl _)

theorem aliased (aliases : AliasMap) (output : Model) {x y : Emission}
    (hx : x.IsKeptBy y) : (Tsql.aliased aliases output x).IsKeptBy (Tsql.aliased aliases output y) :=
  .after (fun _ => id) fun _ => .append (.append (nested hx) (.refl _)) (.refl _)

theorem unionOf (kind : UnionKind) {x x' y y' : Emission} (hx : x.IsKeptBy x')
    (hy : y.IsKeptBy y') : (Tsql.unionOf kind x y).IsKeptBy (Tsql.unionOf kind x' y') :=
  .append (.append (.append (.append (nested hx) (.refl _)) (.refl _)) (.refl _))
    (nested hy)

theorem join (scope : Scope) (kind : JoinKind) (c : JoinCondition) (rightIsJoin : Bool)
    {x x' y y' : Emission} (hx : x.IsKeptBy x') (hy : y.IsKeptBy y') :
    (scope.join kind c x y rightIsJoin).IsKeptBy (scope.join kind c x' y' rightIsJoin) := by
  unfold Scope.join
  split
  · exact .refl _
  refine .append (.append (.append (.append (.append hx (.refl _)) (.refl _)) (.refl _)) ?_)
    (.refl _)
  split
  · exact .append (.append (.refl _) hy) (.refl _)
  · exact hy

end Emission.IsKeptBy

namespace Target

variable {t : Target} {more : TempTables} (h : t.temps.IsKeptBy more)

include h

theorem tableName_withTemps (m : Model) :
    (t.tableName m).IsKeptBy ({ t with temps := more }.tableName m) := by
  unfold tableName
  cases m.source with
  | table => exact .refl _
  | tempTable => exact .after (fun _ => h.require) fun _ => .refl _
  | jsonRowset p => exact .refl _
  | derived => exact .refl _

theorem tableSource_withTemps (aliases : AliasMap) (m : Model) :
    (t.tableSource aliases m).IsKeptBy ({ t with temps := more }.tableSource aliases m) := by
  unfold tableSource
  refine .after (fun _ => id) fun sourceName => ?_
  cases m.source with
  | table => exact ((tableName_withTemps h m).append (.refl _)).append (.refl _)
  | tempTable => exact ((tableName_withTemps h m).append (.refl _)).append (.refl _)
  | jsonRowset p => exact .refl _
  | derived => exact .refl _

theorem tableSelect_withTemps (aliases : AliasMap) (m : Model) (columns : List Field) :
    (t.tableSelect aliases m columns).IsKeptBy
      ({ t with temps := more }.tableSelect aliases m columns) :=
  .after (fun _ => id) fun _ => .append (.refl _) (tableSource_withTemps h aliases m)

mutual

theorem query_withTemps (aliases : AliasMap) (outermost : Bool) (s : Statement) :
    (t.query aliases outermost s).IsKeptBy ({ t with temps := more }.query aliases outermost s) := by
  match s with
  | .table m =>
    rw [query, query]
    exact tableSelect_withTemps h aliases m _
  | .select body none =>
    rw [query, query]
    exact .refl _
  | .select body (some s) =>
    rw [query, query]
    exact .select _ outermost body (source_withTemps aliases s)
  | .union output left right kind =>
    rw [query, query]
    exact .unionOf kind (query_withTemps aliases false left) (query_withTemps aliases false right)
  | .join .. =>
    rw [query, query]
    exact .refl _

theorem source_withTemps (aliases : AliasMap) (s : Statement) :
    (t.source aliases s).IsKeptBy ({ t with temps := more }.source aliases s) := by
  match s with
  | .table m =>
    rw [source, source]
    exact tableSource_withTemps h aliases m
  | .select body none =>
    rw [source, source]
    exact .refl _
  | .select body (some s) =>
    rw [source, source]
    exact .aliased aliases _ (.select _ false body (source_withTemps aliases s))
  | .union output left right kind =>
    rw [source, source]
    exact .aliased aliases output (.unionOf kind (query_withTemps aliases false left)
      (query_withTemps aliases false right))
  | .join left right kind c =>
    rw [source, source]
    exact .join _ kind c _ (source_withTemps aliases left) (source_withTemps aliases right)

end

theorem outermost_withTemps (s : Statement) :
    (t.outermost s).IsKeptBy ({ t with temps := more }.outermost s) :=
  .after (fun _ => h.aliases) fun aliases => query_withTemps h aliases true s

theorem identityOutput_withTemps (i : Insert) :
    (t.identityOutput i).IsKeptBy ({ t with temps := more }.identityOutput i) := by
  unfold identityOutput
  cases i.identityOutput with
  | none => exact .refl _
  | some mapping =>
    cases i.target.identityColumn? with
    | none => exact .refl _
    | some c =>
      exact .append (.append (.append (.append (.refl _) (tableName_withTemps h mapping))
        (.refl _)) (.refl _)) (.refl _)

theorem insertBody_withTemps (i : Insert) (body : InsertBody) :
    (t.insertBody i body).IsKeptBy ({ t with temps := more }.insertBody i body) := by
  cases body with
  | mapped =>
    exact .after (fun _ => h.aliases) fun aliases =>
      .append (.refl _) (.append (.refl _) (source_withTemps h aliases i.source))
  | query => exact outermost_withTemps h i.source
  | table m columns =>
    exact .after (fun _ => h.aliases) fun aliases => tableSelect_withTemps h aliases m columns

theorem insert_withTemps (i : Insert) :
    (t.insert i).IsKeptBy ({ t with temps := more }.insert i) := by
  refine .append (.append (.refl _) (tableName_withTemps h i.target)) ?_
  refine .after (fun _ => id) fun shape => ?_
  exact .append (.append (.append (.refl _) (identityOutput_withTemps h i)) (.refl _))
    (insertBody_withTemps h i shape.2)

theorem insertRow_withTemps (i : InsertRow) :
    (t.insertRow i).IsKeptBy ({ t with temps := more }.insertRow i) :=
  .append (.append (.append (.append (.refl _) (tableName_withTemps h i.target)) (.refl _))
    (.refl _)) (.refl _)

theorem update_withTemps (u : Update) :
    (t.update u).IsKeptBy ({ t with temps := more }.update u) := by
  unfold update
  split
  · exact .refl _
  refine .after (fun _ => h.aliases) fun aliases => .after (fun _ => id) fun targetName => ?_
  exact .append (.append (.refl _) (.append (.refl _) (source_withTemps h aliases _))) (.refl _)

theorem delete_withTemps (d : Delete) :
    (t.delete d).IsKeptBy ({ t with temps := more }.delete d) := by
  refine .after (fun _ => h.aliases) fun aliases => .after (fun _ => id) fun targetName => ?_
  exact .append (.append (.refl _) (.append (.refl _) (source_withTemps h aliases _))) (.refl _)

theorem command_withTemps (c : Command) :
    (t.command c).IsKeptBy ({ t with temps := more }.command c) := by
  cases c with
  | query s => exact .append (outermost_withTemps h s) (.refl _)
  | insert i => exact .append (insert_withTemps h i) (.refl _)
  | insertRow i => exact insertRow_withTemps h i
  | update u => exact .append (update_withTemps h u) (.refl _)
  | delete d => exact .append (delete_withTemps h d) (.refl _)

/-- A command that could be rendered has the same text and parameters while tables are added. -/
theorem generate_withTemps {c : Command} {text : SqlText} (hg : t.generate c = .ok text) :
    { t with temps := more }.generate c = .ok text := by
  rw [generate, command_withTemps h c (failure_of_sqlText hg)]
  exact hg

end Target

end Tsql
