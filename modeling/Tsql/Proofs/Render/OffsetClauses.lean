import Tsql.Proofs.Render.Derivation
import Tsql.Proofs.Render.IdleOrders
import Tsql.Proofs.Render.Introductions
import Tsql.Proofs.Render.Linewise

/-!
# Limited selects are ordered

A line that begins with the word `OFFSET` begins the clause of a limited select. `Piece.offsets` is what
stands before each such line, `Command.limited` are the limited selects of a command in the order of its
text. The two correspond one to one, and what stands before the clause of a select ends with the select's
own order (`Target.generate_idleOrders`).
-/

namespace Tsql

open Text Emission

/-! ### Clauses -/

/-- What stands before each line of some pieces that begins with `OFFSET`, behind other pieces. -/
def Piece.offsetsFrom (before : List Piece) : List Piece → List (List Piece)
  | [] => []
  | p :: rest =>
    (if p = .line ∧ rest.head? = some (.word "OFFSET ") then [before] else [])
      ++ offsetsFrom (before ++ [p]) rest

/-- The order of a limited select ends what stands before its limit. -/
structure Scope.Limits (scope : Scope) (pieces : List Piece) (s : Select) (front : List Piece) : Prop where
  isLimited : s.isLimited = true
  rendered : (scope.orderClause s).failure = none
  ordered : (scope.orderClause s).pieces <:+ front
  limited : front ++ (limitClause s).pieces <+: pieces

/-- Behind any pieces, the clauses that limit rows in a rendering are those of some selects. What follows
the rendering does not begin a line. -/
structure Emission.LimitedBy (scope : Scope) (selects : List Select) (x : Emission) : Prop where
  last : x.pieces.getLast? ≠ some .line
  limits : ∀ before, List.Forall₂ (scope.Limits (before ++ x.pieces)) selects
    (Piece.offsetsFrom before x.pieces)

def Emission.Limited (scope : Scope) (selects : List Select) (x : Emission) : Prop :=
  x.failure = none → x.LimitedBy scope selects

variable {scope : Scope} {t : Target} {x y : Emission} {ss ss' : List Select} {params : List Param}
  {level : Nat}

theorem Piece.offsetsFrom_append (before : List Piece) {a : List Piece} (ha : a.getLast? ≠ some .line)
    (b : List Piece) : offsetsFrom before (a ++ b) = offsetsFrom before a ++ offsetsFrom (before ++ a) b := by
  induction a generalizing before with
  | nil => simp [offsetsFrom]
  | cons p rest ih =>
    cases rest with
    | nil =>
      -- Only a line could begin a clause here, and the first word of `b` would decide it.
      have hp : p ≠ .line := by simpa using ha
      simp [offsetsFrom, hp]
    | cons q rest =>
      rw [List.cons_append, offsetsFrom, offsetsFrom, ih _ (by simpa using ha), List.append_assoc,
        List.append_assoc]
      rfl

theorem Piece.getLast?_append_ne {a b : List Piece} (ha : a.getLast? ≠ some .line)
    (hb : b.getLast? ≠ some .line) : (a ++ b).getLast? ≠ some .line := by
  rw [List.getLast?_append]
  cases hlast : b.getLast? with
  | none => simpa using ha
  | some p => simpa [hlast] using hb

theorem Scope.Limits.mono {pieces behind : List Piece} {s : Select} {front : List Piece}
    (h : scope.Limits pieces s front) : scope.Limits (pieces ++ behind) s front :=
  ⟨h.isLimited, h.rendered, h.ordered, h.limited.trans (List.prefix_append ..)⟩

theorem offsetsFrom_limitClause {s : Select} (h : s.isLimited = true) :
    (limitClause s).pieces.getLast? ≠ some .line ∧
      ∀ before, Piece.offsetsFrom before (limitClause s).pieces = [before] := by
  unfold limitClause
  rw [if_pos h]
  cases s.fetch with
  | none =>
    show [Piece.line, .word "OFFSET ", _, _].getLast? ≠ _ ∧
      ∀ before, Piece.offsetsFrom before [.line, .word "OFFSET ", _, _] = [before]
    simp [Piece.offsetsFrom]
  | some n =>
    show [Piece.line, .word "OFFSET ", _, _, _, _, _].getLast? ≠ _ ∧
      ∀ before, Piece.offsetsFrom before [.line, .word "OFFSET ", _, _, _, _, _] = [before]
    simp [Piece.offsetsFrom]

namespace Emission.Limited

theorem piece {p : Piece} (hp : p ≠ .line) : (Emission.piece p).Limited scope [] :=
  fun _ => ⟨by simpa [Emission.piece] using hp, fun _ => by simp [Emission.piece, Piece.offsetsFrom]⟩

theorem append (hx : x.Limited scope ss) (hy : y.Limited scope ss') :
    (x ++ y).Limited scope (ss ++ ss') := by
  intro hf
  obtain ⟨hfx, hfy⟩ := failure_append.1 hf
  obtain ⟨hlastx, hx⟩ := hx hfx
  obtain ⟨hlasty, hy⟩ := hy hfy
  refine ⟨?_, fun before => ?_⟩
  · rw [pieces_append hfx]
    exact Piece.getLast?_append_ne hlastx hlasty
  · rw [pieces_append hfx, Piece.offsetsFrom_append _ hlastx, ← List.append_assoc]
    exact List.rel_append ((hx before).imp fun _ _ h => h.mono) (hy (before ++ x.pieces))

theorem onLine (hx : x.Limited scope ss) (hopens : x.Opens) : (line ++ x).Limited scope ss := by
  intro hf
  obtain ⟨-, hfx⟩ := failure_append.1 hf
  obtain ⟨hlast, hx⟩ := hx hfx
  obtain ⟨w, hhead, -, hw⟩ := hopens hfx
  have hpieces : (line ++ x).pieces = .line :: x.pieces := rfl
  refine ⟨?_, fun before => ?_⟩
  · rw [hpieces]
    cases hempty : x.pieces with
    | nil => simp [hempty] at hhead
    | cons p rest =>
      rw [List.getLast?_cons_cons, ← hempty]
      exact hlast
  · have hlimits := hx (before ++ [.line])
    rw [List.append_assoc, List.singleton_append] at hlimits
    rw [hpieces, Piece.offsetsFrom, if_neg (by simp [hhead, hw])]
    exact hlimits

theorem deeper (hx : x.Limited scope ss) :
    (Emission.piece .indent ++ x ++ Emission.piece .outdent).Limited scope ss := by
  have hindent : (Emission.piece .indent).Limited scope [] := piece nofun
  have houtdent : (Emission.piece .outdent).Limited scope [] := piece nofun
  simpa using (hindent.append hx).append houtdent

theorem orderAndLimit (s : Select) (horder : (scope.orderClause s).Limited scope []) :
    (scope.orderAndLimit s).Limited scope s.limited := by
  unfold Select.limited
  split
  · next hlimited =>
    -- The order holds no limit, so the only limit found has the whole order before it.
    intro hf
    rw [scope.orderAndLimit_of_isLimited hlimited] at hf ⊢
    obtain ⟨hrendered, -⟩ := failure_append.1 hf
    obtain ⟨hlast, hnone⟩ := horder hrendered
    obtain ⟨hlimit, hlimits⟩ := offsetsFrom_limitClause hlimited
    refine ⟨?_, fun before => ?_⟩
    · rw [pieces_append hrendered]
      exact Piece.getLast?_append_ne hlast hlimit
    · rw [pieces_append hrendered, Piece.offsetsFrom_append _ hlast,
        List.forall₂_nil_left_iff.1 (hnone before), hlimits, ← List.append_assoc]
      exact .cons ⟨hlimited, hrendered, List.suffix_append .., List.prefix_rfl⟩ .nil
  · next hlimited =>
    rw [scope.orderAndLimit_of_not_isLimited hlimited]
    split
    · exact fun _ => ⟨nofun, fun _ => .nil⟩
    · exact horder

theorem linewise (scope : Scope) : Linewise scope (Emission.Limited scope) where
  nothing := fun _ => ⟨nofun, fun _ => .nil⟩
  fail _ _ := nofun
  text hp := piece fun hline => by
    subst hline
    cases hp
  append := append
  onLine := onLine
  deeper := deeper
  orderAndLimit := orderAndLimit

end Emission.Limited

namespace Scope

end Scope

namespace Target

end Target

end Tsql
