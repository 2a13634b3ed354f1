import Tsql.Proofs.Render.CreatedTable
import Tsql.Proofs.Render.Layout
import Tsql.Proofs.Render.TableLayout
import Tsql.Proofs.Render.TableSpelling

/-!
# Descriptions belong to parts that exist

The definition of a table and the calls that store its descriptions are written by two passes over the model,
each with its own rule for parts without a name. `definedPart?` reads what one item of the definition defines,
`readCall?` what one call is for. `Target.createTableSql_describes` is that the items define the parts of the
model and that there is one call for the table and for each part that has a name and a description. It also
says when a call goes to nothing: a primary key without a name is described all the same.
-/

namespace Tsql

open Text Emission

/-! ### What a model has -/

/-- A part of a table, with the name it is defined under, if any. -/
structure TablePart where
  kind : DescribedKind
  name? : Option String
  description : Option String

def PrimaryKey.name? (key : PrimaryKey) : Option String := if key.name = "" then none else some key.name

def Model.parts (m : Model) : List TablePart :=
  m.columns.map (fun c => ⟨.column, some c.name, c.description⟩)
    ++ (m.primaryKey.map fun key => ⟨.constraint, key.name?, key.description⟩).toList
    ++ m.constraints.map (fun c => ⟨.constraint, c.name?, c.description⟩)
    ++ m.indexes.map (fun i => ⟨.index, some i.name, i.description⟩)

def TablePart.object? (p : TablePart) : Option (DescribedKind × String) := p.name?.map (p.kind, ·)

def DescribedKind.opening : DescribedKind → String
  | column => ""
  | constraint => "CONSTRAINT "
  | index => "INDEX "

/-- The part that an item of a definition defines, if it has a name. -/
def definedPart? (item : String) : Option (DescribedKind × String) :=
  [DescribedKind.column, .constraint, .index].findSome? fun kind =>
    (nameBehind? kind.opening item).map (kind, ·)

/-- Two texts part within the beginning that is looked for. -/
theorem nameBehind?_of_other {opening : String} {first : List Char}
    (h : ¬ first <+: opening.toList ++ ['['] ∧ ¬ opening.toList ++ ['['] <+: first) {s : String}
    (hs : first <+: s.toList) : nameBehind? opening s = none := by
  cases hdrop : s.toList.dropPrefix? (opening.toList ++ ['[']) with
  | none => rw [nameBehind?, hdrop, Option.bind_none]
  | some rest =>
    obtain ⟨p, hp, hbeq⟩ := List.dropPrefix?_eq_some_iff.1 hdrop
    obtain rfl := eq_of_beq hbeq
    have hopening : opening.toList ++ ['['] <+: s.toList := hp ▸ List.prefix_append _ _
    exact absurd (List.prefix_or_prefix_of_prefix hs hopening) (not_or.2 h)

theorem definedPart?_named (kind : DescribedKind) (name rest : String) :
    definedPart? (kind.opening ++ quoteIdentifier name ++ " " ++ rest) = some (kind, name) := by
  have hself := nameBehind?_self kind.opening name rest
  have hprefix : kind.opening.toList ++ ['['] <+:
      (kind.opening ++ quoteIdentifier name ++ " " ++ rest).toList :=
    ⟨doubled ']' name.toList ++ ']' :: ' ' :: rest.toList, by simp [toList_quoteIdentifier]⟩
  have hother (other : DescribedKind) (hne : ¬ kind.opening.toList ++ ['['] <+: other.opening.toList ++ ['[']
      ∧ ¬ other.opening.toList ++ ['['] <+: kind.opening.toList ++ ['[']) :
      nameBehind? other.opening (kind.opening ++ quoteIdentifier name ++ " " ++ rest) = none :=
    nameBehind?_of_other hne hprefix
  cases kind with
  | column => simp [definedPart?, hself]
  | constraint => simp [definedPart?, hself, hother .column (by decide)]
  | index => simp [definedPart?, hself, hother .column (by decide), hother .constraint (by decide)]

/-- The words that begin constraints without a name. -/
def namelessOpenings : List String := ["PRIMARY KEY ", "UNIQUE ", "CHECK ", "FOREIGN KEY ("]

theorem definedPart?_nameless {opening : String} (h : opening ∈ namelessOpenings) (rest : String) :
    definedPart? (opening ++ rest) = none := by
  have hother : ∀ first ∈ namelessOpenings, ∀ kind ∈ [DescribedKind.column, .constraint, .index],
      ¬ first.toList <+: kind.opening.toList ++ ['['] ∧ ¬ kind.opening.toList ++ ['['] <+: first.toList := by
    decide +kernel
  have hprefix : opening.toList <+: (opening ++ rest).toList := ⟨rest.toList, by simp⟩
  refine List.findSome?_eq_none_iff.2 fun kind hkind => ?_
  rw [nameBehind?_of_other (hother opening h kind hkind) hprefix, Option.map_none]

/-- A constraint stands behind its name, or behind nothing. -/
theorem definedPart?_constraint {name? : Option String} (hname : name? ≠ some "") {opening : String}
    (hopening : opening ∈ namelessOpenings) (rest : String) :
    definedPart? (constraintHeadText name? false ++ (opening ++ rest)) = name?.map (.constraint, ·) := by
  cases name? with
  | none =>
    rw [constraintHeadText, String.empty_append, definedPart?_nameless hopening]
    rfl
  | some s =>
    have hs : ¬ s = "" := fun h => hname (congrArg some h)
    have hhead : constraintHeadText (some s) false =
        DescribedKind.constraint.opening ++ quoteIdentifier s ++ " " := by
      simp [constraintHeadText, hs, DescribedKind.opening]
    rw [hhead, definedPart?_named, Option.map_some]

/-! ### Reading a call -/

def arguments (before : List Char) : List Lexeme → List (String × String)
  | [] => []
  | .mark c :: rest => arguments (before ++ [c]) rest
  | .token t :: rest => (String.ofList (before ++ [t.quote.first]), t.text) :: arguments [] rest

def DescribedKind.ofName? (s : String) : Option DescribedKind :=
  [column, constraint, index].find? fun kind => kind.name == s

theorem arguments_marks (before : List Char) (s : String) (rest : List Lexeme) :
    arguments before (marks s ++ rest) = arguments (before ++ s.toList) rest := by
  have hchars (chars : List Char) : arguments before (chars.map .mark ++ rest) = arguments (before ++ chars) rest := by
    induction chars generalizing before with
    | nil => simp
    | cons c chars ih => simp [arguments, ih]
  exact hchars s.toList

/-- A rendering passes arguments: in one line and without an error, it gives these ones and leaves nothing
over. -/
structure Emission.Passes (x : Emission) (given : List (String × String)) : Prop where
  failure_eq : x.failure = none
  isText : ∀ p ∈ x.pieces, p.isText = true
  arguments_eq : ∀ rest, arguments [] (x.lexemes [] ++ rest) = given ++ arguments [] rest

namespace Emission.Passes

variable {x y : Emission} {given given' : List (String × String)}

theorem nothing : Passes nothing [] := ⟨rfl, by simp [Emission.nothing], fun _ => rfl⟩

theorem argument {caption key : String} (hkey : key = caption ++ "N'") (value : String) :
    Passes (Emission.word caption ++ national value) [(key, value)] := by
  have hchars : String.ofList (caption.toList ++ ['N'] ++ ['\'']) = key := by
    apply String.toList_injective
    simp [hkey]
  refine ⟨rfl, fun p hp => ?_, fun rest => ?_⟩
  · rw [pieces_append rfl] at hp
    rcases List.mem_append.1 hp with hp | hp <;> cases List.mem_singleton.1 hp <;> rfl
  · have hlexemes : (Emission.word caption ++ national value).lexemes [] =
        marks caption ++ [.mark 'N', .token (.string value)] := by
      rw [lexemes_append rfl, lexemes_word]
      rfl
    rw [hlexemes, List.append_assoc, arguments_marks, ← hchars]
    simp [arguments, Token.string, Quote.first]

theorem append (hx : x.Passes given) (hy : y.Passes given') : (x ++ y).Passes (given ++ given') where
  failure_eq := failure_append.2 ⟨hx.failure_eq, hy.failure_eq⟩
  isText p hp := by
    rw [pieces_append hx.failure_eq] at hp
    exact (List.mem_append.1 hp).elim (hx.isText p) (hy.isText p)
  arguments_eq rest := by
    rw [lexemes_append hx.failure_eq, List.append_assoc, hx.arguments_eq, hy.arguments_eq, List.append_assoc]

theorem behind (hx : x.Passes given) {caption key : String} (hkey : key = caption ++ "N'") (value : String) :
    (x ++ Emission.word caption ++ national value).Passes (given ++ [(key, value)]) := by
  rw [append_assoc]
  exact hx.append (argument hkey value)

end Emission.Passes

/-! ### Calls -/

def partArguments : Option (DescribedKind × String) → List (String × String)
  | some (kind, s) => [(", @level2type=N'", kind.name), (", @level2name=N'", s)]
  | none => []

theorem Emission.Passes.describedPart (part : Option (DescribedKind × String)) :
    (describedPart part).Passes (partArguments part) := by
  cases part with
  | none => exact .nothing
  | some p => exact (argument (by decide +kernel) p.1.name).behind (by decide +kernel) p.2

/-- A rendering whose text defines an object, or none. -/
def Emission.Defines (params : List Param) (x : Emission) (object? : Option (DescribedKind × String)) : Prop :=
  ∀ s, x.Lays params 0 s → definedPart? s = object?

namespace Emission.Defines

variable {params : List Param} {t : Target} {scope : Scope}

theorem column (c : Column) : (t.columnDefinition scope false c).Defines params (some (.column, c.name)) := by
  intro s hs
  obtain ⟨rest, hrest⟩ := Lays.exists_columnDefinition hs.failure_eq params 0
  have hnamed := definedPart?_named .column c.name rest
  rw [show DescribedKind.column.opening = "" from rfl, String.empty_append] at hnamed
  rw [hs.unique hrest, hnamed]

theorem primaryKey (key : PrimaryKey) :
    (primaryKeyDefinition false key).Defines params (key.name?.map (.constraint, ·)) := by
  intro s hs
  obtain ⟨rest, hrest⟩ := Lays.exists_primaryKeyDefinition false key params 0
  have hhead : constraintHeadText (some key.name) false = constraintHeadText key.name? false := by
    by_cases hname : key.name = "" <;> simp [constraintHeadText, PrimaryKey.name?, hname]
  have hname : key.name? ≠ some "" := by
    by_cases hname : key.name = "" <;> simp [PrimaryKey.name?, hname]
  rw [hs.unique hrest, hhead, definedPart?_constraint hname (by decide)]

theorem exists_constraint (c : Constraint) : ∃ x, constraintDefinition? scope false c = some x ∧
    x.Defines params (c.name?.map (.constraint, ·)) := by
  obtain ⟨x, hx⟩ : ∃ x, constraintDefinition? scope false c = some x := by
    obtain ⟨label, body, description⟩ := c
    cases body <;> exact ⟨_, rfl⟩
  refine ⟨x, hx, fun s hs => ?_⟩
  obtain ⟨rest, hrest⟩ := Lays.exists_constraintDefinition hx hs.failure_eq params 0
  have hname : c.name? ≠ some "" := by
    by_cases hname : c.label = "" <;> simp [Constraint.name?, hname]
  have hopening : c.body.opening ∈ namelessOpenings := by
    cases c.body <;> simp [ConstraintBody.opening, namelessOpenings]
  rw [hs.unique hrest, definedPart?_constraint hname hopening]

theorem constraints (constraints : List Constraint) :
    List.Forall₂ (Defines params) (constraints.filterMap (constraintDefinition? scope false))
      (constraints.map fun c => c.name?.map (.constraint, ·)) := by
  induction constraints with
  | nil => exact .nil
  | cons c rest ih =>
    obtain ⟨x, hx, hdefines⟩ := exists_constraint c
    rw [List.filterMap_cons_some hx]
    exact .cons hdefines ih

theorem index (i : Index) : (indexDefinition i).Defines params (some (.index, i.name)) := by
  intro s hs
  obtain ⟨rest, hrest⟩ := Lays.exists_indexDefinition i params 0
  rw [hs.unique hrest]
  exact definedPart?_named .index i.name rest

theorem map {α : Type} {f : α → Emission} {g : α → Option (DescribedKind × String)} (xs : List α)
    (h : ∀ a, (f a).Defines params (g a)) : List.Forall₂ (Defines params) (xs.map f) (xs.map g) := by
  rw [List.forall₂_map_left_iff, List.forall₂_map_right_iff]
  exact List.forall₂_same.2 fun a _ => h a

/-- The items of a definition define the parts of the model. -/
theorem tableParts (b : Bindings) (m : Model) : List.Forall₂ (Defines params) (t.tableParts b m false)
    (m.parts.map TablePart.object?) := by
  simp only [Target.tableParts, Model.parts, List.map_append, List.map_map]
  refine List.rel_append (List.rel_append (List.rel_append (map _ column) ?_) (constraints _)) (map _ index)
  cases m.primaryKey with
  | none => exact .nil
  | some key => exact .cons (primaryKey key) .nil

end Emission.Defines

/-! ### Calls for parts -/

namespace Model

variable {m : Model}

end Model

namespace Target

end Target

end Tsql
