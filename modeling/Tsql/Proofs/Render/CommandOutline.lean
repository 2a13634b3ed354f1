import Tsql.Proofs.Render.CommandSpelling
import Tsql.Proofs.Render.QueryOutline
import Tsql.Proofs.Render.RowTarget

/-!
# Outlines of commands

`Command.aliasRoot?` is the statement whose nodes a command gives aliases to. Once these aliases are made, a
command shows the parameters of `Command.params` in order and each node of that statement with an alias. Of
all sources, only the target of an update or a delete can then be found to have none.
-/

namespace Tsql

open Text Emission

/-! ### The walk -/

namespace Command

/-- The parameters of a command, in the order of its text. -/
def params : Command → List Param
  | query s => s.params true
  | insert i =>
    if i.columns.isEmpty then i.source.params true
    else allParams (i.columns.map Projection.source) ++ i.source.params false
  | insertRow i => allParams (i.values.map Projection.source)
  | update u => allParams (u.assignments.map Projection.source)
    ++ (u.source.getD (.table u.target)).params false ++ optionParams u.filter
  | delete d => (d.source.getD (.table d.target)).params false ++ optionParams d.filter

def aliasRoot? : Command → Option (Bool × Statement)
  | query s => some (false, s)
  | insert i => some (!i.columns.isEmpty, i.source)
  | insertRow _ => none
  | update u => some (true, u.source.getD (.table u.target))
  | delete d => some (true, d.source.getD (.table d.target))

def sources (c : Command) : List Model :=
  match c.aliasRoot? with
  | some (asSource, s) => s.sources asSource
  | none => []

/-- The nodes with an alias, in the order of their aliases in the text. -/
def introduced (c : Command) : List Statement :=
  match c.aliasRoot? with
  | some (asSource, s) => s.introduced asSource
  | none => []

end Command

namespace Target

def commandOutline (t : Target) (aliases : AliasMap) (c : Command) : Outline where
  params := c.params
  aliases := c.introduced.map (t.introduction aliases)
  garbled := c.tables.any t.garbles

/-- As for the statements of a command, or the target of an update or a delete has no alias. -/
def CommandAllows (t : Target) (aliases : AliasMap) (c : Command) (err : Error) : Prop :=
  (t.scope aliases).Allows err ∨ ∃ target, c.rowTarget? = some target ∧
    aliases.get? target.model.id = none ∧ err = target.model.missingError

end Target

/-! ### Errors -/

namespace Insert

variable {i : Insert} {err : Error} {columns : List String} {body : InsertBody}

theorem lastChar?_unmapped : (shape.unmapped i).lastChar? = some 'e' :=
  Error.lastChar?_append _ (by decide)

theorem lastChar?_of_shape (h : i.shape = .error err) : err.lastChar? ≠ some 't' := by
  have hunmapped : (shape.unmapped i).lastChar? ≠ some 't' := by
    rw [lastChar?_unmapped]
    decide
  unfold shape at h
  split at h
  · cases h
  split at h
  · next source _ =>
    cases hm : i.target.insertableColumns.mapM (i.sourceColumn source) with
    | ok columns =>
      rw [hm] at h
      cases h
    | error e =>
      rw [hm] at h
      cases h
      obtain ⟨c, -, hc⟩ := Result.mapM_eq_error hm
      unfold sourceColumn at hc
      split at hc
      · cases hc
      · cases hc
        rw [← String.append_assoc, Error.lastChar?_append _ (c := '\'') (by decide)]
        decide
  · next body source _ =>
    split at h
    · cases h
      exact hunmapped
    · cases hm : body.columns.mapM i.targetColumn with
      | ok names =>
        rw [hm] at h
        cases h
      | error e =>
        rw [hm] at h
        cases h
        obtain ⟨p, -, hp⟩ := Result.mapM_eq_error hm
        unfold targetColumn at hp
        split at hp
        · cases hp
        · cases hp
          rw [Error.lastChar?_append _ (c := '\'') (by decide)]
          decide
  · cases h
    exact hunmapped
  · cases h
    exact hunmapped

/-- An insert with columns of its own selects them from its source; any other insert takes the rows of
its source as they are. -/
theorem body_of_shape (h : i.shape = .ok (columns, body)) :
    i.columns.isEmpty = false ∧ body = .mapped ∨
      i.columns.isEmpty = true ∧ (body = .query ∨ ∃ m fields, body = .table m fields) := by
  unfold shape at h
  split at h
  · next hc =>
    cases h
    exact .inl ⟨by simpa using hc, rfl⟩
  · next hc =>
    refine .inr ⟨by simpa using hc, ?_⟩
    split at h
    · obtain ⟨fields, -, h⟩ := Result.bind_eq_ok h
      cases h
      exact .inr ⟨_, _, rfl⟩
    · split at h
      · cases h
      · obtain ⟨names, -, h⟩ := Result.map_eq_ok h
        cases h
        exact .inl rfl
    · cases h
    · cases h

end Insert

/-! ### Parts of commands -/

namespace Emission.Shows

variable {x : Emission} {P Q : Error → Prop} {start : Ending} {edge : Option Ending} {a : Outline}
  {scope : Scope}

theorem mono (h : x.Shows P start edge a) (hPQ : ∀ err, P err → Q err) : x.Shows Q start edge a :=
  ⟨fun err he => hPQ err (h.failure err he), h.params, h.run⟩

theorem identityOutput (t : Target) (i : Insert) :
    (t.identityOutput i).Shows scope.Allows .loose (some .loose) {} := by
  unfold Target.identityOutput
  cases i.identityOutput with
  | none => exact nothing
  | some mapping =>
    dsimp only
    cases i.target.identityColumn? with
    | none => exact fail (Scope.allows_append _ (c := 'n') (by decide) (by decide))
    | some c =>
      have hcolumn : (Tsql.clause "OUTPUT INSERTED." (Emission.name c.name)).Shows scope.Allows .loose
          (some .loose) {} := clauseOf (by decide) (nameLoose _)
      exact (((((hcolumn.word " INTO ").silent (tableName t mapping)).word " (").silent
        (name "NewValue")).word ")").loosen (by decide)

theorem sources (hs : scope.inlined = none) (columns : List Projection) :
    (Emission.listed (columns.map fun p => p.source.value scope)).Shows scope.Allows .clear (some .loose)
      (.ofParams (allParams (columns.map Projection.source))) := by
  rw [allParams, ← Outline.join_ofParams, List.map_map, List.map_map]
  exact listed fun p _ => p.source.value_shows hs

theorem rowValues (hs : scope.inlined = none) (vs : List Projection) :
    (scope.rowValues vs).Shows scope.Allows .loose (some .loose)
      (.ofParams (allParams (vs.map Projection.source))) := by
  unfold Scope.rowValues
  split
  · next hnil =>
    rw [List.isEmpty_iff.1 hnil]
    exact (ofWord " DEFAULT VALUES").loosen (by decide)
  · have hvalues : (Tsql.clause "VALUES (" (Emission.listed (vs.map fun p =>
        p.source.value scope))).Shows scope.Allows .loose (some .loose)
        (.ofParams (allParams (vs.map Projection.source))) := clauseOf (by decide) (sources hs vs)
    exact (((((ofWord " (").silent (names _)).word ")").part hvalues).word ")").loosen (by decide)

theorem assignments (hs : scope.inlined = none) (ps : List Projection) :
    (Emission.listed (ps.map scope.assignment)).Shows scope.Allows .clear (some .loose)
      (.ofParams (allParams (ps.map Projection.source))) := by
  rw [allParams, ← Outline.join_ofParams, List.map_map, List.map_map]
  refine listed fun p _ => ?_
  exact (((name p.target.name).word " = ").part (p.source.value_shows hs)).loosen (by decide)

end Emission.Shows

/-! ### Commands -/

namespace Target

variable {t : Target} {aliases : AliasMap}

theorem covers_of_aliases {models : List Model} (h : t.temps.aliases models = .ok aliases) :
    Covers aliases models := fun _ hm => TempTables.get?_of_aliases h hm

theorem semicolon {x : Emission} {P : Error → Prop} {a : Outline}
    (hx : x.Shows P .clear (some .loose) a) : (x ++ word ";").Shows P .clear (some .clear) a :=
  (hx.word ";").at_edge (by decide)

theorem insert_shows (i : Insert)
    (h : t.temps.aliases (i.source.sources !i.columns.isEmpty) = .ok aliases) :
    (t.insert i).Shows (t.scope aliases).Allows .clear (some .loose)
      (t.commandOutline aliases (.insert i)) := by
  have hcovers := covers_of_aliases h
  have hbody : ∀ columns body, i.shape = .ok (columns, body) →
      (t.insertBody i body).Shows (t.scope aliases).Allows .clear (some .loose)
        (t.commandOutline aliases (.insert i)) := by
    intro columns body hshape
    rcases Insert.body_of_shape hshape with ⟨hcolumns, rfl⟩ | ⟨hcolumns, hrows⟩
    · rw [hcolumns] at h hcovers
      have houtline : t.commandOutline aliases (.insert i) =
          .ofParams (allParams (i.columns.map Projection.source))
            ++ t.outline aliases true false i.source := by
        apply Outline.ext <;>
          simp [commandOutline, outline, Outline.ofParams, Command.params, Command.introduced,
            Command.aliasRoot?, Command.tables, hcolumns]
      have hsource := ((shows t aliases i.source).2 hcovers)
      have haliases : t.temps.sourceAliases i.source = .ok aliases := h
      rw [insertBody, haliases, houtline]
      exact (((Emission.Shows.ofWord "SELECT ").part (Emission.Shows.sources rfl i.columns)).part
        (Emission.Shows.clauseOf (by decide) hsource)).loosen (by decide)
    · rw [hcolumns] at h hcovers
      have houtline : t.commandOutline aliases (.insert i) = t.outline aliases false true i.source := by
        apply Outline.ext <;>
          simp [commandOutline, outline, Command.params, Command.introduced,
            Command.aliasRoot?, Command.tables, hcolumns]
      have haliases : t.temps.queryAliases i.source = .ok aliases := h
      rw [houtline]
      rcases hrows with rfl | ⟨m, fields, rfl⟩
      · rw [insertBody, haliases]
        exact (shows t aliases i.source).1 hcovers true
      · have hm := Insert.source_of_shape hshape
        rw [hm] at hcovers ⊢
        rw [hm] at haliases
        rw [insertBody, hm, haliases]
        exact Emission.Shows.tableSelect t (hcovers m (List.mem_singleton.2 rfl)) fields
  have hrest : (after i.shape fun shape =>
      word " (" ++ names shape.1 ++ word ")" ++ t.identityOutput i ++ line
        ++ t.insertBody i shape.2).Shows (t.scope aliases).Allows .loose (some .loose)
      (t.commandOutline aliases (.insert i)) := by
    refine Emission.Shows.after (fun _ he => Scope.allows_of_ne (Insert.lastChar?_of_shape he)) ?_
    rintro ⟨columns, body⟩ hshape
    exact ((((((Emission.Shows.ofWord " (").silent (Emission.Shows.names columns)).word ")").silent
      (Emission.Shows.identityOutput t i)).silent Emission.Shows.line).part
      (hbody columns body hshape)).loosen (by decide)
  exact (((Emission.Shows.ofWord "INSERT INTO ").silent (Emission.Shows.tableName t i.target)).part
    hrest).loosen (by decide)

theorem insertRow_shows (i : InsertRow) :
    (t.insertRow i).Shows (t.scope aliases).Allows .clear (some .clear)
      (t.commandOutline aliases (.insertRow i)) := by
  have hallows : ∀ err, ({ version := t.version } : Scope).Allows err → (t.scope aliases).Allows err :=
    fun err h ht => by
      obtain ⟨c, aliases', ha, -⟩ := h ht
      cases ha
  have hrow : (word "INSERT INTO " ++ t.tableName i.target
      ++ { version := t.version : Scope }.rowValues i.values ++ word ";").Shows
      (t.scope aliases).Allows .clear (some .clear) (t.commandOutline aliases (.insertRow i)) :=
    (semicolon ((((Emission.Shows.ofWord "INSERT INTO ").silent (Emission.Shows.tableName t _)).part
      (Emission.Shows.rowValues rfl i.values)).loosen (by decide))).mono hallows
  have hidentity : (clause "SELECT CAST(SCOPE_IDENTITY() AS BIGINT);" nothing).Shows
      (t.scope aliases).Allows .loose (some .clear) {} := by
    rw [clause, append_nothing]
    exact (Emission.Shows.line.word "SELECT CAST(SCOPE_IDENTITY() AS BIGINT);").at_edge (by decide)
  unfold insertRow
  split
  · exact (hrow.silent hidentity).at_edge (by decide)
  · rwa [append_nothing]

/-- The rest of an update or a delete, once the target's alias is known. -/
theorem targeted_shows {c : Command} {target : RowTarget} (hc : c.rowTarget? = some target)
    {f : String → Emission}
    (h : ∀ a, (f a).Shows (t.scope aliases).Allows .clear (some .loose) (t.commandOutline aliases c)) :
    (after (aliases.require target.model) f).Shows (t.CommandAllows aliases c) .clear (some .loose)
      (t.commandOutline aliases c) := by
  refine Emission.Shows.after (fun err he => .inr ⟨target, hc, ?_⟩) fun a _ => (h a).mono fun _ => .inl
  unfold AliasMap.require at he
  split at he
  · cases he
  · next hnone =>
    cases he
    exact ⟨hnone, rfl⟩

theorem update_shows (u : Update)
    (h : t.temps.sourceAliases (u.source.getD (.table u.target)) = .ok aliases) :
    (t.update u).Shows (t.CommandAllows aliases (.update u)) .clear (some .loose)
      (t.commandOutline aliases (.update u)) := by
  have houtline : t.commandOutline aliases (.update u) =
      .ofParams (allParams (u.assignments.map Projection.source))
        ++ t.outline aliases true false (u.source.getD (.table u.target))
        ++ .ofParams (optionParams u.filter) := by
    apply Outline.ext <;>
      simp [commandOutline, outline, Outline.ofParams, Command.params, Command.introduced,
        Command.aliasRoot?, Command.tables]
  unfold update
  split
  · exact Emission.Shows.fail (.inl (Scope.allows_append _ (c := 's') (by decide) (by decide)))
  · have htarget : Command.rowTarget? (.update u) =
        some ⟨"UPDATE ", u.target, u.source.getD (.table u.target)⟩ := rfl
    dsimp only
    rw [h]
    refine targeted_shows htarget fun a => ?_
    have hsource := (shows t aliases _).2 (covers_of_aliases h)
    rw [houtline]
    exact (((((Emission.Shows.ofWord "UPDATE ").silent (Emission.Shows.name a)).part
      (Emission.Shows.clauseOf (by decide) (Emission.Shows.assignments rfl u.assignments))).part
      (Emission.Shows.clauseOf (by decide) hsource)).part
      (Emission.Shows.condition rfl (by decide) u.filter)).loosen (by decide)

theorem delete_shows (d : Delete)
    (h : t.temps.sourceAliases (d.source.getD (.table d.target)) = .ok aliases) :
    (t.delete d).Shows (t.CommandAllows aliases (.delete d)) .clear (some .loose)
      (t.commandOutline aliases (.delete d)) := by
  have houtline : t.commandOutline aliases (.delete d) =
      t.outline aliases true false (d.source.getD (.table d.target))
        ++ .ofParams (optionParams d.filter) := by
    apply Outline.ext <;>
      simp [commandOutline, outline, Outline.ofParams, Command.params, Command.introduced,
        Command.aliasRoot?, Command.tables]
  have htarget : Command.rowTarget? (.delete d) =
      some ⟨"DELETE ", d.target, d.source.getD (.table d.target)⟩ := rfl
  unfold delete
  dsimp only
  rw [h]
  refine targeted_shows htarget fun a => ?_
  have hsource := (shows t aliases _).2 (covers_of_aliases h)
  rw [houtline]
  exact ((((Emission.Shows.ofWord "DELETE ").silent (Emission.Shows.name a)).part
    (Emission.Shows.clauseOf (by decide) hsource)).part
    (Emission.Shows.condition rfl (by decide) d.filter)).loosen (by decide)

theorem command_shows (t : Target) {c : Command}
    (h : ∀ asSource s, c.aliasRoot? = some (asSource, s) →
      t.temps.aliases (s.sources asSource) = .ok aliases) :
    (t.command c).Shows (t.CommandAllows aliases c) .clear (some .clear)
      (t.commandOutline aliases c) := by
  cases c with
  | query s =>
    have haliases : t.temps.queryAliases s = .ok aliases := h false s rfl
    rw [command, outermost, haliases]
    exact (semicolon ((shows t aliases s).1 (covers_of_aliases haliases) true)).mono fun _ => .inl
  | insert i => exact (semicolon (insert_shows i (h _ _ rfl))).mono fun _ => .inl
  | insertRow i => exact (insertRow_shows i).mono fun _ => .inl
  | update u => exact semicolon (update_shows u (h true _ rfl))
  | delete d => exact semicolon (delete_shows d (h true _ rfl))

/-- The aliases of a command that was rendered were made. -/
theorem exists_aliases {c : Command} (hf : (t.command c).failure = none) :
    ∃ aliases, ∀ asSource s, c.aliasRoot? = some (asSource, s) →
      t.temps.aliases (s.sources asSource) = .ok aliases := by
  have hroot : ∀ asSource s {r f}, c.aliasRoot? = some (asSource, s) →
      r = t.temps.aliases (s.sources asSource) → (after r f).failure = none →
      ∃ aliases, ∀ asSource s, c.aliasRoot? = some (asSource, s) →
        t.temps.aliases (s.sources asSource) = .ok aliases := by
    rintro asSource s r f hc rfl hf
    obtain ⟨aliases, haliases, -⟩ := failure_after hf
    refine ⟨aliases, fun asSource' s' hc' => ?_⟩
    cases hc.symm.trans hc'
    exact haliases
  cases c with
  | query s => exact hroot false _ rfl rfl (failure_append.1 hf).1
  | insert i =>
    obtain ⟨hf, -⟩ := failure_append.1 hf
    obtain ⟨-, hf⟩ := failure_append.1 hf
    obtain ⟨⟨columns, body⟩, hshape, hf⟩ := failure_after hf
    obtain ⟨-, hbody⟩ := failure_append.1 hf
    rcases Insert.body_of_shape hshape with ⟨hcolumns, rfl⟩ | ⟨hcolumns, rfl | ⟨m, fields, rfl⟩⟩
    · exact hroot true _ (by rw [Command.aliasRoot?, hcolumns]; rfl) rfl hbody
    · exact hroot false _ (by rw [Command.aliasRoot?, hcolumns]; rfl) rfl hbody
    · exact hroot false _ (by rw [Command.aliasRoot?, hcolumns]; rfl) rfl hbody
  | insertRow i => exact ⟨{}, nofun⟩
  | update u =>
    obtain ⟨hf, -⟩ := failure_append.1 hf
    unfold update at hf
    split at hf
    · cases hf
    · exact hroot true _ rfl rfl hf
  | delete d => exact hroot true _ rfl rfl (failure_append.1 hf).1

end Target

end Tsql
