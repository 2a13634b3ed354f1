import Mathlib.Data.List.Induction
import Mathlib.Data.List.Nodup
import Tsql.Proofs.Render.Writes
import Tsql.Proofs.Text.Digits

/-!
# Numbers of parameters

The parameters of a rendering are numbered by first occurrence. `Param.numbered` lists them as they are
numbered: each cell once, and the placeholders of all occurrences, listed by first occurrence, are those of
the numbers from one on.
-/

namespace Tsql

open Text

def Param.numbered (ps : List Param) : List Param := ps.foldl internParam []

/-- The placeholder of a parameter among numbered ones. -/
def Param.placeholderIn (params : List Param) (p : Param) : String :=
  placeholderName (paramNumber params p)

def ParamId.placeholderIn (params : List Param) (i : ParamId) : String :=
  placeholderName (params.findIdx (fun q => q.id == i) + 1)

def placeholderNames (count : Nat) : List String :=
  (List.range count).map fun i => placeholderName (i + 1)

/-! ### First occurrences -/

section

variable {α β : Type} [DecidableEq α] [DecidableEq β]

theorem eraseDups_concat (xs : List α) (x : α) :
    (xs ++ [x]).eraseDups = if x ∈ xs then xs.eraseDups else xs.eraseDups ++ [x] := by
  rw [List.eraseDups_append]
  by_cases hx : x ∈ xs
  · simp [List.removeAll, hx]
  · simp [List.removeAll, hx, List.eraseDups_cons]

theorem nodup_eraseDups (xs : List α) : xs.eraseDups.Nodup := by
  induction xs using List.reverseRecOn with
  | nil => simp
  | append_singleton xs x ih =>
    rw [eraseDups_concat]
    split
    · exact ih
    · next hx =>
      rw [List.nodup_append]
      refine ⟨ih, List.nodup_singleton x, fun y hy z hz => ?_⟩
      rw [List.mem_singleton.1 hz]
      rintro rfl
      exact hx (List.mem_eraseDups.1 hy)

/-- A function that tells the members apart may be applied before or after. -/
theorem eraseDups_map {f : α → β} {xs : List α} (hf : ∀ x ∈ xs, ∀ y ∈ xs, f x = f y → x = y) :
    (xs.map f).eraseDups = xs.eraseDups.map f := by
  induction xs using List.reverseRecOn with
  | nil => rfl
  | append_singleton xs x ih =>
    have hmem : f x ∈ xs.map f ↔ x ∈ xs := by
      refine ⟨fun h => ?_, List.mem_map_of_mem⟩
      obtain ⟨y, hy, he⟩ := List.mem_map.1 h
      rw [← hf y (by simp [hy]) x (by simp) he]
      exact hy
    have ih := ih fun y hy z hz => hf y (by simp [hy]) z (by simp [hz])
    rw [List.map_append, List.map_singleton, eraseDups_concat, eraseDups_concat, ih]
    by_cases hx : x ∈ xs
    · rw [if_pos (hmem.2 hx), if_pos hx]
    · rw [if_neg (mt hmem.1 hx), if_neg hx, List.map_append, List.map_singleton]

end

/-! ### Numbers -/

theorem placeholderName_injective {m n : Nat} (h : placeholderName m = placeholderName n) : m = n := by
  have hchars := congrArg String.toList h
  rw [placeholderName, placeholderName, String.toList_append, String.toList_append] at hchars
  exact natText_injective (String.toList_injective (List.append_cancel_left hchars))

namespace Param

variable {ps params : List Param} {p q : Param}

theorem ids_internParam (known : List Param) (p : Param) :
    (internParam known p).map id =
      if p.id ∈ known.map id then known.map id else known.map id ++ [p.id] := by
  have hany : (known.any fun q => q.id == p.id) = true ↔ p.id ∈ known.map id := by
    rw [List.any_eq_true, List.mem_map]
    simp only [beq_iff_eq]
  unfold internParam
  by_cases h : p.id ∈ known.map id
  · rw [if_pos (hany.2 h), if_pos h]
  · rw [if_neg (mt hany.1 h), if_neg h, List.map_append, List.map_singleton]

theorem numbered_concat (ps : List Param) (p : Param) :
    numbered (ps ++ [p]) = internParam (numbered ps) p := by
  rw [numbered, List.foldl_append]
  rfl

/-- The cells in the order of their first occurrences. -/
theorem ids_numbered (ps : List Param) : (numbered ps).map id = (ps.map id).eraseDups := by
  induction ps using List.reverseRecOn with
  | nil => rfl
  | append_singleton ps p ih =>
    rw [numbered_concat, ids_internParam, ih, List.map_append, List.map_singleton, eraseDups_concat]
    simp only [List.mem_eraseDups]

theorem nodup_ids_numbered (ps : List Param) : ((numbered ps).map id).Nodup := by
  rw [ids_numbered]
  exact nodup_eraseDups _

theorem exists_numbered (hp : p ∈ ps) : ∃ q ∈ numbered ps, q.id = p.id := by
  have h : p.id ∈ (numbered ps).map id := by
    rw [ids_numbered, List.mem_eraseDups]
    exact List.mem_map_of_mem hp
  exact List.mem_map.1 h

/-- The number of a cell is the place where the cell stands. -/
theorem getElem?_paramNumber (h : ∃ q ∈ params, q.id = p.id) :
    ∃ q, params[paramNumber params p - 1]? = some q ∧ q.id = p.id := by
  obtain ⟨q, hq, hid⟩ := h
  have hlt : params.findIdx (fun q => q.id == p.id) < params.length :=
    List.findIdx_lt_length_of_exists ⟨q, hq, by simpa using hid⟩
  refine ⟨params[params.findIdx fun q => q.id == p.id], ?_, ?_⟩
  · rw [paramNumber, Nat.add_sub_cancel]
    exact List.getElem?_eq_getElem hlt
  · simpa using List.findIdx_getElem (w := hlt)

theorem id_eq_of_paramNumber (hp : ∃ r ∈ params, r.id = p.id) (hq : ∃ r ∈ params, r.id = q.id)
    (h : paramNumber params p = paramNumber params q) : p.id = q.id := by
  obtain ⟨r, hr, hid⟩ := getElem?_paramNumber hp
  obtain ⟨r', hr', hid'⟩ := getElem?_paramNumber hq
  rw [h, hr'] at hr
  cases hr
  rw [← hid, hid']

theorem paramNumber_getElem (hn : (params.map id).Nodup) {i : Nat} (hi : i < params.length) :
    paramNumber params params[i] = i + 1 := by
  obtain ⟨q, hq, hid⟩ := getElem?_paramNumber ⟨params[i], List.getElem_mem hi, rfl⟩
  rw [paramNumber, Nat.add_sub_cancel] at hq
  obtain ⟨hlt, hget⟩ := List.getElem?_eq_some_iff.1 hq
  have hlt' : (params.findIdx fun q => q.id == params[i].id) < (params.map id).length := by
    simpa using hlt
  have hi' : i < (params.map id).length := by simpa using hi
  have hmap : (params.map id)[params.findIdx fun q => q.id == params[i].id] = (params.map id)[i] := by
    rw [List.getElem_map, List.getElem_map, hget, hid]
  rw [paramNumber, hn.getElem_inj_iff.1 hmap]

theorem placeholders_eq (hn : (params.map id).Nodup) :
    params.map (placeholderIn params) = placeholderNames params.length := by
  apply List.ext_getElem
  · simp [placeholderNames]
  · intro i hi _
    have hi : i < params.length := by simpa using hi
    simp [placeholderNames, placeholderIn, paramNumber_getElem hn hi]

/-- All occurrences of the parameters, each by its placeholder: listed by first occurrence, they are the
placeholders of the numbers from one on. -/
theorem eraseDups_placeholders (ps : List Param) :
    (ps.map (placeholderIn (numbered ps))).eraseDups = placeholderNames (numbered ps).length := by
  have hcells : ∀ qs : List Param, qs.map (placeholderIn (numbered ps)) =
      (qs.map id).map (ParamId.placeholderIn (numbered ps)) := by
    intro qs
    rw [List.map_map]
    rfl
  have hinj : ∀ i ∈ ps.map id, ∀ j ∈ ps.map id,
      ParamId.placeholderIn (numbered ps) i = ParamId.placeholderIn (numbered ps) j → i = j := by
    intro i hi j hj h
    obtain ⟨p, hp, rfl⟩ := List.mem_map.1 hi
    obtain ⟨q, hq, rfl⟩ := List.mem_map.1 hj
    exact id_eq_of_paramNumber (exists_numbered hp) (exists_numbered hq) (placeholderName_injective h)
  calc (ps.map (placeholderIn (numbered ps))).eraseDups
      = ((ps.map id).map (ParamId.placeholderIn (numbered ps))).eraseDups := by rw [hcells]
    _ = (ps.map id).eraseDups.map (ParamId.placeholderIn (numbered ps)) := eraseDups_map hinj
    _ = (numbered ps).map (placeholderIn (numbered ps)) := by rw [← ids_numbered, hcells]
    _ = placeholderNames (numbered ps).length := placeholders_eq (nodup_ids_numbered ps)

end Param

end Tsql
