import Mathlib.Data.List.Nodup
import Mathlib.Data.List.Perm.Subperm
import Tsql.Naming.Unique
import Tsql.Proofs.Text.Digits

/-!
# Unique names are new

A base with a number behind it keeps its number in lower case: neither a digit nor the separator has
case, and no letter looks past them. So the numbers of one base give different names whatever the case,
one of the numbers that are tried is free, and a name that is handed out was never used before
(`UniqueNames.isUsed_next`).
-/

namespace Tsql

open Text

namespace Text

/-- A character that lower case leaves alone and that ends the look for a neighbouring letter. -/
def IsCaseless (c : Char) : Prop :=
  c ≠ 'Σ' ∧ c ≠ 'İ' ∧ lowerLetter c = c ∧ isCaseIgnorable c = false ∧ isCased c = false

theorem isCaseless_underscore : IsCaseless '_' := by
  refine ⟨by decide, by decide, by decide, ?_, ?_⟩ <;> decide +kernel

theorem isCaseless_of_mem_digits {n : Nat} {c : Char} (h : c ∈ digits n) : IsCaseless c := by
  have hdigit : ∀ d < 10, digitChar d ≠ 'Σ' ∧ digitChar d ≠ 'İ' ∧
      lowerLetter (digitChar d) = digitChar d ∧ isCaseIgnorable (digitChar d) = false ∧
      isCased (digitChar d) = false := by
    decide +kernel
  obtain ⟨d, hd, rfl⟩ := exists_of_mem_digits h
  exact hdigit d hd

theorem meetsCased_append {c : Char} (hc : IsCaseless c) (s t : List Char) :
    meetsCased (s ++ c :: t) = meetsCased s := by
  obtain ⟨-, -, -, hignorable, hcased⟩ := hc
  induction s with
  | nil => simp [meetsCased, hignorable, hcased]
  | cons d rest ih =>
    unfold meetsCased at ih ⊢
    by_cases hd : isCaseIgnorable d = true
    · rw [List.cons_append, List.dropWhile_cons_of_pos hd, List.dropWhile_cons_of_pos hd]
      exact ih
    · rw [List.cons_append, List.dropWhile_cons_of_neg hd, List.dropWhile_cons_of_neg hd]

/-- Lower case up to a character without case does not depend on what follows. -/
theorem lowercaseAfter_append {c : Char} (hc : IsCaseless c) (before s t : List Char) :
    lowercaseAfter before (s ++ c :: t) =
      lowercaseAfter before s ++ lowercaseAfter (s.reverse ++ before) (c :: t) := by
  induction s generalizing before with
  | nil => rfl
  | cons d rest ih =>
    rw [List.cons_append, lowercaseAfter, lowercaseAfter, meetsCased_append hc, ih]
    simp

theorem lowercaseAfter_caseless {s : List Char} (hs : ∀ c ∈ s, IsCaseless c) (before : List Char) :
    lowercaseAfter before s = s := by
  induction s generalizing before with
  | nil => rfl
  | cons c rest ih =>
    obtain ⟨hsigma, hdotted, hlower, -⟩ := hs c (by simp)
    rw [lowercaseAfter, ih fun d hd => hs d (by simp [hd])]
    simp [hsigma, hdotted, hlower]

/-- Nor does it behind one depend on what comes before that one. -/
theorem lowercaseAfter_behind {c : Char} (hc : IsCaseless c) (before far s : List Char) :
    lowercaseAfter (before ++ c :: far) s = lowercaseAfter before s := by
  induction s generalizing before with
  | nil => rfl
  | cons d rest ih =>
    have hrest := ih (d :: before)
    rw [List.cons_append] at hrest
    rw [lowercaseAfter, lowercaseAfter, meetsCased_append hc, hrest]

/-- A text without case at the end of another one is left as it is. -/
theorem lowercase_append {s t : List Char} (ht : ∀ c ∈ t, IsCaseless c) (hne : t ≠ []) :
    lowercase (String.ofList (s ++ t)) = String.ofList (lowercaseAfter [] s ++ t) := by
  obtain ⟨c, rest, rfl⟩ := List.exists_cons_of_ne_nil hne
  rw [lowercase, String.toList_ofList, lowercaseAfter_append (ht c (by simp)),
    lowercaseAfter_caseless ht]

end Text

namespace UniqueNames

variable {names : UniqueNames} {base : String}

theorem isCaseless_of_mem_separator {c : Char} (h : c ∈ (separator base).toList) : IsCaseless c := by
  have hsep : (separator base).toList = ['_'] ∨ (separator base).toList = [] := by
    unfold separator
    split
    · split <;> simp
    · simp
  rcases hsep with hsep | hsep <;> rw [hsep] at h
  · rw [List.mem_singleton.1 h]
    exact isCaseless_underscore
  · cases h

theorem lowercase_numbered (base : String) (n : Nat) :
    lowercase (numbered base n) =
      String.ofList (lowercaseAfter [] base.toList ++ ((separator base).toList ++ digits n)) := by
  have htext : numbered base n = String.ofList (base.toList ++ ((separator base).toList ++ digits n)) := by
    apply String.toList_injective
    simp [numbered, natText]
  rw [htext, lowercase_append]
  · intro c hc
    rcases List.mem_append.1 hc with hc | hc
    · exact isCaseless_of_mem_separator hc
    · exact isCaseless_of_mem_digits hc
  · simp [digits_ne_nil]

/-- The numbers of one base give names that differ even without regard to case. -/
theorem lowercase_numbered_injective (base : String) :
    Function.Injective fun n => lowercase (numbered base n) := by
  intro m n h
  simp only [lowercase_numbered] at h
  have hlist := String.ofList_injective h
  rw [List.append_cancel_left_eq, List.append_cancel_left_eq] at hlist
  exact natText_injective (congrArg String.ofList hlist)

/-- A search that ends at a used name has met used names only. -/
theorem isUsed_of_freeNumber {fuel n : Nat}
    (h : names.isUsed (numbered base (names.freeNumber base fuel n)) = true) :
    ∀ i ≤ fuel, names.isUsed (numbered base (n + i)) = true := by
  induction fuel generalizing n with
  | zero =>
    intro i hi
    obtain rfl : i = 0 := by omega
    exact h
  | succ fuel ih =>
    intro i hi
    rw [freeNumber] at h
    split at h
    · next hused =>
      cases i with
      | zero => exact hused
      | succ i =>
        have := ih h i (by omega)
        rwa [show n + (i + 1) = n + 1 + i by omega]
    · next hfree => exact absurd h hfree

/-- Among one number more than there are names, one gives a name that is none of them. -/
theorem exists_numbered_notMem (used : List String) (base : String) (n : Nat) :
    ∃ i ≤ used.length, lowercase (numbered base (n + i)) ∉ used := by
  by_contra hall
  push Not at hall
  let tried := (List.range (used.length + 1)).map fun i => lowercase (numbered base (n + i))
  have hnodup : tried.Nodup := by
    refine List.Nodup.map (fun i j hij => ?_) List.nodup_range
    have := lowercase_numbered_injective base hij
    omega
  have hsub : tried ⊆ used := by
    intro s hs
    obtain ⟨i, hi, rfl⟩ := List.mem_map.1 hs
    have hi := List.mem_range.1 hi
    exact hall i (by omega)
  have hlength := (List.subperm_of_subset hnodup hsub).length_le
  simp only [tried, List.length_map, List.length_range] at hlength
  omega

/-- There are fewer used names than numbers that are tried, so the search ends at a free one. -/
theorem isUsed_freeNumber (names : UniqueNames) (base : String) (n : Nat) :
    names.isUsed (numbered base (names.freeNumber base (names.used.length + 1) n)) = false := by
  rw [← Bool.not_eq_true]
  intro h
  obtain ⟨i, hi, hfree⟩ := exists_numbered_notMem names.used base n
  exact hfree (by simpa [isUsed] using isUsed_of_freeNumber h i (by omega))

/-- A name that is handed out was not handed out before, in whatever case. -/
theorem isUsed_next (names : UniqueNames) (base : String) :
    names.isUsed (names.next base).1 = false := by
  unfold next
  by_cases hused : names.isUsed base = true
  · simp only [if_pos hused]
    exact isUsed_freeNumber names base _
  · simp only [if_neg hused]
    exact Bool.not_eq_true _ ▸ hused

theorem lowercase_next_notMem (names : UniqueNames) (base : String) :
    lowercase (names.next base).1 ∉ names.used := by
  simpa [isUsed] using names.isUsed_next base

theorem used_next (names : UniqueNames) (base : String) :
    (names.next base).2.used = lowercase (names.next base).1 :: names.used := by
  unfold next
  by_cases hused : names.isUsed base = true
  · simp only [if_pos hused]
  · simp only [if_neg hused]

end UniqueNames

end Tsql
