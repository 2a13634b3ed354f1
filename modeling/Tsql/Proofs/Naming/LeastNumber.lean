import Mathlib.Data.Nat.Find
import Mathlib.Tactic.SplitIfs
import Tsql.Proofs.Naming.Unique

/-!
# The least free number

Unique names look for a number behind the last one that the base was given, whatever the case it was asked
for in. Nothing free is passed over: every number up to the counter of a base is taken (`Reached.counted`),
because a base and its numbers can be put in lower case separately (`lowercase_numbered_eq`). So the name
for a base is the one that a search from one on comes to among all names that were handed out
(`next_eq_searched`), and no two names are the same without regard to case.
-/

namespace Tsql

open Text

namespace Text

/-- Lower case neither makes digits nor takes them away. -/
theorem isDigit_lowerLetter (c : Char) : isDigit (lowerLetter c) = isDigit c := by
  have hruns : ∀ run ∈ capitalRuns, 58 ≤ (run.1 : Int) + run.2.2.2 := by decide +kernel
  have hofNat {n : Nat} (h : 57 < n) : isDigit (Char.ofNat n) = false := by
    by_cases hvalid : n.isValidChar
    · have hself : (Char.ofNat n).toNat = n := by
        rw [Char.ofNat, dif_pos hvalid]
        rfl
      rw [isDigit, digitValue?, hself, if_neg (by omega)]
      rfl
    · rw [Char.ofNat, dif_neg hvalid]
      rfl
  have hself (h : 57 < c.toNat) : isDigit c = false := by
    rw [← Char.ofNat_toNat c]
    exact hofNat h
  unfold lowerLetter
  dsimp only
  split
  · split
    · rw [hofNat (by omega), hself (by omega)]
    · rfl
  · split
    next a b step distance hfind =>
      have hfrom : 58 ≤ (a : Int) + distance := hruns _ (List.mem_of_find?_eq_some hfind)
      have hrange := List.find?_some hfind
      simp only [Bool.and_eq_true, decide_eq_true_eq] at hrange
      rw [hofNat (by omega), hself (by omega)]
    · rfl

/-- A text ends in a digit exactly if it does in lower case. -/
theorem isDigit_getLast_lowercaseAfter (before s : List Char) :
    (lowercaseAfter before s).getLast?.map isDigit = s.getLast?.map isDigit := by
  induction s generalizing before with
  | nil => rfl
  | cons c rest ih =>
    rw [lowercaseAfter, List.getLast?_append]
    cases rest with
    | nil =>
      rw [lowercaseAfter, List.getLast?_nil, Option.none_or]
      split_ifs with hsigma hfinal hdotted
      · subst hsigma
        rfl
      · subst hsigma
        rfl
      · subst hdotted
        rfl
      · exact congrArg some (isDigit_lowerLetter c)
    | cons d rest =>
      have hrest := ih (c :: before)
      rw [List.getLast?_cons_cons, ← hrest]
      cases hlast : (lowercaseAfter (c :: before) (d :: rest)).getLast? with
      | none =>
        rw [hlast] at hrest
        exact absurd (Option.map_eq_none_iff.1 hrest.symm) (by simp [List.getLast?_eq_none_iff])
      | some e => rfl

end Text

namespace UniqueNames

variable {names : UniqueNames} {handed : List String} {base : String}

/-! ### Bases in lower case -/

theorem separator_lowercase (base : String) : separator (lowercase base) = separator base := by
  have hlast := isDigit_getLast_lowercaseAfter [] base.toList
  unfold separator lowercase
  rw [String.toList_ofList]
  cases hs : (lowercaseAfter [] base.toList).getLast? with
  | none =>
    rw [hs] at hlast
    cases hb : base.toList.getLast? with
    | none => rfl
    | some c => simp [hb] at hlast
  | some c =>
    rw [hs] at hlast
    cases hb : base.toList.getLast? with
    | none => simp [hb] at hlast
    | some d =>
      rw [hb] at hlast
      simp only [Option.map_some, Option.some.injEq] at hlast
      simp only [hlast]

/-- A base and its number are put in lower case separately. -/
theorem lowercase_numbered_eq (base : String) (n : Nat) :
    lowercase (numbered base n) = numbered (lowercase base) n := by
  apply String.toList_injective
  rw [lowercase_numbered, numbered, separator_lowercase]
  simp [natText, lowercase]

/-! ### Searching from one -/

def IsTaken (handed : List String) (name : String) : Prop :=
  ∃ other ∈ handed, lowercase other = lowercase name

instance (handed : List String) (name : String) : Decidable (IsTaken handed name) :=
  inferInstanceAs (Decidable (∃ other ∈ handed, lowercase other = lowercase name))

theorem isTaken_iff_mem {name : String} : IsTaken handed name ↔ lowercase name ∈ handed.map lowercase := by
  simp [IsTaken]

/-- A base and a number in decimal, with a low line between them if the base ends in a digit. -/
def suffixed (base : String) (n : Nat) : String :=
  if base.toList.getLast?.any fun c => '0' ≤ c && c ≤ '9' then base ++ "_" ++ toString n
  else base ++ toString n

theorem isDigit_iff {c : Char} : isDigit c = true ↔ '0' ≤ c ∧ c ≤ '9' := by
  unfold isDigit digitValue?
  rw [Char.le_def, Char.le_def, UInt32.le_iff_toNat_le, UInt32.le_iff_toNat_le]
  change _ ↔ 48 ≤ c.toNat ∧ c.toNat ≤ 57
  split_ifs with h <;> simp [h]

theorem numbered_eq_suffixed (base : String) (n : Nat) : numbered base n = suffixed base n := by
  unfold numbered separator suffixed
  rw [natText_eq_toString]
  cases base.toList.getLast? with
  | none => simp
  | some c =>
    simp only [Option.any_some, Bool.and_eq_true, decide_eq_true_eq, ← isDigit_iff]
    split <;> simp

/-- Among one number more than there are names, from one on, one is free. -/
theorem exists_free (handed : List String) (base : String) :
    ∃ n, (0 < n ∧ ¬ IsTaken handed (suffixed base n)) ∧ n ≤ handed.length + 1 := by
  obtain ⟨i, hi, hfree⟩ := exists_numbered_notMem (handed.map lowercase) base 1
  rw [List.length_map] at hi
  rw [numbered_eq_suffixed] at hfree
  exact ⟨1 + i, ⟨by omega, mt isTaken_iff_mem.1 hfree⟩, by omega⟩

/-- The least number, from one on, that gives a base a name which was not handed out. -/
def leastFree (handed : List String) (base : String) : Nat :=
  Nat.find (p := fun n => 0 < n ∧ ¬ IsTaken handed (suffixed base n))
    ((exists_free handed base).imp fun _ h => h.1)

/-- What a search among the names handed out makes of a base: the base itself if it is free, and otherwise
the base with the least number that is free. -/
def searched (handed : List String) (base : String) : String :=
  if IsTaken handed base then suffixed base (leastFree handed base) else base

theorem leastFree_le (handed : List String) (base : String) :
    leastFree handed base ≤ handed.length + 1 := by
  obtain ⟨n, hfree, hle⟩ := exists_free handed base
  exact Nat.le_trans (Nat.find_min' _ hfree) hle

theorem isTaken_of_lt_leastFree {m : Nat} (hpos : 0 < m) (hm : m < leastFree handed base) :
    IsTaken handed (suffixed base m) := by
  by_contra hfree
  exact Nat.find_min _ hm ⟨hpos, hfree⟩

theorem leastFree_eq {n : Nat} (hpos : 0 < n) (hfree : ¬ IsTaken handed (suffixed base n))
    (hleast : ∀ m, 0 < m → m < n → IsTaken handed (suffixed base m)) : leastFree handed base = n := by
  refine (Nat.find_eq_iff _).2 ⟨⟨hpos, hfree⟩, fun m hm hm' => ?_⟩
  exact hm'.2 (hleast m hm'.1 hm)

/-! ### Searching from the counter -/

/-- The numbers that a search passes over give used names. -/
theorem isUsed_of_lt_freeNumber {fuel n m : Nat} (hn : n ≤ m) (hm : m < names.freeNumber base fuel n) :
    names.isUsed (numbered base m) = true := by
  induction fuel generalizing n with
  | zero =>
    rw [freeNumber] at hm
    omega
  | succ fuel ih =>
    rw [freeNumber] at hm
    split at hm
    next hused =>
      rcases Nat.eq_or_lt_of_le hn with rfl | hlt
      · exact hused
      · exact ih hlt hm
    · omega

theorem le_freeNumber (names : UniqueNames) (base : String) (fuel n : Nat) :
    n ≤ names.freeNumber base fuel n := by
  induction fuel generalizing n with
  | zero => exact le_rfl
  | succ fuel ih =>
    rw [freeNumber]
    split
    · exact Nat.le_trans (Nat.le_succ n) (ih (n + 1))
    · exact le_rfl

/-- The number last given to a base, or zero. -/
def counter (names : UniqueNames) (base : String) : Nat :=
  (names.counters.lookup (lowercase base)).getD 0

/-- What is kept of names that were handed out. -/
structure Reached (handed : List String) (names : UniqueNames) : Prop where
  used_eq : names.used = (handed.map lowercase).reverse
  nodup : (handed.map lowercase).Nodup
  /-- All numbers up to the counter of a base are taken, in whatever case the base is written. -/
  counted : ∀ base n, 0 < n → n ≤ names.counter base → IsTaken handed (numbered base n)

theorem IsTaken.append {name : String} (h : IsTaken handed name) (more : List String) :
    IsTaken (handed ++ more) name := by
  obtain ⟨other, hmem, heq⟩ := h
  exact ⟨other, List.mem_append_left more hmem, heq⟩

theorem isTaken_congr {name name' : String} (h : lowercase name = lowercase name') :
    IsTaken handed name ↔ IsTaken handed name' := by
  rw [IsTaken, IsTaken, h]

namespace Reached

theorem empty : Reached [] {} := ⟨rfl, .nil, fun _ _ hpos hle => absurd hle (by simp [counter]; omega)⟩

theorem isUsed_iff (h : Reached handed names) (name : String) :
    names.isUsed name = true ↔ IsTaken handed name := by
  simp [isUsed, h.used_eq, IsTaken]

theorem freeNumber_eq (h : Reached handed names) (base : String) :
    names.freeNumber base (names.used.length + 1) (names.counter base + 1) = leastFree handed base := by
  set n := names.freeNumber base (names.used.length + 1) (names.counter base + 1) with hn
  refine (leastFree_eq ?_ ?_ fun m hpos hm => ?_).symm
  · exact Nat.lt_of_lt_of_le (Nat.succ_pos _) (le_freeNumber names base _ _)
  · rw [← numbered_eq_suffixed, ← h.isUsed_iff, hn, isUsed_freeNumber]
    exact Bool.false_ne_true
  · rw [← numbered_eq_suffixed]
    rcases Nat.lt_or_ge (names.counter base) m with hlt | hle
    · exact (h.isUsed_iff _).1 (isUsed_of_lt_freeNumber hlt hm)
    · exact h.counted base m hpos hle

/-- A taken base is given its least free number, which is kept as its counter. -/
theorem next_of_taken (h : Reached handed names) (ht : IsTaken handed base) :
    names.next base = (numbered base (leastFree handed base),
      { used := lowercase (numbered base (leastFree handed base)) :: names.used
        counters := (lowercase base, leastFree handed base) :: names.counters }) := by
  unfold UniqueNames.next
  rw [if_pos ((h.isUsed_iff base).2 ht), ← h.freeNumber_eq]
  rfl

theorem next_of_free (h : Reached handed names) (hf : ¬ IsTaken handed base) :
    names.next base = (base, { names with used := lowercase base :: names.used }) := by
  unfold UniqueNames.next
  rw [if_neg fun hused => hf ((h.isUsed_iff base).1 hused)]

theorem next_eq (h : Reached handed names) (base : String) :
    (names.next base).1 = searched handed base := by
  unfold searched
  split
  next ht => rw [h.next_of_taken ht, numbered_eq_suffixed]
  next hf => rw [h.next_of_free hf]

theorem next (h : Reached handed names) (base : String) :
    Reached (handed ++ [(names.next base).1]) (names.next base).2 where
  used_eq := by rw [used_next, h.used_eq, List.map_append, List.reverse_append]; rfl
  nodup := by
    have hnew := names.lowercase_next_notMem base
    rw [h.used_eq, List.mem_reverse] at hnew
    rw [List.map_append, List.nodup_append]
    refine ⟨h.nodup, List.nodup_singleton _, fun s hs t ht hst => hnew ?_⟩
    rwa [← List.mem_singleton.1 ht, ← hst]
  counted := by
    intro other n hpos hle
    by_cases ht : IsTaken handed base
    · rw [h.next_of_taken ht] at hle ⊢
      rw [counter, List.lookup_cons] at hle
      by_cases hkey : lowercase other = lowercase base
      · -- Up to the new counter everything was taken before but the new name itself.
        rw [hkey, beq_self_eq_true] at hle
        have hsame : lowercase (numbered other n) = lowercase (numbered base n) := by
          rw [lowercase_numbered_eq, lowercase_numbered_eq, hkey]
        rw [isTaken_congr hsame]
        rcases Nat.lt_or_eq_of_le hle with hlt | rfl
        · have htaken := isTaken_of_lt_leastFree hpos hlt
          rw [← numbered_eq_suffixed] at htaken
          exact htaken.append _
        · exact ⟨_, List.mem_append_right _ (List.mem_singleton_self _), rfl⟩
      · rw [beq_eq_false_iff_ne.2 hkey] at hle
        exact (h.counted other n hpos hle).append _
    · rw [h.next_of_free ht] at hle ⊢
      exact (h.counted other n hpos hle).append _

end Reached

/-- The names that some bases are given one after the other, and what is kept then. -/
def nextAll (names : UniqueNames) : List String → List String × UniqueNames
  | [] => ([], names)
  | base :: rest =>
    let (name, names) := names.next base
    let (more, names) := names.nextAll rest
    (name :: more, names)

theorem Reached.nextAll (h : Reached handed names) (bases : List String) :
    Reached (handed ++ (names.nextAll bases).1) (names.nextAll bases).2 := by
  induction bases generalizing handed names with
  | nil =>
    rw [UniqueNames.nextAll, List.append_nil]
    exact h
  | cons base rest ih =>
    have hrest := ih (h.next base)
    rw [List.append_assoc] at hrest
    exact hrest

/-- Whatever names were handed out, the next one is the base itself where no name is the same without regard
to case, and otherwise the base with the least number that is free. There is such a number among the first
that are one more than the names, and no two names are the same without regard to case. -/
theorem next_eq_searched (bases : List String) (base : String) :
    let (handed, names) := ({} : UniqueNames).nextAll bases
    (names.next base).1 = searched handed base ∧ leastFree handed base ≤ handed.length + 1 ∧
      (handed.map lowercase).Nodup := by
  have h := Reached.empty.nextAll bases
  rw [List.nil_append] at h
  exact ⟨h.next_eq base, leastFree_le _ base, h.nodup⟩

/-- Requests for bases that end in a digit, in two cases. -/
def numberedRequests : List String := ["Order2", "order2", "Order", "ORDER", "ORDER2"]

/-- A base that ends in a digit is set apart from its number; another base gets the number alone. -/
theorem next_eq_searched_digit :
    (({} : UniqueNames).nextAll numberedRequests).1 =
        ["Order2", "order2_1", "Order", "ORDER1", "ORDER2_2"] ∧
      searched ["Order2", "order2_1", "Order", "ORDER1", "ORDER2_2"] "oRDER2" = "oRDER2_3" ∧
      searched ["Order2", "order2_1", "Order", "ORDER1", "ORDER2_2"] "order" = "order3" := by
  have hrun : ({} : UniqueNames).nextAll numberedRequests =
      (["Order2", "order2_1", "Order", "ORDER1", "ORDER2_2"],
        (({} : UniqueNames).nextAll numberedRequests).2) := Prod.ext (by decide +kernel) rfl
  have hdigit := next_eq_searched numberedRequests "oRDER2"
  have hletter := next_eq_searched numberedRequests "order"
  rw [hrun] at hdigit hletter
  refine ⟨congrArg Prod.fst hrun, hdigit.1.symm.trans ?_, hletter.1.symm.trans ?_⟩ <;> decide +kernel

end UniqueNames

end Tsql
