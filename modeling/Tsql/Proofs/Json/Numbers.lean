import Mathlib.Tactic.IntervalCases
import Mathlib.Tactic.SplitIfs
import Tsql.Json.Printer
import Tsql.Json.Reader
import Tsql.Proofs.Text.Digits

/-!
# Numbers in JSON texts

A reader takes the digits of a number of sixty-four bits as that number. What it takes as a number at the
end of a text it takes in front of other values as well (`takeNumber?_append`), so for a floating-point
number it is enough to know that its own text is read back: `ReadsBack`.
-/

namespace Tsql

open Text

namespace Text

def NoDigit (s : List Char) : Prop := ∀ c r, s = c :: r → digitValue? c = none

end Text

namespace Json

variable {s t r : List Char}

/-- The end of a text, or what stands behind the items and fields of a value. -/
def Follows (r : List Char) : Prop := ∀ c s, r = c :: s → c = ',' ∨ c = ']' ∨ c = '\x7d'

theorem Follows.cons {c : Char} (h : c = ',' ∨ c = ']' ∨ c = '\x7d') : Follows (c :: r) := by
  rintro d s hd
  cases hd
  exact h

theorem Follows.noDigit (h : Follows r) : NoDigit r := by
  intro c s hc
  rcases h c s hc with rfl | rfl | rfl <;> rfl

theorem takeWhole?_of_ne {c : Char} (hc : c ≠ '0') :
    takeWhole? (c :: s) = if startsWithDigit (c :: s) then
      let taken := takeSignificand 0 0 (c :: s)
      some (taken.1, (taken.2.2.takeWhile isDigit).length,
        taken.2.2.drop (taken.2.2.takeWhile isDigit).length)
    else none := by
  unfold takeWhole?
  split
  next h => exact absurd (List.cons.inj h).1 hc
  · rfl

/-! ### Integers -/

/-- Digits that write a number of sixty-four bits are all taken. -/
theorem takeSignificand_digits {m n : Nat} {ds : List Char} (count : Nat)
    (h : ofDigitsFrom? m ds = some n) (hn : n ≤ maxWord) :
    takeSignificand m count ds = (n, count + ds.length, []) := by
  induction ds generalizing m count with
  | nil =>
    obtain rfl := Option.some.inj h
    rfl
  | cons c ds ih =>
    rw [ofDigitsFrom?] at h
    split at h
    next d hd =>
      have hle := le_of_ofDigitsFrom? h
      rw [takeSignificand, hd]
      simp only [if_neg (by omega : ¬ maxWord < 10 * m + d)]
      rw [ih _ h, List.length_cons]
      congr 2
      omega
    · cases h

theorem takeWhole?_digits {n : Nat} (hn : n ≤ maxWord) : takeWhole? (digits n) = some (n, 0, []) := by
  rcases Nat.eq_zero_or_pos n with rfl | hpos
  · rw [digits]
    rfl
  · have htake := takeSignificand_digits 0 (ofDigitsFrom?_digits n) hn
    obtain ⟨d, ds, hd, hlt, hds⟩ := digits_head hpos
    have hzero : digitChar d ≠ '0' := by interval_cases d <;> decide
    rw [hds] at htake ⊢
    rw [takeWhole?_of_ne hzero, htake]
    exact if_pos (isDigit_digitChar hlt)

/-- The number behind a sign, as the reader takes it. -/
theorem takeNumber?_digits (negative : Bool) {n : Nat} (hn : n ≤ maxWord)
    (hneg : negative = true → 0 < n ∧ 2 * n ≤ maxWord + 1) :
    takeNumber? negative (digits n) = some (.integer (if negative then -(n : Int) else n), []) := by
  rw [takeNumber?, takeWhole?_digits hn]
  cases negative with
  | false => rfl
  | true => simp [hneg rfl]

def takeSigned? : List Char → Option (JsonNumber × List Char)
  | '-' :: s => takeNumber? true s
  | s => takeNumber? false s

theorem takeSigned?_digits (n : Nat) : takeSigned? (digits n) = takeNumber? false (digits n) := by
  obtain ⟨d, r, hd, hr⟩ := digits_cons n
  rw [hr]
  interval_cases d <;> rfl

theorem takeSigned?_intText {i : Int} (hi : -(2 ^ 63) ≤ i ∧ i ≤ maxWord) :
    takeSigned? (intText i).toList = some (.integer i, []) := by
  have hword : maxWord = 2 ^ 64 - 1 := rfl
  unfold intText natText
  split
  next hneg =>
    have htext : ("-" ++ String.ofList (digits i.natAbs)).toList = '-' :: digits i.natAbs := by simp
    have hval : (-(i.natAbs : Int)) = i := by omega
    rw [htext]
    show takeNumber? true (digits i.natAbs) = _
    rw [takeNumber?_digits true (by omega) fun _ => by omega, if_pos rfl, hval]
  next hpos =>
    have hval : (i.natAbs : Int) = i := by omega
    rw [String.toList_ofList, takeSigned?_digits, takeNumber?_digits false (by omega) (by simp),
      if_neg (by simp), hval]

/-! ### Numbers in front of a rest -/

theorem startsWithDigit_frame (hr : NoDigit r) :
    startsWithDigit (s ++ r) = startsWithDigit s := by
  cases s with
  | nil =>
    cases r with
    | nil => rfl
    | cons c t => simp [startsWithDigit, isDigit, hr c t rfl]
  | cons c t => rfl

theorem takeSignificand_frame {m n count places : Nat} (hr : NoDigit r)
    (h : takeSignificand m count s = (n, places, t)) :
    takeSignificand m count (s ++ r) = (n, places, t ++ r) := by
  induction s generalizing m count with
  | nil =>
    obtain ⟨rfl, rfl, rfl⟩ : m = n ∧ count = places ∧ [] = t := by simpa [takeSignificand] using h
    cases r with
    | nil => rfl
    | cons c r => simp [takeSignificand, hr c r rfl]
  | cons c s ih =>
    rw [takeSignificand] at h
    rw [List.cons_append, takeSignificand]
    split at h
    · split_ifs at h ⊢
      · cases h
        rfl
      · exact ih h
    · cases h
      rfl

theorem takeWhile_frame (hr : NoDigit r) : (s ++ r).takeWhile isDigit = s.takeWhile isDigit := by
  induction s with
  | nil =>
    cases r with
    | nil => rfl
    | cons c r => simp [isDigit, hr c r rfl]
  | cons c s ih =>
    rw [List.cons_append, List.takeWhile_cons, List.takeWhile_cons, ih]

theorem dropWhile_frame (hr : NoDigit r) : (s ++ r).dropWhile isDigit = s.dropWhile isDigit ++ r := by
  induction s with
  | nil =>
    cases r with
    | nil => rfl
    | cons c r => simp [isDigit, hr c r rfl]
  | cons c s ih =>
    rw [List.cons_append, List.dropWhile_cons, List.dropWhile_cons, ih]
    split <;> rfl

theorem drop_takeWhile_frame :
    (s ++ r).drop (s.takeWhile isDigit).length = s.drop (s.takeWhile isDigit).length ++ r :=
  List.drop_append_of_le_length (List.takeWhile_prefix _).length_le

/-- The digits before the point are one at least. -/
theorem takeWhole?_head {taken : Nat × Nat × List Char} (h : takeWhole? s = some taken) :
    ∃ c u, s = c :: u ∧ isDigit c = true := by
  cases s with
  | nil => cases h
  | cons c u =>
    refine ⟨c, u, rfl, ?_⟩
    by_cases hc : c = '0'
    · rw [hc]
      rfl
    · rw [takeWhole?_of_ne hc] at h
      split_ifs at h with hdigit
      exact hdigit

theorem takeWhole?_append {m e : Nat} (hr : NoDigit r) (h : takeWhole? s = some (m, e, t)) :
    takeWhole? (s ++ r) = some (m, e, t ++ r) := by
  cases s with
  | nil => cases h
  | cons c s =>
    by_cases hc : c = '0'
    · subst hc
      replace h : (if startsWithDigit s then none else some (0, 0, s)) = some (m, e, t) := h
      show (if startsWithDigit (s ++ r) then none else some (0, 0, s ++ r)) = _
      rw [startsWithDigit_frame hr]
      split_ifs at h ⊢
      cases h
      rfl
    · rw [takeWhole?_of_ne hc] at h
      rw [List.cons_append, takeWhole?_of_ne hc]
      change (if startsWithDigit (c :: s) then _ else none) = _
      split_ifs at h ⊢
      cases h
      rw [← List.cons_append, takeSignificand_frame hr rfl]
      simp only [takeWhile_frame hr, drop_takeWhile_frame]

theorem splitSign_append (hs : s ≠ []) :
    splitSign (s ++ r) = ((splitSign s).1, (splitSign s).2 ++ r) := by
  cases s with
  | nil => exact absurd rfl hs
  | cons c s =>
    unfold splitSign
    rw [List.cons_append]
    split
    next h =>
      obtain ⟨rfl, rfl⟩ := List.cons.inj h
      rfl
    next h =>
      obtain ⟨rfl, rfl⟩ := List.cons.inj h
      rfl
    next hminus hplus =>
      split
      next h => exact absurd (congrArg (· ++ r) h) (hminus _)
      next h => exact absurd (congrArg (· ++ r) h) (hplus _)
      · rfl

theorem takeExponent?_append {e : Int} (hr : NoDigit r) (h : takeExponent? s = some (e, t)) :
    takeExponent? (s ++ r) = some (e, t ++ r) := by
  cases s with
  | nil => cases h
  | cons c s =>
    unfold takeExponent? at h ⊢
    rw [splitSign_append (List.cons_ne_nil c s)]
    simp only [takeWhile_frame hr, drop_takeWhile_frame, Option.bind_eq_bind] at h ⊢
    obtain ⟨n, hn, h⟩ := Option.bind_eq_some_iff.1 h
    cases h
    rw [hn]
    rfl

theorem finishFloat?_exponent {negative : Bool} {m : Nat} {e : Int} {c : Char} (hc : c = 'e' ∨ c = 'E') :
    finishFloat? negative m e (c :: s) = (takeExponent? s).bind fun p =>
      (makeFloat? negative m (e + p.1)).bind fun x => some (x, p.2) := by
  rcases hc with rfl | rfl <;> rfl

theorem finishFloat?_plain {negative : Bool} {m : Nat} {e : Int}
    (hs : ∀ c ∈ s.head?, ¬ (c = 'e' ∨ c = 'E')) :
    finishFloat? negative m e s = (makeFloat? negative m e).bind fun x => some (x, s) := by
  unfold finishFloat?
  split
  · exact absurd (.inl rfl) (hs 'e' rfl)
  · exact absurd (.inr rfl) (hs 'E' rfl)
  · rfl

/-- What a rest may not start with, a text in front of it starts with or not as before. -/
theorem Follows.head?_append {p : Char → Prop} (hr : Follows r) (hp : ∀ c, c = ',' ∨ c = ']' ∨ c = '\x7d' → p c)
    (hs : ∀ c ∈ s.head?, p c) : ∀ c ∈ (s ++ r).head?, p c := by
  cases s with
  | cons d s => exact hs
  | nil =>
    cases r with
    | nil => exact hs
    | cons d r =>
      rintro c ⟨⟩
      exact hp d (hr d r rfl)

theorem finishFloat?_append {negative : Bool} {m : Nat} {e : Int} {n : JsonNumber} (hr : Follows r)
    (h : finishFloat? negative m e s = some (n, t)) :
    finishFloat? negative m e (s ++ r) = some (n, t ++ r) := by
  by_cases hs : ∀ c ∈ s.head?, ¬ (c = 'e' ∨ c = 'E')
  · rw [finishFloat?_plain hs] at h
    rw [finishFloat?_plain (hr.head?_append (by rintro c (rfl | rfl | rfl) <;> decide) hs)]
    obtain ⟨x, hx, h⟩ := Option.bind_eq_some_iff.1 h
    cases h
    rw [hx]
    rfl
  · cases s with
    | nil => exact absurd (fun c hc => nomatch hc) hs
    | cons c s =>
      have hc : c = 'e' ∨ c = 'E' := by
        by_contra hc
        exact hs (by rintro d ⟨⟩; exact hc)
      rw [finishFloat?_exponent hc] at h
      rw [List.cons_append, finishFloat?_exponent hc]
      obtain ⟨⟨i, rest⟩, hi, h⟩ := Option.bind_eq_some_iff.1 h
      obtain ⟨x, hx, h⟩ := Option.bind_eq_some_iff.1 h
      cases h
      rw [takeExponent?_append hr.noDigit hi, Option.bind_some, hx]
      rfl

theorem takeNumber?_append {negative : Bool} {n : JsonNumber} (hr : Follows r)
    (h : takeNumber? negative s = some (n, t)) :
    takeNumber? negative (s ++ r) = some (n, t ++ r) := by
  unfold takeNumber? at h
  obtain ⟨⟨m, e, rest⟩, hwhole, h⟩ := Option.bind_eq_some_iff.1 h
  unfold takeNumber?
  rw [takeWhole?_append hr.noDigit hwhole, Option.bind_eq_bind, Option.bind_some]
  dsimp only at h ⊢
  split at h
  next rest =>
    split_ifs at h with hdigit
    show (if startsWithDigit (rest ++ r) then
        let taken := takeSignificand m 0 (rest ++ r)
        finishFloat? negative taken.1 ((e : Int) - taken.2.1) (taken.2.2.dropWhile isDigit)
      else none) = _
    rw [startsWithDigit_frame hr.noDigit, if_pos hdigit, takeSignificand_frame hr.noDigit rfl]
    dsimp only
    rw [dropWhile_frame hr.noDigit]
    exact finishFloat?_append hr h
  next => exact finishFloat?_append hr h
  next => exact finishFloat?_append hr h
  next hpoint he hE =>
    have hrest : ∀ c ∈ rest.head?, ¬ (c = '.' ∨ c = 'e' ∨ c = 'E') := by
      cases rest with
      | nil => exact fun c hc => nomatch hc
      | cons d rest =>
        rintro c ⟨⟩ (rfl | rfl | rfl)
        exacts [hpoint _ rfl, he _ rfl, hE _ rfl]
    have hhead := hr.head?_append (by rintro c (rfl | rfl | rfl) <;> decide) hrest
    split
    next heq => exact absurd (.inl rfl) (hhead '.' (by rw [heq]; rfl))
    next heq => exact absurd (.inr (.inl rfl)) (hhead 'e' (by rw [heq]; rfl))
    next heq => exact absurd (.inr (.inr rfl)) (hhead 'E' (by rw [heq]; rfl))
    next =>
      split_ifs at h ⊢
      · cases h
        rfl
      · cases h
        rfl
      · obtain ⟨x, hx, h⟩ := Option.map_eq_some_iff.1 h
        cases h
        rw [hx]
        rfl

theorem takeSigned?_eq_some {n : JsonNumber} (h : takeSigned? s = some (n, t)) :
    (∃ u, s = '-' :: u ∧ takeNumber? true u = some (n, t)) ∨
      ∃ d < 10, ∃ u, s = digitChar d :: u ∧ takeNumber? false s = some (n, t) := by
  unfold takeSigned? at h
  split at h
  next u => exact .inl ⟨u, rfl, h⟩
  · obtain ⟨_, hwhole, -⟩ := Option.bind_eq_some_iff.1 h
    obtain ⟨c, u, rfl, hdigit⟩ := takeWhole?_head hwhole
    obtain ⟨d, hd, rfl⟩ := exists_digitChar hdigit
    exact .inr ⟨d, hd, u, rfl, h⟩

/-! ### Floating-point numbers -/

/-- The text of a floating-point number is read as that number. -/
def ReadsBack (x : Binary64) : Prop := takeSigned? (floatText x).toList = some (.float x, [])

instance (x : Binary64) : Decidable (ReadsBack x) := inferInstanceAs (Decidable (_ = _))

end Json

end Tsql
