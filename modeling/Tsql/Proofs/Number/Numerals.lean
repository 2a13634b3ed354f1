import Tsql.Number.Decimal
import Tsql.Number.FloatText
import Tsql.Proofs.Text.Digits

/-!
# The characters of numbers

The text of a number, be it whole, decimal or floating-point, is made of digits, a minus sign, a point and
the mark of an exponent. So what is true of these characters is true of the text (`IsNumeral.all`).
-/

namespace Tsql

open Text

namespace Text

def numerals : List Char := ['0', '1', '2', '3', '4', '5', '6', '7', '8', '9', '-', '.', 'E']

def IsNumeral (s : String) : Prop := ∀ c ∈ s.toList, c ∈ numerals

theorem IsNumeral.all {s : String} (h : IsNumeral s) {p : Char → Bool} (hp : numerals.all p = true) :
    ∀ c ∈ s.toList, p c = true := fun c hc => List.all_eq_true.1 hp c (h c hc)

theorem isNumeral_ofList {chars : List Char} (h : ∀ c ∈ chars, c ∈ numerals) :
    IsNumeral (String.ofList chars) := by
  intro c hc
  rw [String.toList_ofList] at hc
  exact h c hc

theorem IsNumeral.append {s s' : String} (h : IsNumeral s) (h' : IsNumeral s') : IsNumeral (s ++ s') := by
  intro c hc
  rw [String.toList_append, List.mem_append] at hc
  exact hc.elim (h c) (h' c)

theorem digitChar_mem_numerals {d : Nat} (h : d < 10) : digitChar d ∈ numerals := by
  revert d
  decide

theorem mem_numerals_of_mem_digits {n : Nat} {c : Char} (h : c ∈ digits n) : c ∈ numerals := by
  obtain ⟨d, hd, rfl⟩ := exists_of_mem_digits h
  exact digitChar_mem_numerals hd

theorem mem_numerals_of_mem_padded {width n : Nat} {c : Char} (h : c ∈ padded width n) :
    c ∈ numerals := by
  rcases List.mem_append.1 h with h | h
  · rw [List.eq_of_mem_replicate h]
    decide
  · exact mem_numerals_of_mem_digits h

theorem mem_numerals_of_sign {negative : Bool} {c : Char} (h : c ∈ if negative then ['-'] else []) :
    c ∈ numerals := by
  split at h
  · rw [List.mem_singleton.1 h]
    decide
  · cases h

theorem isNumeral_natText (n : Nat) : IsNumeral (natText n) :=
  isNumeral_ofList fun _ => mem_numerals_of_mem_digits

theorem isNumeral_intText (i : Int) : IsNumeral (intText i) := by
  have hminus : IsNumeral "-" := isNumeral_ofList fun c hc => by
    rw [List.mem_singleton.1 hc]
    decide
  unfold intText
  split
  · exact hminus.append (isNumeral_natText _)
  · exact isNumeral_natText _

end Text

theorem Decimal.isNumeral_text (d : Decimal) : IsNumeral d.text := by
  have hdigits : ∀ c ∈ padded (d.scale + 1) d.mantissa, c ∈ numerals := fun _ => mem_numerals_of_mem_padded
  refine isNumeral_ofList fun c hc => ?_
  rcases List.mem_append.1 hc with hc | hc
  · rcases List.mem_append.1 hc with hc | hc
    · exact mem_numerals_of_sign hc
    · exact hdigits c (List.mem_of_mem_take hc)
  · split at hc
    · cases hc
    · rcases List.mem_cons.1 hc with rfl | hc
      · decide
      · exact hdigits c (List.mem_of_mem_drop hc)

/-- A number with an exponent: its digits, with a point behind the first one, and the exponent. -/
theorem Scientific.text_exponential {y : Scientific} {d : Char} {r : List Char}
    (h : Text.digits y.digits = d :: r) : y.text .exponential =
      d :: (if r.isEmpty then [] else '.' :: r) ++ 'E' :: (intText y.leading).toList := by
  have htext : y.text .exponential = exponentText .exponential y := rfl
  rw [htext, exponentText, h]
  cases r <;> simp [FloatStyle.exponential]

theorem exists_mantissa (y : Scientific) : ∃ mantissa : List Char,
    (∀ c ∈ mantissa, (∃ d < 10, c = digitChar d) ∨ c = '.') ∧
      y.text .exponential = mantissa ++ 'E' :: (intText y.leading).toList := by
  obtain ⟨d, r, hdigits, -⟩ := exists_digits y.digits
  have hdigit : ∀ c ∈ d :: r, ∃ k < 10, c = digitChar k := fun c hc => exists_of_mem_digits (hdigits ▸ hc)
  refine ⟨_, ?_, Scientific.text_exponential hdigits⟩
  intro c hc
  rcases List.mem_cons.1 hc with rfl | hc
  · exact .inl (hdigit _ List.mem_cons_self)
  · split at hc
    · cases hc
    · rcases List.mem_cons.1 hc with rfl | hc
      · exact .inr rfl
      · exact .inl (hdigit c (List.mem_cons_of_mem d hc))

theorem Floating.isNumeral_text {l : Layout} {x : Floating l} (hx : x.isFinite = true) :
    IsNumeral (x.text .exponential) := by
  unfold isFinite at hx
  unfold text
  split at hx
  next negative m q hshape =>
    rw [hshape]
    dsimp only
    obtain ⟨mantissa, hmantissa, htext⟩ := exists_mantissa (shortest FloatStyle.exponential.tie l m q)
    refine isNumeral_ofList fun c hc => ?_
    rw [htext] at hc
    rcases List.mem_append.1 hc with hc | hc
    · exact mem_numerals_of_sign hc
    rcases List.mem_append.1 hc with hc | hc
    · rcases hmantissa c hc with ⟨d, hd, rfl⟩ | rfl
      · exact digitChar_mem_numerals hd
      · decide
    · rcases List.mem_cons.1 hc with rfl | hc
      · decide
      · exact isNumeral_intText _ c hc
  next => cases hx

end Tsql
