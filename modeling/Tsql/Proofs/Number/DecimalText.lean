import Tsql.Number.Decimal
import Tsql.Proofs.Text.Digits

/-!
# Decimals read back

A decimal's text writes all its places, so its mantissa and its scale are read back as they were. Only the
sign of a zero is dropped (`Decimal.read?_text`).
-/

namespace Tsql.Decimal

open Text

/-- The places that are counted: none before the point. -/
def placesAt (point : Bool) (scale : Nat) : Nat := if point then scale else 0

theorem readDigits?_append {negative point seen : Bool} {m n scale : Nat} {ds rest : List Char}
    (hd : ofDigitsFrom? m ds = some n) (hn : n < mantissaBound)
    (hscale : point = true → scale + ds.length ≤ maxScale) :
    readDigits? negative point seen m (placesAt point scale) (ds ++ rest) =
      readDigits? negative point (seen || !ds.isEmpty) n (placesAt point (scale + ds.length)) rest := by
  induction ds generalizing m scale seen with
  | nil =>
    cases hd
    simp
  | cons c ds ih =>
    rw [ofDigitsFrom?] at hd
    split at hd
    · next d hc =>
      have hle : 10 * m + d ≤ n := le_of_ofDigitsFrom? hd
      have hdigit : isDigit c = true := by rw [isDigit, hc]; rfl
      have hexponent : ¬ ((c = 'e' ∨ c = 'E') ∧ seen = true) := by
        rintro ⟨rfl | rfl, -⟩ <;> cases hc
      have hmore : ¬ (point = true ∧ maxScale ≤ placesAt point scale) := by
        rintro ⟨rfl, hmax⟩
        have hlast := hscale rfl
        rw [placesAt, if_pos rfl] at hmax
        rw [List.length_cons] at hlast
        omega
      have hnext : (if point = true then placesAt point scale + 1 else 0) = placesAt point (scale + 1) := by
        cases point <;> rfl
      have hlength : scale + 1 + ds.length = scale + (c :: ds).length := by
        rw [List.length_cons]
        omega
      rw [List.cons_append, readDigits?, if_neg hexponent, if_neg hmore, hc]
      dsimp only
      rw [if_pos (Nat.lt_of_le_of_lt hle hn), hnext, ih hd (by rwa [hlength]), hlength]
      simp
    · cases hd

def withoutZeroSign (d : Decimal) : Decimal := { d with negative := d.negative && decide (d.mantissa ≠ 0) }

theorem make?_parts (d : Decimal) : make? d.negative d.mantissa d.scale = some d.withoutZeroSign :=
  dif_pos ⟨d.mantissa_lt, d.scale_le⟩

/-- The digits before and behind the point. -/
theorem readDigits?_places (negative : Bool) {whole places : List Char} {n : Nat} (hw : whole ≠ [])
    (h : ofDigitsFrom? 0 (whole ++ places) = some n) (hn : n < mantissaBound)
    (hscale : places.length ≤ maxScale) :
    readDigits? negative false false 0 0
        (whole ++ if places.length = 0 then [] else '.' :: places) =
      make? negative n places.length := by
  rw [ofDigitsFrom?_append] at h
  obtain ⟨m, hwhole, hplaces⟩ := Option.bind_eq_some_iff.1 h
  have hm : m < mantissaBound := Nat.lt_of_le_of_lt (le_of_ofDigitsFrom? hplaces) hn
  have hseen : (false || !whole.isEmpty) = true := by simpa using hw
  have hbefore : ∀ rest, readDigits? negative false false 0 0 (whole ++ rest) =
      readDigits? negative false true m 0 rest := by
    intro rest
    have hread : readDigits? negative false false 0 (placesAt false 0) (whole ++ rest) =
        readDigits? negative false (false || !whole.isEmpty) m (placesAt false (0 + whole.length)) rest :=
      readDigits?_append hwhole hm nofun
    rwa [hseen] at hread
  rw [hbefore]
  split
  · next hnone =>
    rw [List.length_eq_zero_iff.1 hnone] at hplaces
    cases hplaces
    rw [hnone, readDigits?, if_pos rfl]
  · have hpoint : readDigits? negative false true m 0 ('.' :: places) =
        readDigits? negative true true m 0 places := by
      rw [readDigits?]
      simp [digitValue?]
    have hbehind : readDigits? negative true true m (placesAt true 0) (places ++ []) =
        readDigits? negative true (true || !places.isEmpty) n (placesAt true (0 + places.length)) [] :=
      readDigits?_append hplaces hn (by omega)
    rw [List.append_nil, Nat.zero_add] at hbehind
    rw [hpoint]
    exact hbehind.trans (by rw [readDigits?, Bool.true_or, if_pos rfl]; rfl)

theorem read?_text (d : Decimal) : read? d.text.toList = some d.withoutZeroSign := by
  have hlength : d.scale < (padded (d.scale + 1) d.mantissa).length := by
    simp only [padded, List.length_append, List.length_replicate]
    omega
  have hdigits : ∀ c ∈ padded (d.scale + 1) d.mantissa, isDigit c = true := fun _ => isDigit_of_mem_padded
  have hvalue := ofDigitsFrom?_padded (d.scale + 1) d.mantissa
  unfold text
  dsimp only
  generalize padded (d.scale + 1) d.mantissa = ds at hlength hdigits hvalue ⊢
  obtain ⟨c, whole, hwhole⟩ : ∃ c whole, ds.take (ds.length - d.scale) = c :: whole := by
    refine List.exists_cons_of_ne_nil fun hnil => ?_
    have := congrArg List.length hnil
    rw [List.length_take, List.length_nil] at this
    omega
  have hplaces : (ds.drop (ds.length - d.scale)).length = d.scale := by
    rw [List.length_drop]
    omega
  have hread : ∀ negative : Bool, readDigits? negative false false 0 0
      (c :: whole ++ if d.scale = 0 then [] else '.' :: ds.drop (ds.length - d.scale)) =
        make? negative d.mantissa d.scale := by
    intro negative
    have hall : ofDigitsFrom? 0 (c :: whole ++ ds.drop (ds.length - d.scale)) = some d.mantissa := by
      rw [← hwhole, List.take_append_drop]
      exact hvalue
    have hle : (ds.drop (ds.length - d.scale)).length ≤ maxScale := by
      rw [hplaces]
      exact d.scale_le
    have hparts := readDigits?_places negative (List.cons_ne_nil c whole) hall d.mantissa_lt hle
    rwa [hplaces] at hparts
  have hc : isDigit c = true := hdigits c (List.mem_of_mem_take (hwhole ▸ List.mem_cons_self))
  have hminus : c ≠ '-' := ne_of_isDigit hc (by decide)
  have hplus : c ≠ '+' := ne_of_isDigit hc (by decide)
  rw [String.toList_ofList, hwhole, ← d.make?_parts]
  cases hn : d.negative with
  | true => exact hread true
  | false =>
    have hunsigned : ∀ s, read? (c :: s) = readDigits? false false false 0 0 (c :: s) := by
      intro s
      unfold read?
      split <;> simp_all
    exact (hunsigned _).trans (hread false)

end Tsql.Decimal
