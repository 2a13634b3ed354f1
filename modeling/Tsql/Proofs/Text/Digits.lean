import Mathlib.Data.List.Induction
import Tsql.Number.Power
import Tsql.Text.Digits

/-!
# Decimal digits read back

`ofDigits?` inverts `digits` and `padded`, so the decimal text of a number determines it, and it reads
nothing else.
-/

namespace Tsql.Text

theorem ofDigitsFrom?_concat (start : Nat) (s : List Char) (c : Char) :
    ofDigitsFrom? start (s ++ [c]) = (ofDigitsFrom? start s).bind fun m =>
      (digitValue? c).map fun d => 10 * m + d := by
  induction s generalizing start with
  | nil => cases h : digitValue? c <;> simp [ofDigitsFrom?, h]
  | cons b r ih => cases h : digitValue? b <;> simp [ofDigitsFrom?, h, ih]

theorem le_of_ofDigitsFrom? {m n : Nat} {ds : List Char} (h : ofDigitsFrom? m ds = some n) :
    m ≤ n := by
  induction ds generalizing m with
  | nil =>
    simp only [ofDigitsFrom?, Option.some.injEq] at h
    omega
  | cons c r ih =>
    rw [ofDigitsFrom?] at h
    split at h
    · have := ih h
      omega
    · cases h

theorem ofDigitsFrom?_append (start : Nat) (s t : List Char) :
    ofDigitsFrom? start (s ++ t) = (ofDigitsFrom? start s).bind fun m => ofDigitsFrom? m t := by
  induction s generalizing start with
  | nil => rfl
  | cons c r ih => cases h : digitValue? c <;> simp [ofDigitsFrom?, h, ih]

theorem ofDigitsFrom?_digits (n : Nat) : ofDigitsFrom? 0 (digits n) = some n := by
  induction n using Nat.strongRecOn with
  | ind n ih =>
    rw [digits]
    split
    · next h => simp [ofDigitsFrom?, digitValue?_digitChar h]
    · next h =>
      rw [ofDigitsFrom?_concat, ih (n / 10) (by omega),
        digitValue?_digitChar (Nat.mod_lt n (by omega))]
      simp only [Option.bind_some, Option.map_some, Option.some.injEq]
      omega

theorem digits_eq_toDigits (n : Nat) : digits n = Nat.toDigits 10 n := by
  induction n using Nat.strongRecOn with
  | ind n ih =>
    have hdigit : ∀ d < 10, digitChar d = d.digitChar := by decide
    rw [digits, Nat.toDigits_eq_if (by decide)]
    split
    · next h => rw [hdigit n h]
    · next h => rw [ih (n / 10) (by omega), hdigit _ (Nat.mod_lt n (by omega))]

theorem natText_eq_toString (n : Nat) : natText n = toString n := by
  rw [natText, digits_eq_toDigits]
  exact Nat.repr_eq_ofList_toDigits.symm

theorem digits_ne_nil (n : Nat) : digits n ≠ [] := by
  rw [digits]
  split <;> simp

theorem ofDigits?_digits (n : Nat) : ofDigits? (digits n) = some n := by
  have h := ofDigitsFrom?_digits n
  cases hd : digits n with
  | nil => exact absurd hd (digits_ne_nil n)
  | cons c r => rwa [hd] at h

theorem exists_of_mem_digits {n : Nat} {c : Char} (h : c ∈ digits n) : ∃ d < 10, c = digitChar d := by
  induction n using Nat.strongRecOn with
  | ind n ih =>
    rw [digits] at h
    split at h
    · next hn => exact ⟨n, hn, List.mem_singleton.1 h⟩
    · next hn =>
      rcases List.mem_append.1 h with h | h
      · exact ih (n / 10) (by omega) h
      · exact ⟨n % 10, Nat.mod_lt n (by omega), List.mem_singleton.1 h⟩

theorem digitValue?_eq_some {c : Char} {d : Nat} (h : digitValue? c = some d) : d < 10 ∧ c = digitChar d := by
  unfold digitValue? at h
  split at h
  case isFalse => cases h
  obtain rfl := Option.some.inj h
  have hlt : c.toNat - 48 < 10 := by omega
  have hcode : 48 + (c.toNat - 48) = c.toNat := by omega
  refine ⟨hlt, ?_⟩
  rw [digitChar, if_pos hlt, hcode, Char.ofNat_toNat]

theorem digits_of_lt {d : Nat} (h : d < 10) : digits d = [digitChar d] := by rw [digits, if_pos h]

theorem exists_digitChar {c : Char} (h : isDigit c = true) : ∃ d < 10, c = digitChar d := by
  obtain ⟨d, hd⟩ := Option.isSome_iff_exists.1 h
  exact ⟨d, digitValue?_eq_some hd⟩

/-- The first digit of a positive number. -/
theorem digits_head {n : Nat} (hn : 0 < n) :
    ∃ d r, 0 < d ∧ d < 10 ∧ digits n = digitChar d :: r := by
  induction n using Nat.strongRecOn with
  | ind n ih =>
    rw [digits]
    split
    next h => exact ⟨n, [], hn, h, rfl⟩
    next h =>
      obtain ⟨d, r, hd, hlt, hr⟩ := ih (n / 10) (by omega) (by omega)
      exact ⟨d, r ++ [digitChar (n % 10)], hd, hlt, by rw [hr, List.cons_append]⟩

theorem digits_cons (n : Nat) : ∃ d r, d < 10 ∧ digits n = digitChar d :: r := by
  rcases Nat.eq_zero_or_pos n with rfl | hn
  · exact ⟨0, [], by omega, digits_of_lt (by omega)⟩
  · obtain ⟨d, r, -, hd, hr⟩ := digits_head hn
    exact ⟨d, r, hd, hr⟩

theorem natText_injective {m n : Nat} (h : natText m = natText n) : m = n := by
  have hd : digits m = digits n := String.ofList_injective h
  have hm := ofDigits?_digits m
  rw [hd, ofDigits?_digits n] at hm
  exact (Option.some.inj hm).symm

/-! ### Zeros in front -/

theorem ofDigitsFrom?_padded (width n : Nat) : ofDigitsFrom? 0 (padded width n) = some n := by
  have hzeros : ∀ k, ofDigitsFrom? 0 (List.replicate k '0' ++ digits n) = some n := by
    intro k
    induction k with
    | zero => exact ofDigitsFrom?_digits n
    | succ k ih =>
      rw [List.replicate_succ, List.cons_append, ofDigitsFrom?]
      exact ih
  exact hzeros _

theorem padded_ne_nil (width n : Nat) : padded width n ≠ [] := by simp [padded, digits_ne_nil]

theorem ofDigits?_padded (width n : Nat) : ofDigits? (padded width n) = some n := by
  have h := ofDigitsFrom?_padded width n
  cases hp : padded width n with
  | nil => exact absurd hp (padded_ne_nil width n)
  | cons c r => rwa [hp] at h

/-- One digit more, behind a text that zeros already pad. -/
theorem padded_concat {width : Nat} (hw : 0 < width) (m : Nat) {d : Nat} (hd : d < 10) :
    padded (width + 1) (10 * m + d) = padded width m ++ [digitChar d] := by
  rcases Nat.eq_zero_or_pos m with rfl | hm
  · have hzero : digits 0 = ['0'] := digits_of_lt (by omega)
    obtain ⟨k, rfl⟩ : ∃ k, width = k + 1 := ⟨width - 1, by omega⟩
    simp only [padded, Nat.mul_zero, Nat.zero_add, digits_of_lt hd, hzero, List.length_singleton,
      Nat.add_sub_cancel, List.append_assoc, List.replicate_succ', List.singleton_append]
  · have hdiv : (10 * m + d) / 10 = m := by omega
    have hmod : (10 * m + d) % 10 = d := by omega
    have hdigits : digits (10 * m + d) = digits m ++ [digitChar d] := by
      rw [digits, if_neg (by omega), hdiv, hmod]
    simp only [padded, hdigits, List.length_append, List.length_singleton, Nat.add_sub_add_right,
      List.append_assoc]

theorem eq_padded_of_ofDigits? {ds : List Char} {n : Nat} (h : ofDigits? ds = some n) :
    ds = padded ds.length n := by
  have hread {ds : List Char} (hds : ds ≠ []) : ofDigits? ds = ofDigitsFrom? 0 ds := by
    cases ds with
    | nil => exact absurd rfl hds
    | cons c rest => rfl
  induction ds using List.reverseRecOn generalizing n with
  | nil => cases h
  | append_singleton rest c ih =>
    rw [hread (by simp), ofDigitsFrom?_concat] at h
    obtain ⟨m, hm, h⟩ := Option.bind_eq_some_iff.1 h
    obtain ⟨d, hd, rfl⟩ := Option.map_eq_some_iff.1 h
    obtain ⟨hlt, rfl⟩ := digitValue?_eq_some hd
    cases rest with
    | nil =>
      obtain rfl := Option.some.inj hm
      simp [padded, digits_of_lt hlt]
    | cons b rest =>
      rw [List.length_append, List.length_singleton, padded_concat (by simp) m hlt, ← ih hm]

theorem isDigit_digitChar {d : Nat} (h : d < 10) : isDigit (digitChar d) = true := by
  rw [isDigit, digitValue?_digitChar h]
  rfl

theorem isDigit_of_mem_digits {n : Nat} {c : Char} (h : c ∈ digits n) : isDigit c = true := by
  obtain ⟨d, hd, rfl⟩ := exists_of_mem_digits h
  exact isDigit_digitChar hd

theorem isDigit_of_mem_padded {width n : Nat} {c : Char} (h : c ∈ padded width n) :
    isDigit c = true := by
  rcases List.mem_append.1 h with h | h
  · rw [List.eq_of_mem_replicate h]
    decide
  · exact isDigit_of_mem_digits h

theorem takeWhile_isDigit_append {ds rest : List Char} (hd : ∀ c ∈ ds, isDigit c = true)
    (hrest : ∀ c ∈ rest.head?, isDigit c = false) : (ds ++ rest).takeWhile isDigit = ds := by
  rw [List.takeWhile_append_of_pos hd]
  cases rest with
  | nil => simp
  | cons c tail => simp [hrest c rfl]

theorem dropWhile_isDigit_append {ds rest : List Char} (hd : ∀ c ∈ ds, isDigit c = true)
    (hrest : ∀ c ∈ rest.head?, isDigit c = false) : (ds ++ rest).dropWhile isDigit = rest := by
  rw [List.dropWhile_append_of_pos hd]
  cases rest with
  | nil => rfl
  | cons c tail => simp [hrest c rfl]

theorem length_digits_le {width n : Nat} (hw : 0 < width) (h : n < tenPow width) :
    (digits n).length ≤ width := by
  induction width generalizing n with
  | zero => omega
  | succ width ih =>
    rw [digits]
    split
    · simp
    · next hn =>
      rw [List.length_append, List.length_singleton]
      rw [tenPow_succ] at h
      cases width with
      | zero =>
        change n < 1 * 10 at h
        omega
      | succ width =>
        have := ih (n := n / 10) (by omega) (by omega)
        omega

theorem length_padded {width n : Nat} (hw : 0 < width) (h : n < tenPow width) :
    (padded width n).length = width := by
  have := length_digits_le hw h
  simp only [padded, List.length_append, List.length_replicate]
  omega

theorem lt_tenPow_digitCount (n : Nat) : n < tenPow (digitCount n) := by
  induction n using Nat.strongRecOn with
  | ind n ih =>
    rw [digitCount, digits]
    split
    · next hn => exact hn
    · next hn =>
      have hlt := ih (n / 10) (by omega)
      rw [digitCount] at hlt
      rw [List.length_append, List.length_singleton, tenPow_succ]
      omega

theorem tenPow_pred_digitCount_le {n : Nat} (h : 0 < n) : tenPow (digitCount n - 1) ≤ n := by
  induction n using Nat.strongRecOn with
  | ind n ih =>
    rw [digitCount, digits]
    split
    · exact h
    · next hn =>
      have hle := ih (n / 10) (by omega) (by omega)
      obtain ⟨k, hk⟩ : ∃ k, digitCount (n / 10) = k + 1 :=
        ⟨digitCount (n / 10) - 1, (Nat.succ_pred (by simp [digitCount, digits_ne_nil])).symm⟩
      rw [hk, Nat.add_sub_cancel] at hle
      rw [digitCount] at hk
      rw [List.length_append, List.length_singleton, Nat.add_sub_cancel, hk, tenPow_succ]
      omega

/-! ### Signs -/

theorem ne_of_isDigit {c d : Char} (hc : isDigit c = true) (hd : isDigit d = false) : c ≠ d := by
  rintro rfl
  rw [hc] at hd
  cases hd

theorem exists_digits (n : Nat) : ∃ c rest, digits n = c :: rest ∧ isDigit c = true := by
  obtain ⟨d, rest, hd, hrest⟩ := digits_cons n
  exact ⟨_, rest, hrest, isDigit_digitChar hd⟩

theorem readInt?_natText (n : Nat) : readInt? (natText n).toList = some (n : Int) := by
  obtain ⟨c, rest, hd, hc⟩ := exists_digits n
  have hminus : c ≠ '-' := ne_of_isDigit hc (by decide)
  have hplus : c ≠ '+' := ne_of_isDigit hc (by decide)
  have hread : readInt? (c :: rest) = (ofDigits? (c :: rest)).map Int.ofNat := by
    unfold readInt?
    split <;> simp_all
  rw [natText, String.toList_ofList, hd, hread, ← hd, ofDigits?_digits]
  rfl

theorem readInt?_intText (i : Int) : readInt? (intText i).toList = some i := by
  unfold intText
  split
  · next hi =>
    have hchars : ("-" ++ natText i.natAbs).toList = '-' :: digits i.natAbs := by
      simp [natText]
    rw [hchars, readInt?, ofDigits?_digits]
    show some (-(i.natAbs : Int)) = some i
    congr 1
    omega
  · next hi =>
    rw [readInt?_natText]
    congr 1
    omega

/-! ### Hexadecimal digits -/

theorem hexValue?_digitChar {n : Nat} (h : n < 16) : hexValue? (digitChar n) = some n := by
  have : n ∈ List.range 16 := List.mem_range.2 h
  revert n
  decide

theorem hexValue?_upperDigitChar {n : Nat} (h : n < 16) : hexValue? (upperDigitChar n) = some n := by
  have : n ∈ List.range 16 := List.mem_range.2 h
  revert n
  decide

theorem exists_of_mem_upperHexText {bytes : List UInt8} {c : Char} (h : c ∈ (upperHexText bytes).toList) :
    ∃ d < 16, c = upperDigitChar d := by
  rw [upperHexText, String.toList_ofList] at h
  obtain ⟨b, -, hb⟩ := List.mem_flatMap.1 h
  have hlt : b.toNat < 256 := b.toNat_lt
  simp only [upperHexByte, List.mem_cons, List.not_mem_nil, or_false] at hb
  rcases hb with rfl | rfl
  · exact ⟨_, by omega, rfl⟩
  · exact ⟨_, Nat.mod_lt _ (by omega), rfl⟩

theorem ofNat_nibbles (b : UInt8) : UInt8.ofNat (16 * (b.toNat / 16) + b.toNat % 16) = b := by
  rw [Nat.div_add_mod, UInt8.ofNat_toNat]

theorem readHex?_upperHexText (bytes : List UInt8) : readHex? (upperHexText bytes).toList = some bytes := by
  rw [upperHexText, String.toList_ofList]
  induction bytes with
  | nil => rfl
  | cons b rest ih =>
    have hb : b.toNat < 256 := b.toNat_lt
    have hhigh : hexValue? (upperDigitChar (b.toNat / 16)) = some (b.toNat / 16) :=
      hexValue?_upperDigitChar (by omega)
    have hlow : hexValue? (upperDigitChar (b.toNat % 16)) = some (b.toNat % 16) :=
      hexValue?_upperDigitChar (by omega)
    have hplus : upperDigitChar (b.toNat / 16) ≠ '+' := by
      intro he
      rw [he] at hhigh
      cases hhigh
    have hbyte : readHexByte? (upperDigitChar (b.toNat / 16)) (upperDigitChar (b.toNat % 16)) = some b := by
      rw [readHexByte?, if_neg hplus, hhigh, hlow]
      exact congrArg some (ofNat_nibbles b)
    rw [List.flatMap_cons]
    show readHex? (upperDigitChar (b.toNat / 16) :: upperDigitChar (b.toNat % 16) ::
      rest.flatMap upperHexByte) = _
    rw [readHex?, hbyte, ih]

end Tsql.Text
