import Tsql.Proofs.Number.Numerals
import Tsql.Proofs.Number.Rounding

/-!
# Floating-point numbers read back

The shortest decimal of a number lies in the interval of the rationals that round to it, whichever grid it
is found on. So the text of a finite number is read back as the number (`Floating.readFloat?_text`).
-/

namespace Tsql

open Text

/-! ### Comparisons -/

theorem zpow_eq_toNat_mul {b : ℚ} (hb : b ≠ 0) (x y : Int) :
    b ^ x = b ^ (x - y).toNat * b ^ min x y := by
  rw [← zpow_natCast, ← zpow_add₀ hb]
  congr 1
  omega

theorem Scaled.le_iff (a b : Scaled) : a.le b = true ↔ a.value ≤ b.value := by
  have hten : (10 : ℚ) ≠ 0 := by norm_num
  have hpos : (0 : ℚ) < 2 ^ min a.twos b.twos * 10 ^ min a.tens b.tens := by positivity
  have hvalue : ∀ c d : Scaled, c.value = (c.factor * twoPow (c.twos - d.twos).toNat *
      tenPow (c.tens - d.tens).toNat : ℕ) * (2 ^ min c.twos d.twos * 10 ^ min c.tens d.tens) := by
    intro c d
    rw [value, zpow_eq_toNat_mul two_ne_zero c.twos d.twos, zpow_eq_toNat_mul hten c.tens d.tens]
    push_cast
    rw [cast_twoPow, cast_tenPow]
    ring
  rw [hvalue a b, hvalue b a, min_comm b.twos, min_comm b.tens, mul_le_mul_iff_left₀ hpos, Nat.cast_le,
    le, decide_eq_true_iff]

def Scientific.value (x : Scientific) : ℚ := x.digits * 10 ^ x.exponent

theorem Rounding.holds_iff (r : Rounding) (x : Scientific) : r.holds x = true ↔ r.Contains x.value := by
  have hvalue : (⟨x.digits, 0, x.exponent⟩ : Scaled).value = x.value := by
    rw [Scaled.value, zpow_zero, mul_one, Scientific.value]
  have hle : ∀ a b : Scaled, a.le b = false ↔ b.value < a.value := by
    intro a b
    rw [← Bool.not_eq_true, Scaled.le_iff, not_le]
  unfold holds Contains
  dsimp only
  split
  · rw [Bool.and_eq_true, Scaled.le_iff, Scaled.le_iff, hvalue]
  · rw [Bool.and_eq_true, Bool.not_eq_true', Bool.not_eq_true', hle, hle, hvalue]

/-! ### The shortest decimal -/

section

variable {l : Layout} {r : Rounding} {tie : Tie} {m : Nat} {q : Int} {x : Scientific}

theorem holds_of_onGrid? {e : Int} (h : onGrid? tie r m q e = some x) : r.holds x = true := by
  unfold onGrid? at h
  dsimp only at h
  split at h
  next hbelow habove =>
    obtain rfl := Option.some.inj h
    split
    · exact hbelow
    · exact habove
  next hbelow _ =>
    obtain rfl := Option.some.inj h
    exact hbelow
  next _ habove =>
    obtain rfl := Option.some.inj h
    exact habove
  next => cases h

theorem holds_of_firstGrid? {fuel : Nat} {e : Int} (h : firstGrid? tie r m q fuel e = some x) :
    r.holds x = true := by
  induction fuel generalizing e with
  | zero => cases h
  | succ fuel ih =>
    rw [firstGrid?] at h
    split at h
    next y hy =>
      obtain rfl := Option.some.inj h
      exact holds_of_onGrid? hy
    next => exact ih h

theorem exactDecimal_value (m : Nat) (q : Int) : (exactDecimal m q).value = m * 2 ^ q := by
  unfold exactDecimal
  split
  · next hq =>
    show ((m * twoPow q.toNat : ℕ) : ℚ) * 10 ^ (0 : ℤ) = _
    push_cast
    rw [cast_twoPow_toNat hq, mul_one]
  · next hq =>
    have hpower : ((Nat.pow 5 (-q).toNat : ℕ) : ℚ) = 5 ^ (-q) := by
      show ((5 ^ (-q).toNat : ℕ) : ℚ) = _
      push_cast
      rw [← zpow_natCast, Int.toNat_of_nonneg (by omega)]
    have hten : (10 : ℚ) ^ q = 5 ^ q * 2 ^ q := by
      rw [← mul_zpow]
      norm_num
    show ((m * Nat.pow 5 (-q).toNat : ℕ) : ℚ) * 10 ^ q = _
    rw [Nat.cast_mul, hpower, hten, zpow_neg]
    field_simp

theorem contains_exact (hm : 0 < m) : (Rounding.of l m q).Contains (m * 2 ^ q) := by
  have hpower : (0 : ℚ) < 2 ^ q := by positivity
  have hlow : (Rounding.of l m q).low.value < m * 2 ^ q := by
    rw [Rounding.value_low hm]
    gcongr
    split <;> norm_num
  have hhigh : (m * 2 ^ q : ℚ) < (Rounding.of l m q).high.value := by
    rw [Rounding.value_high]
    gcongr
    norm_num
  unfold Rounding.Contains
  split
  · exact ⟨hlow.le, hhigh.le⟩
  · exact ⟨hlow, hhigh⟩

theorem Scientific.stripZeros_value (fuel : Nat) (x : Scientific) : (x.stripZeros fuel).value = x.value := by
  induction fuel generalizing x with
  | zero => rfl
  | succ fuel ih =>
    rw [stripZeros]
    split
    · next h =>
      have hten : (10 : ℚ) ≠ 0 := by norm_num
      have hdigits : x.digits = x.digits / 10 * 10 := by omega
      have hcast : (x.digits : ℚ) = (x.digits / 10 : ℕ) * 10 := by exact_mod_cast hdigits
      rw [ih, value, value, zpow_add_one₀ hten, hcast]
      ring
    · rfl

theorem contains_shortest (tie : Tie) (hm : 0 < m) :
    (Rounding.of l m q).Contains (shortest tie l m q).value := by
  unfold shortest
  rw [if_neg hm.ne']
  dsimp only
  rw [Scientific.stripZeros_value]
  cases hfirst : firstGrid? tie (Rounding.of l m q) m q 18 (floorLog10 m q) with
  | some y =>
    rw [Option.getD_some, ← Rounding.holds_iff]
    exact holds_of_firstGrid? hfirst
  | none =>
    rw [Option.getD_none, exactDecimal_value]
    exact contains_exact hm

end

/-! ### Texts -/

theorem splitSign_of_isDigit {c : Char} (h : isDigit c = true) (rest : List Char) :
    splitSign (c :: rest) = (false, c :: rest) := by
  have hminus : c ≠ '-' := ne_of_isDigit h (by decide)
  have hplus : c ≠ '+' := ne_of_isDigit h (by decide)
  unfold splitSign
  split <;> simp_all

theorem readExponent?_intText (i : Int) : readExponent? (intText i).toList = some i := by
  unfold intText
  split
  · next hi =>
    have hchars : ("-" ++ natText i.natAbs).toList = '-' :: digits i.natAbs := by simp [natText]
    have hvalue : -(i.natAbs : Int) = i := by omega
    rw [hchars, readExponent?, splitSign]
    dsimp only
    rw [ofDigits?_digits]
    exact congrArg some hvalue
  · next hi =>
    obtain ⟨c, rest, hd, hc⟩ := exists_digits i.natAbs
    have hvalue : (i.natAbs : Int) = i := by omega
    rw [natText, String.toList_ofList, hd, readExponent?, splitSign_of_isDigit hc, ← hd]
    dsimp only
    rw [ofDigits?_digits]
    exact congrArg some hvalue

/-- Digits with a point behind the first one and an exponent. -/
theorem readNumeral?_digits {d : Char} {r exponent : List Char} {m : Nat} {e : Int}
    (hd : ∀ c ∈ d :: r, isDigit c = true) (hm : ofDigits? (d :: r) = some m)
    (he : readExponent? exponent = some e) :
    readNumeral? (d :: (if r.isEmpty then [] else '.' :: r) ++ 'E' :: exponent) =
      some (m, digitCount m, e - r.length) := by
  have hfirst : ∀ c ∈ [d], isDigit c = true := fun c hc => hd c (by simp_all)
  have hrest : ∀ c ∈ r, isDigit c = true := fun c hc => hd c (List.mem_cons_of_mem d hc)
  have hend : ∀ c ∈ ('E' :: exponent).head?, isDigit c = false := by
    rintro c hc
    obtain rfl := Option.some.inj hc
    decide
  unfold readNumeral?
  cases r with
  | nil =>
    have hshape : d :: (if ([] : List Char).isEmpty then [] else ['.']) ++ 'E' :: exponent =
        [d] ++ 'E' :: exponent := rfl
    rw [hshape, takeWhile_isDigit_append hfirst hend, dropWhile_isDigit_append hfirst hend]
    simp [he, hm]
  | cons d' r =>
    have hshape : d :: (if (d' :: r).isEmpty then [] else '.' :: d' :: r) ++ 'E' :: exponent =
        [d] ++ '.' :: (d' :: r ++ 'E' :: exponent) := rfl
    have hpoint : ∀ c ∈ ('.' :: (d' :: r ++ 'E' :: exponent)).head?, isDigit c = false := by
      rintro c hc
      obtain rfl := Option.some.inj hc
      decide
    rw [hshape, takeWhile_isDigit_append hfirst hpoint, dropWhile_isDigit_append hfirst hpoint]
    simp only [takeWhile_isDigit_append hrest hend, dropWhile_isDigit_append hrest hend]
    simp [he, hm]

theorem Scientific.readNumeral?_text (y : Scientific) : readNumeral? (y.text .exponential) =
    some (y.digits, digitCount y.digits, y.exponent) := by
  obtain ⟨d, r, hdigits, -⟩ := exists_digits y.digits
  have hall : ∀ c ∈ d :: r, isDigit c = true := fun c hc => isDigit_of_mem_digits (hdigits ▸ hc)
  have hvalue : ofDigits? (d :: r) = some y.digits := by rw [← hdigits, ofDigits?_digits]
  have hexponent : y.leading - r.length = y.exponent := by
    rw [leading, digitCount, hdigits, List.length_cons]
    omega
  rw [text_exponential hdigits, readNumeral?_digits hall hvalue (readExponent?_intText y.leading),
    hexponent]

/-! ### The number of a decimal -/

theorem two_zpow_le_ten_zpow (k : Nat) : (2 : ℚ) ^ (3 * k : ℤ) ≤ 10 ^ (k : ℤ) := by
  rw [zpow_mul, zpow_natCast, zpow_natCast]
  exact pow_le_pow_left₀ (by norm_num) (by norm_num) k

/-- The numbers of the layout lie within the powers of ten that decide a decimal's range. -/
def Layout.Moderate (l : Layout) : Prop :=
  -1200 ≤ l.leastExponent ∧ l.leastExponent + l.topField + l.fractionBits ≤ 1200

theorem Layout.single_moderate : Layout.Moderate .single := by
  unfold Moderate
  decide

theorem Layout.double_moderate : Layout.Moderate .double := by
  unfold Moderate
  decide

/-- Powers of ten around a decimal, by its number of digits. -/
theorem Scientific.value_bounds {y : Scientific} (hy : 0 < y.digits) :
    10 ^ (digitCount y.digits + y.exponent - 1) ≤ y.value ∧
      y.value < 10 ^ (digitCount y.digits + y.exponent) := by
  have hten : (10 : ℚ) ≠ 0 := by norm_num
  have hlow : (tenPow (digitCount y.digits - 1) : ℚ) ≤ y.digits := by
    exact_mod_cast tenPow_pred_digitCount_le hy
  have hhigh : (y.digits : ℚ) < tenPow (digitCount y.digits) := by
    exact_mod_cast lt_tenPow_digitCount y.digits
  have hcount : 1 ≤ digitCount y.digits := by
    rw [digitCount, Nat.one_le_iff_ne_zero]
    simp [digits_ne_nil]
  have hpred : (digitCount y.digits + y.exponent - 1 : ℤ) = (digitCount y.digits - 1 : ℕ) + y.exponent := by
    omega
  rw [hpred, zpow_add₀ hten, zpow_add₀ hten, zpow_natCast, zpow_natCast, ← cast_tenPow, ← cast_tenPow, value]
  constructor <;> gcongr

namespace Floating

variable {l : Layout} {negative : Bool} {m : Nat} {q : Int} {y : Scientific}

/-- The last place of a number is below the greatest one. -/
theorem lt_topField (hm : 0 < m) (hc : l.Canonical m q) : q < l.leastExponent + l.topField := by
  have hplace : (q - l.leastExponent).toNat < l.topField := by
    have hlt : (q - l.leastExponent).toNat * twoPow l.fractionBits < l.topField * twoPow l.fractionBits := by
      have := hc.finite
      omega
    exact Nat.lt_of_mul_lt_mul_right hlt
  have := hc.least_le
  omega

/-- Powers of two around all rationals that round to a number. -/
theorem bounds_of_contains (hm : 0 < m) (hc : l.Canonical m q) {v : ℚ}
    (h : (Rounding.of l m q).Contains v) :
    2 ^ (l.leastExponent - 1) ≤ v ∧ v < 2 ^ (l.leastExponent + l.topField + l.fractionBits) := by
  have hpower : (0 : ℚ) < 2 ^ q := by positivity
  have htwo : (1 : ℚ) ≤ 2 := one_le_two
  obtain ⟨hlow, hhigh⟩ := abs_le.1 (h.roundsTo hm).abs_le
  have hone : (1 : ℚ) ≤ m := by exact_mod_cast hm
  have hlt := hc.cast_lt
  constructor
  · calc (2 : ℚ) ^ (l.leastExponent - 1) ≤ 2 ^ (q - 1) := by
          have := hc.least_le
          exact zpow_le_zpow_right₀ htwo (by omega)
      _ = 1 / 2 * 2 ^ q := by
          rw [zpow_sub₀ two_ne_zero, zpow_one]
          ring
      _ ≤ v := by
          rw [← le_div_iff₀ hpower]
          linarith
  · calc v < 2 ^ (l.fractionBits + 1 : ℤ) * 2 ^ q := by
          rw [← div_lt_iff₀ hpower, zpow_add_one₀ two_ne_zero, zpow_natCast]
          linarith
      _ = 2 ^ (l.fractionBits + 1 + q) := (zpow_add₀ two_ne_zero _ _).symm
      _ ≤ 2 ^ (l.leastExponent + l.topField + l.fractionBits) := by
          have := lt_topField hm hc
          exact zpow_le_zpow_right₀ htwo (by omega)

theorem ofDecimal_eq (hl : l.Moderate) (hm : 0 < m) (hc : l.Canonical m q)
    (h : (Rounding.of l m q).Contains y.value) :
    ofDecimal l negative y.digits (digitCount y.digits) y.exponent =
      pack l negative ((q - l.leastExponent).toNat * twoPow l.fractionBits + m) := by
  obtain ⟨hlow, hhigh⟩ := bounds_of_contains hm hc h
  have hpositive : 0 < y.digits := by
    refine Nat.pos_of_ne_zero fun hzero => ?_
    have hpower : (0 : ℚ) < 2 ^ (l.leastExponent - 1) := by positivity
    rw [Scientific.value, hzero, Nat.cast_zero, zero_mul] at hlow
    exact absurd hlow (not_le.2 hpower)
  obtain ⟨hlow', hhigh'⟩ := Scientific.value_bounds hpositive
  have htwo : (1 : ℚ) ≤ 2 := one_le_two
  have hten : (1 : ℚ) ≤ 10 := by norm_num
  -- no decimal that rounds to a number is so far out of range that its exponent alone decides
  have hgreat : ¬(400 : Int) < digitCount y.digits + y.exponent := by
    intro hlt
    refine lt_irrefl ((2 : ℚ) ^ (1200 : ℤ)) ?_
    calc (2 : ℚ) ^ (1200 : ℤ) ≤ 10 ^ (400 : ℤ) := two_zpow_le_ten_zpow 400
      _ ≤ 10 ^ (digitCount y.digits + y.exponent - 1) := zpow_le_zpow_right₀ hten (by omega)
      _ ≤ y.value := hlow'
      _ < 2 ^ (l.leastExponent + l.topField + l.fractionBits) := hhigh
      _ ≤ 2 ^ (1200 : ℤ) := zpow_le_zpow_right₀ htwo hl.2
  have hsmall : ¬(digitCount y.digits + y.exponent : Int) < -400 := by
    intro hlt
    refine lt_irrefl ((2 : ℚ) ^ (-1203 : ℤ)) ?_
    calc (2 : ℚ) ^ (-1203 : ℤ) ≤ 2 ^ (l.leastExponent - 1) :=
          zpow_le_zpow_right₀ htwo (by have := hl.1; omega)
      _ ≤ y.value := hlow
      _ < 10 ^ (digitCount y.digits + y.exponent) := hhigh'
      _ ≤ 10 ^ (-401 : ℤ) := zpow_le_zpow_right₀ hten (by omega)
      _ ≤ 2 ^ (-1203 : ℤ) := by
          rw [zpow_neg, zpow_neg]
          exact inv_anti₀ (by positivity) (two_zpow_le_ten_zpow 401)
  unfold ofDecimal
  rw [if_neg hpositive.ne', if_neg hgreat, if_neg hsmall]
  split
  · next he =>
    refine ofRatio_eq (Nat.mul_pos hpositive (tenPow_pos _)) Nat.one_pos hm hc ?_
    push_cast
    rwa [cast_tenPow_toNat he, div_one]
  · next he =>
    refine ofRatio_eq hpositive (tenPow_pos _) hm hc ?_
    rwa [cast_tenPow_toNat (by omega), zpow_neg, div_inv_eq_mul]

/-- The shortest decimal of a number stands for its bits, whichever of two equally near ones was taken. -/
theorem ofDecimal_shortest (tie : Tie) (hl : l.Moderate) (hc : l.Canonical m q) :
    ofDecimal l negative (shortest tie l m q).digits (digitCount (shortest tie l m q).digits)
        (shortest tie l m q).exponent =
      pack l negative ((q - l.leastExponent).toNat * twoPow l.fractionBits + m) := by
  rcases Nat.eq_zero_or_pos m with rfl | hm
  · have hplace : q = l.leastExponent := by
      by_contra hne
      have hnormal := hc.normal (lt_of_le_of_ne hc.least_le (Ne.symm hne))
      exact absurd (twoPow_pos l.fractionBits) (by omega)
    rw [hplace, sub_self, Int.toNat_zero, Nat.zero_mul]
    rfl
  · exact ofDecimal_eq hl hm hc (contains_shortest tie hm)

theorem splitSign_text (negative : Bool) (y : Scientific) :
    splitSign ((if negative then ['-'] else []) ++ y.text .exponential) =
      (negative, y.text .exponential) := by
  obtain ⟨d, r, hdigits, hd⟩ := exists_digits y.digits
  rw [Scientific.text_exponential hdigits, List.cons_append]
  cases negative with
  | true => rfl
  | false => exact splitSign_of_isDigit hd _

theorem equalsWord_text {word : String} {c : Char} {rest : List Char} (hword : word.toList = c :: rest)
    (hc : ∀ d < 10, (digitChar d).toLower ≠ c) (y : Scientific) :
    equalsWord word (y.text .exponential) = false := by
  obtain ⟨d, r, hdigits, hd⟩ := exists_digits y.digits
  obtain ⟨k, hk, rfl⟩ := exists_of_mem_digits (hdigits ▸ List.mem_cons_self : d ∈ digits y.digits)
  rw [Scientific.text_exponential hdigits, equalsWord, hword]
  simp [hc k hk]

/-- The text of a finite number is read back as the number. -/
theorem readFloat?_text (hl : l.Moderate) {x : Floating l} (hx : x.isFinite = true) :
    readFloat? l (x.text .exponential).toList = some x := by
  unfold isFinite at hx
  split at hx
  next negative m q hshape =>
    obtain ⟨hc, hpack⟩ := of_shape hshape
    have htext : (x.text .exponential).toList =
        (if negative then ['-'] else []) ++ (shortest FloatStyle.exponential.tie l m q).text .exponential := by
      unfold text
      rw [hshape, String.toList_ofList]
    rw [htext, readFloat?, splitSign_text]
    dsimp only
    rw [equalsWord_text rfl (by decide), equalsWord_text rfl (by decide), equalsWord_text rfl (by decide),
      Scientific.readNumeral?_text]
    exact congrArg some ((ofDecimal_shortest _ hl hc).trans hpack)
  next => cases hx

end Floating

end Tsql
