import Mathlib.Algebra.Order.Field.Power
import Mathlib.Data.Nat.Log
import Mathlib.Tactic.FieldSimp
import Mathlib.Tactic.Linarith
import Mathlib.Tactic.Positivity
import Mathlib.Tactic.Ring
import Tsql.Number.Shortest

/-!
# Rounding to floating-point numbers

A finite number is `m · 2 ^ q` with a canonical `m` and `q`, and its bits say so. The rational numbers that
round to it are those within half a unit of its last place; just below a power of two the unit is half as
wide. Rounding such a rational gives the number back (`Floating.ofRatio_eq`).
-/

namespace Tsql

/-! ### Powers -/

theorem cast_twoPow (n : Nat) : (twoPow n : ℚ) = 2 ^ n := by
  show ((2 ^ n : ℕ) : ℚ) = 2 ^ n
  push_cast
  rfl

theorem cast_tenPow (n : Nat) : (tenPow n : ℚ) = 10 ^ n := by
  show ((10 ^ n : ℕ) : ℚ) = 10 ^ n
  push_cast
  rfl

theorem cast_twoPow_toNat {q : Int} (h : 0 ≤ q) : (twoPow q.toNat : ℚ) = 2 ^ q := by
  rw [cast_twoPow, ← zpow_natCast, Int.toNat_of_nonneg h]

theorem cast_tenPow_toNat {e : Int} (h : 0 ≤ e) : (tenPow e.toNat : ℚ) = 10 ^ e := by
  rw [cast_tenPow, ← zpow_natCast, Int.toNat_of_nonneg h]

theorem twoPow_pos (n : Nat) : 0 < twoPow n := Nat.two_pow_pos n

theorem tenPow_pos (n : Nat) : 0 < tenPow n := Nat.pow_pos (by decide)

/-! ### Natural numbers -/

/-- A rational rounds to a natural: it is at most half a unit away, and less if the natural is odd. -/
def RoundsTo (v : ℚ) (m : Nat) : Prop := if m % 2 = 0 then |v - m| ≤ 1 / 2 else |v - m| < 1 / 2

theorem RoundsTo.abs_le {v : ℚ} {m : Nat} (h : RoundsTo v m) : |v - m| ≤ 1 / 2 := by
  unfold RoundsTo at h
  split at h
  · exact h
  · exact h.le

theorem RoundsTo.abs_lt {v : ℚ} {m : Nat} (h : RoundsTo v m) (hodd : m % 2 = 1) : |v - m| < 1 / 2 := by
  unfold RoundsTo at h
  rwa [if_neg (by omega)] at h

/-- Half a unit in terms of the quotient's parts. -/
theorem RoundsTo.bounds {num den m : Nat} (hden : 0 < den) (h : RoundsTo (num / den) m) :
    2 * (den * m) ≤ 2 * num + den ∧ 2 * num ≤ 2 * (den * m) + den ∧
      (m % 2 = 1 → 2 * (den * m) < 2 * num + den ∧ 2 * num < 2 * (den * m) + den) := by
  have hpos : (0 : ℚ) < den := by exact_mod_cast hden
  have hdiff : (num : ℚ) / den - m = (num - den * m) / den := by field_simp
  have hhalf : ∀ a : ℚ, |a / den| = |a| / den := fun a => by rw [abs_div, abs_of_pos hpos]
  have hle := h.abs_le
  rw [hdiff, hhalf, div_le_div_iff₀ hpos two_pos, one_mul] at hle
  refine ⟨?_, ?_, fun hodd => ?_⟩
  · have hlow : (2 * (den * m) : ℚ) ≤ 2 * num + den := by linarith [neg_abs_le ((num : ℚ) - den * m)]
    exact_mod_cast hlow
  · have hhigh : (2 * num : ℚ) ≤ 2 * (den * m) + den := by linarith [le_abs_self ((num : ℚ) - den * m)]
    exact_mod_cast hhigh
  · have hlt := h.abs_lt hodd
    rw [hdiff, hhalf, div_lt_div_iff₀ hpos two_pos, one_mul] at hlt
    have hlow : (2 * (den * m) : ℚ) < 2 * num + den := by linarith [neg_abs_le ((num : ℚ) - den * m)]
    have hhigh : (2 * num : ℚ) < 2 * (den * m) + den := by linarith [le_abs_self ((num : ℚ) - den * m)]
    exact ⟨by exact_mod_cast hlow, by exact_mod_cast hhigh⟩

theorem roundHalfEven_eq {num den m : Nat} (hden : 0 < den) (h : RoundsTo (num / den) m) :
    roundHalfEven num den = m := by
  obtain ⟨hlow, hhigh, hodd⟩ := h.bounds hden
  have hsplit : den * (num / den) + num % den = num := Nat.div_add_mod num den
  have hrest : num % den < den := Nat.mod_lt _ hden
  unfold roundHalfEven
  dsimp only
  generalize num / den = n, num % den = r at hsplit hrest ⊢
  have hle : n ≤ m := by
    by_contra hlt
    have hstep : den * (m + 1) ≤ den * n := Nat.mul_le_mul_left den (by omega)
    rw [Nat.mul_succ] at hstep
    omega
  have hge : m ≤ n + 1 := by
    by_contra hlt
    have hstep : den * (n + 2) ≤ den * m := Nat.mul_le_mul_left den (by omega)
    rw [Nat.mul_add] at hstep
    omega
  rcases Nat.lt_or_ge n m with hlt | hge'
  · obtain rfl : m = n + 1 := by omega
    rw [Nat.mul_succ] at hlow hhigh hodd
    rw [if_pos (by omega)]
  · obtain rfl : m = n := by omega
    rw [if_neg (by omega)]

/-! ### Powers of two -/

/-- A power of two and a quotient, compared without fractions. -/
theorem twoPow_le_div_iff {num den : Nat} (hden : 0 < den) (e : Int) :
    (if 0 ≤ e then den * twoPow e.toNat ≤ num else den ≤ num * twoPow (-e).toNat) ↔
      (2 : ℚ) ^ e ≤ num / den := by
  have hpos : (0 : ℚ) < den := by exact_mod_cast hden
  rw [le_div_iff₀ hpos]
  split
  · next he =>
    rw [mul_comm, ← cast_twoPow_toNat he]
    exact_mod_cast Iff.rfl
  · next he =>
    have hpower : (0 : ℚ) < 2 ^ (-e) := by positivity
    rw [← mul_le_mul_iff_left₀ hpower, mul_right_comm, ← zpow_add₀ two_ne_zero, add_neg_cancel,
      zpow_zero, one_mul, ← cast_twoPow_toNat (by omega)]
    exact_mod_cast Iff.rfl

theorem floorLog2_spec {num den : Nat} (hnum : 0 < num) (hden : 0 < den) :
    (2 : ℚ) ^ floorLog2 num den ≤ num / den ∧ (num / den : ℚ) < 2 ^ (floorLog2 num den + 1) := by
  have hpos : (0 : ℚ) < den := by exact_mod_cast hden
  have hnumLow : (2 : ℚ) ^ (Nat.log2 num : ℤ) ≤ num := by exact_mod_cast Nat.log2_self_le hnum.ne'
  have hnumHigh : (num : ℚ) < 2 ^ (Nat.log2 num + 1 : ℤ) := by exact_mod_cast Nat.lt_log2_self
  have hdenLow : (2 : ℚ) ^ (Nat.log2 den : ℤ) ≤ den := by exact_mod_cast Nat.log2_self_le hden.ne'
  have hdenHigh : (den : ℚ) < 2 ^ (Nat.log2 den + 1 : ℤ) := by exact_mod_cast Nat.lt_log2_self
  have hreached : _ ↔ (2 : ℚ) ^ ((Nat.log2 num : Int) - Nat.log2 den) ≤ num / den :=
    twoPow_le_div_iff hden ((Nat.log2 num : Int) - Nat.log2 den)
  unfold floorLog2
  dsimp only
  generalize (Nat.log2 num : Int) = a, (Nat.log2 den : Int) = b at *
  have hsum : ∀ c d : Int, (2 : ℚ) ^ (c + d) = 2 ^ c * 2 ^ d := fun c d => zpow_add₀ two_ne_zero c d
  have hlow : (2 : ℚ) ^ (a - b - 1) ≤ num / den := by
    rw [le_div_iff₀ hpos]
    calc (2 : ℚ) ^ (a - b - 1) * den ≤ 2 ^ (a - b - 1) * 2 ^ (b + 1) := by gcongr
      _ = 2 ^ a := by rw [← hsum]; congr 1; omega
      _ ≤ num := hnumLow
  have hhigh : (num / den : ℚ) < 2 ^ (a - b + 1) := by
    rw [div_lt_iff₀ hpos]
    calc (num : ℚ) < 2 ^ (a + 1) := hnumHigh
      _ = 2 ^ (a - b + 1) * 2 ^ b := by rw [← hsum]; congr 1; omega
      _ ≤ 2 ^ (a - b + 1) * den := by gcongr
  by_cases h : (2 : ℚ) ^ (a - b) ≤ num / den
  · rw [if_pos (hreached.2 h)]
    exact ⟨h, hhigh⟩
  · rw [if_neg (mt hreached.1 h)]
    refine ⟨hlow, ?_⟩
    rw [sub_add_cancel]
    exact not_le.1 h

/-- The exponent of a quotient that lies between two neighbouring powers of two. -/
theorem floorLog2_eq {num den : Nat} (hnum : 0 < num) (hden : 0 < den) {e : Int}
    (hlow : (2 : ℚ) ^ e ≤ num / den) (hhigh : (num / den : ℚ) < 2 ^ (e + 1)) : floorLog2 num den = e := by
  obtain ⟨hlow', hhigh'⟩ := floorLog2_spec hnum hden
  have htwo : (1 : ℚ) < 2 := one_lt_two
  have hle := (zpow_lt_zpow_iff_right₀ htwo).1 (hlow.trans_lt hhigh')
  have hge := (zpow_lt_zpow_iff_right₀ htwo).1 (hlow'.trans_lt hhigh)
  omega

/-! ### Canonical parts -/

/-- The parts of the finite numbers: the last place is the least one, or the first bit is set. -/
structure Layout.Canonical (l : Layout) (m : Nat) (q : Int) : Prop where
  least_le : l.leastExponent ≤ q
  lt : m < 2 * twoPow l.fractionBits
  normal : l.leastExponent < q → twoPow l.fractionBits ≤ m
  finite : (q - l.leastExponent).toNat * twoPow l.fractionBits + m ≤ l.topField * twoPow l.fractionBits

theorem Layout.Canonical.cast_lt {l : Layout} {m : Nat} {q : Int} (h : l.Canonical m q) :
    (m : ℚ) + 1 ≤ 2 * 2 ^ l.fractionBits := by
  have hnat := Nat.succ_le_of_lt h.lt
  rw [← cast_twoPow]
  exact_mod_cast hnat

namespace Floating

variable {l : Layout} {negative : Bool} {m : Nat} {q : Int}

/-- Three fields put together, the first of them one bit. -/
theorem fields_eq {n f e : Nat} (h : n < 2 * (f * e)) :
    (if n / (f * e) == 1 then f * e else 0) + (n / f % e * f + n % f) = n := by
  have hsign : n / (f * e) < 2 := Nat.div_lt_of_lt_mul (by rwa [Nat.mul_comm])
  have hrest := Nat.div_add_mod (n / f) e
  have hsplit := Nat.div_add_mod n f
  rw [Nat.div_div_eq_div_mul] at hrest
  rw [← hrest, Nat.mul_add, ← Nat.mul_assoc, Nat.mul_comm f (n / f % e)] at hsplit
  generalize n / (f * e) = sign at hsign hsplit ⊢
  obtain rfl | rfl : sign = 0 ∨ sign = 1 := by omega
  · rw [if_neg (by decide)]
    omega
  · rw [if_pos (by decide)]
    omega

theorem pack_toNat (x : Floating l) : pack l
      (x.bits.toNat / twoPow (l.fractionBits + l.exponentBits) == 1)
      (x.bits.toNat / twoPow l.fractionBits % twoPow l.exponentBits * twoPow l.fractionBits +
        x.bits.toNat % twoPow l.fractionBits) = x := by
  have hsum : twoPow (l.fractionBits + l.exponentBits) = twoPow l.fractionBits * twoPow l.exponentBits :=
    Nat.pow_add 2 _ _
  have hwidth : x.bits.toNat < 2 * (twoPow l.fractionBits * twoPow l.exponentBits) := by
    have hpow : 2 ^ l.width = 2 * twoPow (l.fractionBits + l.exponentBits) := by
      show 2 ^ (1 + l.exponentBits + l.fractionBits) = 2 * 2 ^ (l.fractionBits + l.exponentBits)
      rw [← Nat.pow_succ']
      congr 1
      omega
    rw [← hsum, ← hpow]
    exact x.bits.isLt
  unfold pack
  rw [Nat.add_comm l.exponentBits, hsum, fields_eq hwidth, BitVec.ofNat_toNat, BitVec.setWidth_eq]

/-- A finite number has canonical parts, and its bits put them together. -/
theorem of_shape {x : Floating l} (h : x.shape = .finite negative m q) : l.Canonical m q ∧
    pack l negative ((q - l.leastExponent).toNat * twoPow l.fractionBits + m) = x := by
  have hpack := x.pack_toNat
  have hfraction : x.bits.toNat % twoPow l.fractionBits < twoPow l.fractionBits :=
    Nat.mod_lt _ (twoPow_pos _)
  have hfield : x.bits.toNat / twoPow l.fractionBits % twoPow l.exponentBits < twoPow l.exponentBits :=
    Nat.mod_lt _ (twoPow_pos _)
  unfold shape at h
  dsimp only at h
  generalize x.bits.toNat % twoPow l.fractionBits = fraction at *
  generalize x.bits.toNat / twoPow l.fractionBits % twoPow l.exponentBits = field at *
  split at h
  · split at h <;> cases h
  · next htop =>
    have hbelow : (field + 1) * twoPow l.fractionBits ≤ l.topField * twoPow l.fractionBits :=
      Nat.mul_le_mul_right _ (by unfold Layout.topField at htop ⊢; omega)
    rw [Nat.succ_mul] at hbelow
    split at h
    · next hzero =>
      subst hzero
      cases h
      refine ⟨⟨le_rfl, by omega, fun hlt => absurd hlt (lt_irrefl _), ?_⟩, ?_⟩
      · rw [sub_self]
        simp at hbelow ⊢
        omega
      · rw [sub_self]
        exact hpack
    · next hpos =>
      cases h
      have hplace : (l.leastExponent + (field - 1 : Nat) - l.leastExponent).toNat = field - 1 := by omega
      have hmagnitude : (field - 1) * twoPow l.fractionBits + (twoPow l.fractionBits + fraction) =
          field * twoPow l.fractionBits + fraction := by
        obtain ⟨k, rfl⟩ : ∃ k, field = k + 1 := ⟨field - 1, by omega⟩
        rw [Nat.add_sub_cancel, Nat.succ_mul, Nat.add_assoc]
      refine ⟨⟨by omega, by omega, fun _ => Nat.le_add_right _ _, ?_⟩, ?_⟩
      · rw [hplace, hmagnitude]
        omega
      · rw [hplace, hmagnitude]
        exact hpack

theorem ofRatio_of_roundsTo {num den : Nat} (hnum : 0 < num) (hden : 0 < den)
    (hq : max (floorLog2 num den - l.fractionBits) l.leastExponent = q)
    (h : RoundsTo (num / den / 2 ^ q) m) :
    ofRatio l negative num den = pack l negative (min
      ((q - l.leastExponent).toNat * twoPow l.fractionBits + m) (l.topField * twoPow l.fractionBits)) := by
  have hround : (if 0 ≤ q then roundHalfEven num (den * twoPow q.toNat)
      else roundHalfEven (num * twoPow (-q).toNat) den) = m := by
    split
    · next hpos =>
      refine roundHalfEven_eq (Nat.mul_pos hden (twoPow_pos _)) ?_
      push_cast
      rwa [cast_twoPow_toNat hpos, ← div_div]
    · next hneg =>
      refine roundHalfEven_eq hden ?_
      push_cast
      rwa [cast_twoPow_toNat (by omega), zpow_neg, ← div_eq_mul_inv, div_right_comm]
  unfold ofRatio
  rw [if_neg hnum.ne']
  dsimp only
  rw [hq, hround]

end Floating

/-! ### Intervals -/

def Scaled.value (a : Scaled) : ℚ := a.factor * 2 ^ a.twos * 10 ^ a.tens

def Rounding.Contains (r : Rounding) (v : ℚ) : Prop :=
  if r.closed then r.low.value ≤ v ∧ v ≤ r.high.value else r.low.value < v ∧ v < r.high.value

namespace Rounding

variable {l : Layout} {m : Nat} {q : Int} {v : ℚ}

theorem Contains.low_le {r : Rounding} (h : r.Contains v) : r.low.value ≤ v := by
  unfold Contains at h
  split at h
  · exact h.1
  · exact h.1.le

theorem value_high : (of l m q).high.value = (m + 1 / 2) * 2 ^ q := by
  show ((4 * m + 2 : ℕ) : ℚ) * 2 ^ (q - 2) * 10 ^ (0 : ℤ) = _
  rw [zpow_sub₀ two_ne_zero]
  push_cast
  ring

theorem value_low (hm : 0 < m) : (of l m q).low.value =
    (m - if m = twoPow l.fractionBits ∧ l.leastExponent < q then 1 / 4 else 1 / 2) * 2 ^ q := by
  have hfactor : ∀ d : Nat, d ≤ 2 → ((4 * m - d : ℕ) : ℚ) * 2 ^ (q - 2) * 10 ^ (0 : ℤ) =
      (m - d / 4) * 2 ^ q := by
    intro d hd
    rw [Nat.cast_sub (by omega), zpow_sub₀ two_ne_zero]
    push_cast
    ring
  show ((4 * m - (if _ then 1 else 2) : ℕ) : ℚ) * 2 ^ (q - 2) * 10 ^ (0 : ℤ) = _
  split
  · exact (hfactor 1 (by omega)).trans (by norm_num)
  · exact (hfactor 2 le_rfl).trans (by norm_num)

/-- What an interval contains is at most half a unit away. -/
theorem Contains.roundsTo (hm : 0 < m) (h : (of l m q).Contains v) : RoundsTo (v / 2 ^ q) m := by
  have hpower : (0 : ℚ) < 2 ^ q := by positivity
  have hclosed : (of l m q).closed = decide (m % 2 = 0) := rfl
  have hquarter : (if m = twoPow l.fractionBits ∧ l.leastExponent < q then 1 / 4 else 1 / 2 : ℚ) ≤ 1 / 2 := by
    split <;> norm_num
  unfold Contains at h
  rw [value_high, value_low hm, hclosed] at h
  unfold RoundsTo
  by_cases heven : m % 2 = 0
  · rw [if_pos (decide_eq_true heven), ← le_div_iff₀ hpower, ← div_le_iff₀ hpower] at h
    rw [if_pos heven, abs_le]
    constructor <;> linarith
  · rw [if_neg (by simpa using heven), ← lt_div_iff₀ hpower, ← div_lt_iff₀ hpower] at h
    rw [if_neg heven, abs_lt]
    constructor <;> linarith

end Rounding

namespace Floating

variable {l : Layout} {negative : Bool} {num den m : Nat} {q : Int}

theorem floorLog2_scaled (hnum : 0 < num) (hden : 0 < den) {k : Int} (hlow : 2 ^ k ≤ (num / den / 2 ^ q : ℚ))
    (hhigh : (num / den / 2 ^ q : ℚ) < 2 ^ (k + 1)) : floorLog2 num den = k + q := by
  have hpower : (0 : ℚ) < 2 ^ q := by positivity
  rw [le_div_iff₀ hpower, ← zpow_add₀ two_ne_zero] at hlow
  rw [div_lt_iff₀ hpower, ← zpow_add₀ two_ne_zero, add_right_comm] at hhigh
  exact floorLog2_eq hnum hden hlow hhigh

/-- Just below a power of two the last place is half as wide. The rounding goes up to the power. -/
theorem ofRatio_below_twoPow (hnum : 0 < num) (hden : 0 < den) (hc : l.Canonical m q)
    (hq : l.leastExponent < q) (hm : m = twoPow l.fractionBits)
    (hlow : (m : ℚ) - 1 / 4 ≤ num / den / 2 ^ q) (hhigh : (num / den / 2 ^ q : ℚ) < m) :
    ofRatio l negative num den =
      pack l negative ((q - l.leastExponent).toNat * twoPow l.fractionBits + m) := by
  have hone : (1 : ℚ) ≤ m := by
    rw [hm]
    exact_mod_cast twoPow_pos _
  have hpower : (m : ℚ) = 2 ^ (l.fractionBits : ℤ) := by rw [hm, cast_twoPow, zpow_natCast]
  have hdouble : (num / den / 2 ^ (q - 1) : ℚ) = 2 * (num / den / 2 ^ q) := by
    rw [zpow_sub₀ two_ne_zero, zpow_one]
    field_simp
  have hlog : floorLog2 num den = (l.fractionBits - 1 : ℤ) + q := by
    refine floorLog2_scaled hnum hden ?_ ?_
    · rw [zpow_sub₀ two_ne_zero, zpow_one, ← hpower]
      linarith
    · rwa [sub_add_cancel, ← hpower]
  have hplace : max (floorLog2 num den - l.fractionBits) l.leastExponent = q - 1 := by omega
  have hrounds : RoundsTo (num / den / 2 ^ (q - 1)) (2 * m) := by
    unfold RoundsTo
    rw [if_pos (by omega), hdouble, abs_le]
    push_cast
    constructor <;> linarith
  have hmagnitude : (q - 1 - l.leastExponent).toNat * twoPow l.fractionBits + 2 * m =
      (q - l.leastExponent).toNat * twoPow l.fractionBits + m := by
    obtain ⟨k, hk⟩ : ∃ k : Nat, q - l.leastExponent = k + 1 := ⟨(q - 1 - l.leastExponent).toNat, by omega⟩
    have hbefore : (q - 1 - l.leastExponent).toNat = k := by omega
    have hafter : (q - l.leastExponent).toNat = k + 1 := by omega
    rw [hbefore, hafter, Nat.succ_mul k, ← hm]
    omega
  rw [ofRatio_of_roundsTo hnum hden hplace hrounds, hmagnitude, min_eq_left hc.finite]

/-- A rational in the interval of a number is rounded to this number. -/
theorem ofRatio_eq (hnum : 0 < num) (hden : 0 < den) (hm : 0 < m) (hc : l.Canonical m q)
    (h : (Rounding.of l m q).Contains (num / den)) : ofRatio l negative num den =
      pack l negative ((q - l.leastExponent).toNat * twoPow l.fractionBits + m) := by
  have hpower : (0 : ℚ) < 2 ^ q := by positivity
  have hrounds := h.roundsTo hm
  obtain ⟨hbelow, habove⟩ := abs_le.1 hrounds.abs_le
  have hlt := hc.cast_lt
  rcases le_or_gt ((2 : ℚ) ^ l.fractionBits) (num / den / 2 ^ q) with hge | hbelowPower
  · have hlog : floorLog2 num den = l.fractionBits + q := by
      refine floorLog2_scaled hnum hden (by rwa [zpow_natCast]) ?_
      rw [zpow_add_one₀ two_ne_zero, zpow_natCast]
      linarith
    have hplace : max (floorLog2 num den - l.fractionBits) l.leastExponent = q := by
      have := hc.least_le
      omega
    rw [ofRatio_of_roundsTo hnum hden hplace hrounds, min_eq_left hc.finite]
  · rcases hc.least_le.eq_or_lt with rfl | hq
    · have hlog : floorLog2 num den < l.fractionBits + l.leastExponent := by
        have htwo : (1 : ℚ) < 2 := one_lt_two
        rw [div_lt_iff₀ hpower, ← zpow_natCast, ← zpow_add₀ two_ne_zero] at hbelowPower
        exact (zpow_lt_zpow_iff_right₀ htwo).1 ((floorLog2_spec hnum hden).1.trans_lt hbelowPower)
      have hplace : max (floorLog2 num den - l.fractionBits) l.leastExponent = l.leastExponent := by
        omega
      rw [ofRatio_of_roundsTo hnum hden hplace hrounds, min_eq_left hc.finite]
    · have hm : m = twoPow l.fractionBits := by
        have hle : (m : ℚ) < twoPow l.fractionBits + 1 := by
          rw [cast_twoPow]
          linarith
        exact le_antisymm (Nat.lt_succ_iff.1 (by exact_mod_cast hle)) (hc.normal hq)
      have hlow := h.low_le
      rw [Rounding.value_low ‹0 < m›, if_pos ⟨hm, hq⟩, ← le_div_iff₀ hpower] at hlow
      refine ofRatio_below_twoPow hnum hden hc hq hm hlow ?_
      rwa [hm, cast_twoPow]

end Floating

end Tsql
