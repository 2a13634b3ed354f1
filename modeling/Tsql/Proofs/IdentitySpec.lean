import Mathlib.Algebra.GroupWithZero.Basic
import Mathlib.Tactic.Ring
import Tsql.Model.Basic
import Tsql.Number.Width

/-!
# Numbers of an identity column

`IdentitySpec.nth` is the number of a row by its position, `IdentitySpec.Before` the direction in which
numbers are handed out. Numbers have sixty-four bits: `IdentitySpec.last` is where a direction ends, and
a counter that has come there stays there. `IdentitySpec.Passed` is what a counter can say of the numbers
before it.
-/

namespace Tsql.IdentitySpec

/-- The number that an identity column gives to its k-th row, from zero. -/
def nth (spec : IdentitySpec) (k : Nat) : Int := spec.seed + k * spec.increment

@[simp] theorem nth_zero (spec : IdentitySpec) : spec.nth 0 = spec.seed := by simp [nth]

theorem nth_injective {spec : IdentitySpec} (h : spec.increment ≠ 0) :
    Function.Injective spec.nth := by
  intro a b hab
  have hm : (a : Int) * spec.increment = b * spec.increment := by
    unfold nth at hab
    omega
  exact_mod_cast mul_right_cancel₀ h hm

theorem nth_succ (spec : IdentitySpec) (k : Nat) :
    spec.nth k + spec.increment = spec.nth (k + 1) := by
  unfold nth
  push_cast
  ring

/-- The order in which an identity column hands out its numbers. -/
def Before (spec : IdentitySpec) (a b : Int) : Prop :=
  (0 < spec.increment ∧ a < b) ∨ (spec.increment < 0 ∧ b < a)

instance (spec : IdentitySpec) (a b : Int) : Decidable (spec.Before a b) :=
  inferInstanceAs (Decidable (_ ∨ _))

theorem Before.ne {spec : IdentitySpec} {a b : Int} (h : spec.Before a b) : a ≠ b := by
  unfold Before at h
  omega

/-- The last number of sixty-four bits in the direction of the increment. -/
def last (spec : IdentitySpec) : Int := if spec.increment < 0 then minInt64 else maxInt64

theorem clampInt64_last (spec : IdentitySpec) :
    clampInt64 (spec.last + spec.increment) = spec.last := by
  unfold last clampInt64 minInt64 maxInt64
  split <;> omega

/-- A counter that stands at `next` has passed a number, unless both are the last one. -/
def Passed (spec : IdentitySpec) (next i : Int) : Prop :=
  spec.Before i next ∨ (i = spec.last ∧ next = spec.last)

variable {spec : IdentitySpec} {next i j : Int}

theorem passed_resume (hinc : spec.increment ≠ 0) (hi : fitsInt64 i = true) :
    spec.Passed (clampInt64 (i + spec.increment)) i := by
  obtain ⟨hlow, hhigh⟩ := fitsInt64_iff.1 hi
  unfold Passed Before last clampInt64
  split <;> omega

/-- What was passed by a number is passed by a counter that went on from it. -/
theorem Passed.resume (hi : fitsInt64 i = true) (h : spec.Passed i j) :
    spec.Passed (clampInt64 (i + spec.increment)) j := by
  obtain ⟨hlow, hhigh⟩ := fitsInt64_iff.1 hi
  unfold Passed Before last clampInt64 at *
  split at h <;> split <;> omega

end Tsql.IdentitySpec
