/-!
# Widths of integers

The integers that fit a width: eight bits without sign, or sixteen, thirty-two or sixty-four bits
with sign. `clampInt64` is the nearest integer of sixty-four bits.
-/

namespace Tsql

def fitsByte (i : Int) : Bool := decide (0 ≤ i ∧ i < 256)

/-- The integer fits sixteen bits with sign. -/
def fitsInt16 (i : Int) : Bool := decide (-32768 ≤ i ∧ i < 32768)

/-- The integer fits thirty-two bits with sign. -/
def fitsInt32 (i : Int) : Bool := decide (-2147483648 ≤ i ∧ i < 2147483648)

/-- The greatest number of sixty-four bits with sign. -/
def maxInt64 : Int := 9223372036854775807

/-- The least number of sixty-four bits with sign. -/
def minInt64 : Int := -9223372036854775808

/-- The integer fits sixty-four bits with sign. -/
def fitsInt64 (i : Int) : Bool := decide (minInt64 ≤ i ∧ i ≤ maxInt64)

/-- The nearest number of sixty-four bits with sign. -/
def clampInt64 (i : Int) : Int := max minInt64 (min maxInt64 i)

theorem fitsInt64_iff {i : Int} : fitsInt64 i = true ↔ minInt64 ≤ i ∧ i ≤ maxInt64 := by
  rw [fitsInt64, decide_eq_true_eq]

end Tsql
