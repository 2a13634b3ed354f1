/-!
# Powers

Powers of two measure the parts of a machine number, powers of ten the places of its text.
-/

namespace Tsql

def twoPow (n : Nat) : Nat := Nat.pow 2 n

def tenPow (n : Nat) : Nat := Nat.pow 10 n

theorem tenPow_succ (n : Nat) : tenPow (n + 1) = tenPow n * 10 := rfl

end Tsql
