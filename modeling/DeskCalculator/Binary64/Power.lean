/-!
Powers of two and of ten.

* `twoPow`, `tenPow`: the powers.
* `twoPow_add`, `twoPow_le`, `twoPow_lt`, `twoPow_dvd`: how they behave.
* `lt_twoPow_iff`: the binary logarithm says below which power a number lies.
-/

namespace DeskCalculator

/-- The `k`-th power of two. -/
def twoPow (k : Nat) : Nat := Nat.pow 2 k

/-- The `k`-th power of ten. -/
def tenPow (k : Nat) : Nat := Nat.pow 10 k

theorem twoPow_pos (k : Nat) : 0 < twoPow k := Nat.two_pow_pos k

theorem tenPow_pos (k : Nat) : 0 < tenPow k := Nat.pow_pos (by decide)

theorem twoPow_add (a b : Nat) : twoPow (a + b) = twoPow a * twoPow b := Nat.pow_add 2 a b

theorem twoPow_le {a b : Nat} (h : a ≤ b) : twoPow a ≤ twoPow b :=
  Nat.pow_le_pow_right (by decide) h

theorem twoPow_lt {a b : Nat} (h : a < b) : twoPow a < twoPow b :=
  Nat.pow_lt_pow_right (by decide) h

theorem twoPow_dvd {a b : Nat} (h : a ≤ b) : twoPow a ∣ twoPow b := Nat.pow_dvd_pow 2 h

/-- A positive number lies below a power of two when its logarithm lies below the exponent. -/
theorem lt_twoPow_iff {n k : Nat} (h : n ≠ 0) : n < twoPow k ↔ n.log2 < k :=
  (Nat.log2_lt h).symm

/-- A number lies below the power after its logarithm. -/
theorem lt_twoPow_log2_succ (n : Nat) : n < twoPow (n.log2 + 1) := Nat.lt_log2_self

end DeskCalculator
