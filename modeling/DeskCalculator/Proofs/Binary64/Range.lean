import DeskCalculator.Proofs.Binary64.TiesToEven
import DeskCalculator.Proofs.Binary64.Whole

/-!
Which results are in range.

A magnitude is rounded out of range from the middle between the greatest double and the bound on:
there both are equally near, and the bound has the even significand.

* `nearest_lt_of_lt_middle`: what lies below the middle of a double and a greater number is rounded
  to less than that number.
* `overflowLimit`, `bound_le_nearest_iff`: the middle, and what is rounded out of range.
* `Binary64.toRat`: the number that a finite double is.
* `Binary64.isFinite_mul_iff`: a product is finite exactly if the exact one is below the middle.
* `Binary64.isFinite_div`, `Binary64.isFinite_sqrt`: a quotient by a number that is one or more is
  finite, and so is every square root.
-/

namespace DeskCalculator

-- the powers are never to be evaluated here
attribute [local irreducible] twoPow

/-! ### The end of the range -/

/-- What lies below the middle of a count with 53 significant bits and a greater number is rounded
to less than that number: the count is nearer. -/
lemma nearest_lt_of_lt_middle {m z num den : ℕ} (hden : 0 < den) (hm : grain m ∣ m) (hlt : m < z)
    (h : 2 * num < (m + z) * den) : nearest num den < z := by
  by_contra hge
  have hden' : (0 : ℚ) < den := by exact_mod_cast hden
  have hmz : (m : ℚ) < z := by exact_mod_cast hlt
  have hz : (z : ℚ) ≤ nearest num den := by exact_mod_cast Nat.not_lt.1 hge
  have hmiddle : 2 * (num / den : ℚ) < m + z := by
    rw [← mul_div_assoc, div_lt_iff₀ hden']
    exact_mod_cast h
  have hle : |(num / den : ℚ) - nearest num den| ≤ |(num / den : ℚ) - m| := by
    have hne : (m : ℤ) ≠ (nearest num den : ℕ) := by omega
    have hprecision : HasPrecision m := by rwa [HasPrecision, Int.natAbs_natCast]
    have hnear := (isNearestEven_nearest num hden).nearest m hprecision hne
    rw [Int.cast_natCast, Int.cast_natCast] at hnear
    rcases hnear with hnear | ⟨hnear, -⟩
    · exact hnear.le
    · exact hnear.le
  have hfar : (z : ℚ) - num / den ≤ |(num / den : ℚ) - nearest num den| := by
    rw [abs_sub_comm]
    exact (sub_le_sub_right hz _).trans (le_abs_self _)
  have hclose : |(num / den : ℚ) - m| < z - num / den := by
    rw [abs_lt]
    constructor <;> linarith
  linarith

/-- The greatest double, in quanta. -/
def greatest : ℕ := bound - twoPow 2045

/-- The middle between the greatest double and the bound. -/
def overflowLimit : ℕ := bound - twoPow 2044

/-- A quotient is rounded out of range exactly if it is not below that middle. -/
theorem bound_le_nearest_iff {num den : ℕ} (hden : 0 < den) :
    bound ≤ nearest num den ↔ overflowLimit * den ≤ num := by
  constructor
  · intro hbound
    by_contra hlt
    have hgreatest : grain greatest ∣ greatest := by decide +kernel
    have hmiddle : greatest + bound = 2 * overflowLimit := by decide +kernel
    refine absurd (nearest_lt_of_lt_middle hden hgreatest (by decide +kernel) ?_)
      (Nat.not_lt.2 hbound)
    rw [hmiddle, Nat.mul_assoc]
    omega
  · intro hle
    have heven : nearest overflowLimit 1 = bound := by decide +kernel
    rw [← heven]
    exact nearest_mono Nat.one_pos hden (by rwa [Nat.mul_one])

namespace Binary64

/-! ### Finite results -/

/-- The number that a finite double is. -/
def toRat : Binary64 → ℚ
  | finite s n _ => signedQuanta s n / quantaPerUnit
  | _ => 0

lemma abs_toRat (x : Binary64) : |x.toRat| = x.magnitude / quantaPerUnit := by
  cases x with
  | infinite s => simp [toRat, magnitude]
  | nan => simp [toRat, magnitude]
  | finite s n h =>
      have habs : |((signedQuanta s n : ℤ) : ℚ)| = n := by
        rw [← Int.cast_abs, Int.abs_eq_natAbs, natAbs_signedQuanta, Int.cast_natCast]
      rw [toRat, abs_div, habs, Nat.abs_cast, magnitude]

/-- A finite double is below zero when the number that it stands for is. -/
lemma isBelowZero_iff {x : Binary64} (hx : x.isFinite = true) :
    x.isBelowZero = true ↔ x.toRat < 0 := by
  obtain ⟨s, n, h, rfl⟩ := exists_finite hx
  rw [toRat, div_lt_iff₀ cast_quantaPerUnit_pos, zero_mul, Int.cast_lt_zero, isBelowZero]
  cases s <;> simp [signedQuanta, Nat.pos_iff_ne_zero]

lemma isZero_iff {x : Binary64} (hx : x.isFinite = true) : x.isZero = true ↔ x.toRat = 0 := by
  obtain ⟨s, n, h, rfl⟩ := exists_finite hx
  rw [toRat, div_eq_zero_iff, or_iff_left cast_quantaPerUnit_pos.ne', Int.cast_eq_zero, isZero,
    beq_iff_eq]
  cases s <;> simp [signedQuanta]

/-- A quotient is rounded to a finite double when it is rounded in range. -/
lemma isFinite_ofQuotient_iff {s : Bool} {num den : ℕ} :
    (ofQuotient s num den).isFinite = true ↔ nearest num den < bound := by
  rw [ofQuotient]
  split
  case isTrue h => exact ⟨fun _ => h, fun _ => rfl⟩
  case isFalse h => exact ⟨fun hfinite => Bool.noConfusion hfinite, fun hlt => absurd hlt h⟩

lemma cast_overflowLimit : (overflowLimit : ℚ) = (2 ^ 1024 - 2 ^ 970) * quantaPerUnit := by
  have hnat : overflowLimit + 2 ^ 970 * quantaPerUnit = 2 ^ 1024 * quantaPerUnit := by
    decide +kernel
  have hcast := congrArg (Nat.cast (R := ℚ)) hnat
  rwa [Nat.cast_add, Nat.cast_mul, Nat.cast_mul, Nat.cast_pow, Nat.cast_pow, Nat.cast_ofNat,
    ← eq_sub_iff_add_eq, ← sub_mul] at hcast

/-- **A product of doubles is finite exactly if the exact product is below the middle between the
greatest double and the next power of two.** -/
theorem isFinite_mul_iff {x y : Binary64} (hx : x.isFinite = true) (hy : y.isFinite = true) :
    (x * y).isFinite = true ↔ |x.toRat * y.toRat| < 2 ^ 1024 - 2 ^ 970 := by
  obtain ⟨s, m, hm, rfl⟩ := exists_finite hx
  obtain ⟨t, n, hn, rfl⟩ := exists_finite hy
  have hunit := mul_pos cast_quantaPerUnit_pos cast_quantaPerUnit_pos
  change (ofQuotient (s ^^ t) (m * n) quantaPerUnit).isFinite = true ↔ _
  rw [isFinite_ofQuotient_iff, ← Nat.not_le, bound_le_nearest_iff quantaPerUnit_pos, Nat.not_le,
    abs_mul, abs_toRat, abs_toRat, div_mul_div_comm, div_lt_iff₀ hunit, ← mul_assoc,
    ← cast_overflowLimit, magnitude, magnitude, ← Nat.cast_mul, ← Nat.cast_mul, Nat.cast_lt]

/-- A quotient by a number that is one or more is finite. -/
lemma isFinite_div {x y : Binary64} (hx : x.isFinite = true) (hy : y.isFinite = true)
    (hone : quantaPerUnit ≤ y.magnitude) : (x / y).isFinite = true := by
  obtain ⟨s, m, hm, rfl⟩ := exists_finite hx
  obtain ⟨t, n, hn, rfl⟩ := exists_finite hy
  have hpos : 0 < n := quantaPerUnit_pos.trans_le hone
  change (div _ _).isFinite = true
  simp only [div, if_neg hpos.ne']
  refine isFinite_ofQuotient_iff.2 (lt_of_le_of_lt ?_ hm.1)
  calc nearest (m * quantaPerUnit) n ≤ nearest m 1 := by
        refine nearest_mono hpos Nat.one_pos ?_
        rw [Nat.mul_one]
        exact Nat.mul_le_mul_left m hone
    _ = m := nearest_self hm.2

lemma isZero_sqrt {x : Binary64} (h : x.isZero = true) : x.sqrt.isZero = true := by
  cases x with
  | infinite s => cases h
  | nan => cases h
  | finite s n hn =>
      rw [sqrt, if_pos (beq_iff_eq.1 h)]
      rfl

/-- The square root of a magnitude, for which its quanta are multiplied by those in a unit, is far
from the bound. -/
lemma floorSqrt_lt {n : ℕ} (h : n < bound) : floorSqrt (n * quantaPerUnit) < twoPow 1600 := by
  by_contra hge
  have hsquare := Nat.mul_le_mul (Nat.not_lt.1 hge) (Nat.not_lt.1 hge)
  have hless : bound * quantaPerUnit < twoPow 1600 * twoPow 1600 := by decide +kernel
  have hlt : n * quantaPerUnit < bound * quantaPerUnit :=
    Nat.mul_lt_mul_of_pos_right h quantaPerUnit_pos
  have hle := (floorSqrt_bounds (n * quantaPerUnit)).1
  omega

/-- A square root is finite: it has about half as many bits. -/
lemma isFinite_sqrt {x : Binary64} (hx : x.isFinite = true) (h : x.isBelowZero = false) :
    x.sqrt.isFinite = true := by
  obtain ⟨s, n, hn, rfl⟩ := exists_finite hx
  by_cases h0 : n = 0
  · rw [sqrt, if_pos h0]
    rfl
  · have hs : s = false := by simpa [isBelowZero, h0] using h
    have hroot := floorSqrt_lt hn.1
    have hbound : 2 * twoPow 1600 + 1 < bound := by decide +kernel
    have hsticky : stickySqrt (n * quantaPerUnit) / 2 ≤ floorSqrt (n * quantaPerUnit) := by
      simp only [stickySqrt]
      split <;> omega
    rw [sqrt, if_neg h0, hs, if_neg Bool.false_ne_true]
    exact (ofQuotient_of_lt false (by omega)).1

end Binary64

end DeskCalculator
