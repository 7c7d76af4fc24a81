import DeskCalculator.Proofs.Binary64.TiesToEven
import DeskCalculator.Proofs.Decimal.Digits
import DeskCalculator.Proofs.Decimal.Shortest

/-!
The shortest decimal of a double has the fewest digits.

* `Decimal.toRat`: the number that a decimal is. `Decimal.isNearestEven_quanta`: what it rounds to
  is nearest to that, so it depends on the number alone (`Decimal.quanta_eq_of_toRat_eq`).
* `Decimal.exponent_shortest_mem`: where the last places of doubles are.
* `Decimal.not_ten_dvd_digits_shortest`: a shortest decimal does not end in a zero, as it would
  have a point on the next coarser grid.
* `Decimal.length_shortest_le`: no decimal that rounds to a double has fewer digits. One with as
  great a leading digit has no coarser last place, and if the leading digit is at a lower place the
  double is nearest to a power of ten.
-/

namespace DeskCalculator

-- the powers are never to be evaluated here
attribute [local irreducible] twoPow tenPow

namespace Decimal

/-! ### The number that a decimal is -/

/-- The number that a decimal is. -/
def toRat (d : Decimal) : ℚ := d.digits * 10 ^ d.exponent

lemma cast_tenPow (k : ℕ) : (tenPow k : ℚ) = 10 ^ (k : ℤ) := by
  have h : tenPow k = 10 ^ k := by
    unfold tenPow
    rfl
  rw [h, zpow_natCast]
  push_cast
  rfl

lemma toRat_mul_quantaPerUnit (d : Decimal) :
    d.toRat * quantaPerUnit
      = ((d.digits * tenPow d.exponent.toNat * quantaPerUnit : ℕ) : ℚ)
        / (tenPow (-d.exponent).toNat : ℕ) := by
  have hexponent : d.exponent = (d.exponent.toNat : ℤ) - ((-d.exponent).toNat : ℤ) := by omega
  rw [toRat]
  conv_lhs => rw [hexponent]
  rw [zpow_sub₀ (by norm_num), Nat.cast_mul, Nat.cast_mul, cast_tenPow, cast_tenPow]
  ring

/-- What a decimal rounds to is nearest to the number that it is. -/
lemma isNearestEven_quanta (d : Decimal) :
    IsNearestEven (d.quanta : ℕ) (d.toRat * quantaPerUnit) := by
  rw [toRat_mul_quantaPerUnit]
  exact isNearestEven_nearest _ (tenPow_pos _)

lemma quanta_eq_of_toRat_eq {d d' : Decimal} (h : d.toRat = d'.toRat) : d.quanta = d'.quanta :=
  Nat.cast_injective (d.isNearestEven_quanta.unique (h ▸ d'.isNearestEven_quanta))

/-! ### The last place -/

section Shortest

variable {n : ℕ}

lemma exponent_shortest_mem (h : Representable n) (hne : n ≠ 0) :
    -(finestPlace : ℤ) ≤ (shortest n).exponent ∧ (shortest n).exponent ≤ 308 := by
  obtain ⟨digits, grid, hshortest, -⟩ := exists_shortest h.2
  have hlead := (leadingExponent_shortest_mem h hne).2
  have hpos : 0 < (decimalDigits (shortest n).digits).length := Nat.length_toDigits_pos
  rw [leadingExponent] at hlead
  refine ⟨?_, by omega⟩
  rw [hshortest]
  change -(finestPlace : ℤ) ≤ (grid : ℤ) - finestPlace
  omega

/-- No decimal that rounds to a double has a coarser last place than its shortest one. -/
lemma exponent_le_shortest_of_quanta (h : Representable n) (hne : n ≠ 0) {d : Decimal}
    (hd : d.quanta = n) : d.exponent ≤ (shortest n).exponent := by
  have hmem := exponent_shortest_mem h hne
  rcases lt_or_ge d.exponent (-finestPlace) with hfine | hfinest
  · omega
  rcases le_or_gt d.exponent 308 with hcoarsest | hcoarse
  · exact exponent_le_shortest h.2 hd hfinest (hcoarsest.trans (by decide))
  · have hdigits : d.digits ≠ 0 := fun h0 => hne (by rw [← hd, quanta_of_digits_eq_zero h0])
    have hlead : 309 ≤ d.leadingExponent := by
      have hpos : 0 < (decimalDigits d.digits).length := Nat.length_toDigits_pos
      rw [leadingExponent]
      omega
    have hgreat : bound ≤ (power 309).quanta := by decide +kernel
    have hle := quanta_power_le hdigits hlead
    have hlt := h.1
    omega

/-- A shortest decimal does not end in a zero. -/
lemma not_ten_dvd_digits_shortest (h : Representable n) (hne : n ≠ 0) :
    ¬ 10 ∣ (shortest n).digits := by
  rintro ⟨m, hm⟩
  have hrat : (⟨m, (shortest n).exponent + 1⟩ : Decimal).toRat = (shortest n).toRat := by
    rw [toRat, toRat, hm, zpow_add_one₀ (by norm_num)]
    push_cast
    ring
  have hle := exponent_le_shortest_of_quanta h hne
    ((quanta_eq_of_toRat_eq hrat).trans (quanta_shortest h.2))
  exact absurd hle (by simp)

/-! ### The digits -/

/-- **No decimal that rounds to a double has fewer digits than its shortest one.** -/
theorem length_shortest_le (h : Representable n) (hne : n ≠ 0) {d : Decimal} (hd : d.quanta = n) :
    (decimalDigits (shortest n).digits).length ≤ (decimalDigits d.digits).length := by
  have hpos : 0 < (decimalDigits d.digits).length := Nat.length_toDigits_pos
  rcases le_or_gt (shortest n).leadingExponent d.leadingExponent with hle | hlt
  · have hlast := exponent_le_shortest_of_quanta h hne hd
    rw [leadingExponent, leadingExponent] at hle
    omega
  · -- the power of ten between the two is rounded to the double, too
    have hpower : (power (shortest n).leadingExponent).quanta = n := by
      refine le_antisymm ?_ ?_
      · have hquanta := quanta_power_le (digits_shortest_ne_zero h.2 hne) le_rfl
        rwa [quanta_shortest h.2] at hquanta
      · have hquanta := quanta_le_power hlt
        rwa [hd] at hquanta
    have hlast := exponent_le_shortest_of_quanta h hne hpower
    rw [power, leadingExponent] at hlast
    dsimp only at hlast
    omega

end Shortest

end Decimal

end DeskCalculator
