import DeskCalculator.Proofs.Decimal.Fewest

/-!
A decimal with few digits is the shortest one of the double that it rounds to.

Rounding moves a number by one part in `2^53` at most, if there are 53 bits. So two decimals that
round to the same double differ by less than a step of the grid of the finer one, if that has no
more than 15 digits, and are the same number.

* `abs_sub_nearest_mul_le`: how far rounding moves a number.
* `Decimal.digits_eq_of_quanta_eq`: decimals that round to the same double are the same number.
* `Decimal.shortest_quanta`: a decimal with few digits, the last of which is not zero, is the
  shortest one.
* `Decimal.leadingExponent_mem`, `Decimal.quanta_mem`: where the leading digit of a decimal from a
  millionth up to `10^21` is, and what it rounds to.
* `Decimal.text_shortest_quanta`: there the shortest one is written out in full.
-/

namespace DeskCalculator

-- the powers are never to be evaluated here
attribute [local irreducible] twoPow tenPow

/-! ### The error of rounding -/

/-- A number of 53 bits or more has at least 52 binary digits before the point. -/
lemma log2_of_twoPow_le_nearest {num den : ℕ} (hden : 0 < den)
    (h : twoPow 53 ≤ nearest num den) : 52 ≤ (num / den).log2 := by
  by_contra hlog
  have hlt : num / den < twoPow 52 :=
    (lt_twoPow_log2_succ _).trans_le (twoPow_le (by omega))
  have hself : nearest (twoPow 52) 1 = twoPow 52 :=
    nearest_self (grain_dvd_of_lt (twoPow_lt (by decide)) (Nat.dvd_refl (twoPow 52)))
  have hle : nearest num den ≤ twoPow 52 := by
    rw [← hself]
    refine nearest_mono hden Nat.one_pos ?_
    rw [Nat.mul_one]
    exact ((Nat.div_lt_iff_lt_mul hden).1 hlt).le
  exact absurd (h.trans hle) (Nat.not_le.2 (twoPow_lt (by decide)))

/-- Rounding moves a number by one part in `2^53` at most. -/
lemma abs_sub_nearest_mul_le {num den : ℕ} (hden : 0 < den) (h : twoPow 53 ≤ nearest num den) :
    |(num / den : ℚ) - nearest num den| * 2 ^ 53 ≤ nearest num den := by
  have hlog := log2_of_twoPow_le_nearest hden h
  have hgrain : (0 : ℚ) < grain (num / den) := by exact_mod_cast grain_pos _
  have hhalf : |(num / den : ℚ) - nearest num den| ≤ 1 / 2 * grain (num / den) := by
    have hround := (abs_sub_roundQuotient_le num (Nat.mul_pos hden (grain_pos (num / den)))).1
    rw [nearest, Nat.cast_mul, ← div_grain_eq num hden, ← sub_mul, abs_mul, abs_of_pos hgrain]
    exact mul_le_mul_of_nonneg_right hround hgrain.le
  have hbits : (grain (num / den) : ℚ) * 2 ^ 52 ≤ nearest num den := by
    have hsplit : grain (num / den) * 2 ^ 52 = twoPow (num / den).log2 := by
      have hpow : twoPow 52 = 2 ^ 52 := by decide +kernel
      rw [grain, ← hpow, ← twoPow_add, Nat.sub_add_cancel hlog]
    have hle : grain (num / den) * 2 ^ 52 ≤ nearest num den :=
      hsplit.trans_le (twoPow_log2_le_nearest hlog)
    exact_mod_cast hle
  calc |(num / den : ℚ) - nearest num den| * 2 ^ 53
      ≤ 1 / 2 * grain (num / den) * 2 ^ 53 := mul_le_mul_of_nonneg_right hhalf (by positivity)
    _ = grain (num / den) * 2 ^ 52 := by ring
    _ ≤ nearest num den := hbits

namespace Decimal

/-! ### Decimals apart -/

/-- What a decimal rounds to differs from it by one part in `2^53` at most. -/
lemma abs_sub_quanta_mul_le {d : Decimal} (h : twoPow 53 ≤ d.quanta) :
    |d.toRat * quantaPerUnit - d.quanta| * 2 ^ 53 ≤ d.quanta := by
  rw [toRat_mul_quantaPerUnit]
  exact abs_sub_nearest_mul_le (tenPow_pos _) h

/-- Two numbers as close as that to a third one, in units of which the one is a small whole number
and the other a whole number, are the same. -/
lemma eq_of_close {a b : ℕ} {u n : ℚ} (hu : 0 < u) (ha : a < 2 ^ 50)
    (han : |a * u - n| * 2 ^ 53 ≤ n) (hbn : |b * u - n| * 2 ^ 53 ≤ n) : a = b := by
  have hclose : |(a : ℚ) * u - b * u| * 2 ^ 52 ≤ n := by
    have htriangle := abs_sub_le (a * u : ℚ) n (b * u)
    rw [abs_sub_comm n] at htriangle
    linarith
  have hsize : n ≤ 2 * (a * u) := by
    have hle := neg_abs_le ((a : ℚ) * u - n)
    linarith [abs_nonneg ((a : ℚ) * u - n)]
  have hstep : |((a : ℤ) - b : ℤ)| < 1 := by
    have hsmall : (a : ℚ) < 2 ^ 50 := by exact_mod_cast ha
    have hcast : |(a : ℚ) - b| * u * 2 ^ 52 ≤ 2 * (a * u) := by
      rw [← sub_mul, abs_mul, abs_of_pos hu] at hclose
      exact hclose.trans hsize
    have hlt : |(a : ℚ) - b| < 1 := by
      by_contra hge
      have hge : u ≤ |(a : ℚ) - b| * u := le_mul_of_one_le_left hu.le (not_lt.1 hge)
      have hau : (a : ℚ) * u < 2 ^ 50 * u := mul_lt_mul_of_pos_right hsmall hu
      linarith
    exact_mod_cast hlt
  have hzero := Int.abs_lt_one_iff.1 hstep
  omega

/-- **Decimals that round to the same double are the same number**, if the one with the finer last
place has few digits. -/
theorem digits_eq_of_quanta_eq {d d' : Decimal} (hfew : d.digits < 2 ^ 50)
    (hle : d.exponent ≤ d'.exponent) (hbits : twoPow 53 ≤ d.quanta) (heq : d'.quanta = d.quanta) :
    d.digits = d'.digits * 10 ^ (d'.exponent - d.exponent).toNat := by
  have hd' : d'.toRat * quantaPerUnit
      = ((d'.digits * 10 ^ (d'.exponent - d.exponent).toNat : ℕ) : ℚ)
        * (10 ^ d.exponent * quantaPerUnit) := by
    have hexponent : d'.exponent = ((d'.exponent - d.exponent).toNat : ℤ) + d.exponent := by omega
    rw [toRat]
    conv_lhs => rw [hexponent]
    rw [zpow_add₀ (by norm_num), zpow_natCast]
    push_cast
    ring
  have hn := abs_sub_quanta_mul_le hbits
  have hn' := abs_sub_quanta_mul_le (heq ▸ hbits)
  rw [heq, hd'] at hn'
  rw [toRat, mul_assoc] at hn
  exact eq_of_close (mul_pos (zpow_pos (by norm_num) _) cast_quantaPerUnit_pos) hfew hn hn'

/-- **A decimal with few digits, the last of which is not zero, is the shortest one of the double
that it rounds to.** -/
theorem shortest_quanta {d : Decimal} (hten : ¬ 10 ∣ d.digits) (hfew : d.digits < 2 ^ 50)
    (hbits : twoPow 53 ≤ d.quanta) (hrange : d.quanta < bound) : shortest d.quanta = d := by
  have hrep : Representable d.quanta := ⟨hrange, grain_nearest_dvd _ _⟩
  have hne : d.quanta ≠ 0 := (lt_of_lt_of_le (twoPow_pos 53) hbits).ne'
  have hle := exponent_le_shortest_of_quanta hrep hne rfl
  have hdigits := digits_eq_of_quanta_eq hfew hle hbits (quanta_shortest hrep.2)
  have hlast : ((shortest d.quanta).exponent - d.exponent).toNat = 0 := by
    by_contra hpos
    refine hten (hdigits ▸ Dvd.dvd.mul_left ?_ _)
    exact dvd_pow_self 10 hpos
  rw [hlast, pow_zero, Nat.mul_one] at hdigits
  have hexponent : (shortest d.quanta).exponent = d.exponent := by omega
  generalize shortest d.quanta = d' at hdigits hexponent
  obtain ⟨digits, exponent⟩ := d
  obtain ⟨digits', exponent'⟩ := d'
  obtain rfl : digits = digits' := hdigits
  obtain rfl : exponent' = exponent := hexponent
  rfl

/-! ### Decimals of a medium size -/

/-- The leading digit of a decimal is at a power of ten that does not exceed it. -/
lemma zpow_leadingExponent_le {d : Decimal} (h : d.digits ≠ 0) :
    (10 : ℚ) ^ d.leadingExponent ≤ d.toRat := by
  have hpos : 0 < (decimalDigits d.digits).length := Nat.length_toDigits_pos
  have hle : (tenPow ((decimalDigits d.digits).length - 1) : ℚ) ≤ d.digits := by
    exact_mod_cast tenPow_le_digits h
  rw [cast_tenPow] at hle
  have hlength : ((decimalDigits d.digits).length : ℤ) - 1
      = ((decimalDigits d.digits).length - 1 : ℕ) := by omega
  rw [leadingExponent, toRat, zpow_add₀ (by norm_num), hlength]
  exact mul_le_mul_of_nonneg_right hle (zpow_nonneg (by norm_num) _)

lemma toRat_lt_zpow (d : Decimal) : d.toRat < (10 : ℚ) ^ (d.leadingExponent + 1) := by
  have hlt : (d.digits : ℚ) < tenPow (decimalDigits d.digits).length := by
    exact_mod_cast d.digits_lt
  rw [cast_tenPow] at hlt
  have hlength : d.leadingExponent + 1 = (decimalDigits d.digits).length + d.exponent := by
    rw [leadingExponent]
    ring
  rw [hlength, toRat, zpow_add₀ (by norm_num)]
  exact mul_lt_mul_of_pos_right hlt (zpow_pos (by norm_num) _)

section Medium

variable {d : Decimal} (hne : d.digits ≠ 0) (hleast : 1 / 10 ^ 6 ≤ d.toRat)
  (hend : d.toRat < 10 ^ 21)

include hne hleast hend

/-- From a millionth up to `10^21` the leading digit of a decimal is where numbers are written out
in full. -/
lemma leadingExponent_mem : -6 ≤ d.leadingExponent ∧ d.leadingExponent < 21 := by
  have hten' : (1 : ℚ) < 10 := by norm_num
  constructor
  · have hlow : (10 : ℚ) ^ (-6 : ℤ) < 10 ^ (d.leadingExponent + 1) := by
      refine lt_of_le_of_lt (le_of_eq_of_le ?_ hleast) d.toRat_lt_zpow
      norm_num
    have := (zpow_lt_zpow_iff_right₀ hten').1 hlow
    omega
  · have hhigh : (10 : ℚ) ^ d.leadingExponent < 10 ^ (21 : ℤ) := by
      refine lt_of_le_of_lt (zpow_leadingExponent_le hne) (lt_of_lt_of_eq hend ?_)
      norm_num
    exact (zpow_lt_zpow_iff_right₀ hten').1 hhigh

lemma quanta_mem : twoPow 53 ≤ d.quanta ∧ d.quanta < bound := by
  obtain ⟨hlow, hhigh⟩ := leadingExponent_mem hne hleast hend
  have hleast : twoPow 53 ≤ (power (-6)).quanta := by decide +kernel
  have hend : (power 21).quanta < bound := by decide +kernel
  exact ⟨hleast.trans (quanta_power_le hne hlow), (quanta_le_power hhigh).trans_lt hend⟩

end Medium

/-- **So a decimal with few digits, the last of which is not zero, is what the double that it rounds
to is written as**, in full. -/
theorem text_shortest_quanta {d : Decimal} (hten : ¬ 10 ∣ d.digits) (hfew : d.digits < 2 ^ 50)
    (hleast : 1 / 10 ^ 6 ≤ d.toRat) (hend : d.toRat < 10 ^ 21) :
    (shortest d.quanta).text = d.positional := by
  have hne : d.digits ≠ 0 := fun h0 => hten (h0 ▸ Nat.dvd_zero 10)
  obtain ⟨hbits, hrange⟩ := quanta_mem hne hleast hend
  obtain ⟨hlow, hhigh⟩ := leadingExponent_mem hne hleast hend
  have hwritten : writtenOut d.leadingExponent = true := by
    rw [writtenOut, Bool.and_eq_true, decide_eq_true_iff, decide_eq_true_iff]
    omega
  rw [shortest_quanta hten hfew hbits hrange, text, if_pos hwritten]

end Decimal

end DeskCalculator
