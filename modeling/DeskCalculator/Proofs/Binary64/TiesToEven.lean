import DeskCalculator.Proofs.Binary64.Nearest

/-!
Rounding to the nearest double, with ties to even.

What rounding has to do is said without the way it is done: of all signed counts of quanta with 53
significant bits the result is the nearest to the exact number, and of two that are equally near it
is the one with the even significand.

* `significand`: a count of quanta in units of its spacing.
* `IsNearestEven`: the requirement. At most one count meets it (`IsNearestEven.unique`).
* `roundQuotient_nearest`: rounding to a whole number does so among the whole numbers.
* `grain_dvd_grain_or_lt`: the counts that are no multiples of the spacing at the exact number lie
  below a power of two that is one.
* `isNearestEven_nearest`: so rounding to a double does it.
-/

namespace DeskCalculator

-- the powers are never to be evaluated here
attribute [local irreducible] twoPow

/-! ### The requirement -/

/-- A count of quanta in units of its spacing. -/
def significand (n : ℕ) : ℕ := n / grain n

/-- A signed count of quanta has at most 53 significant bits. -/
def HasPrecision (z : ℤ) : Prop := grain z.natAbs ∣ z.natAbs

/-- A signed count of quanta with 53 significant bits is the nearest to a number: any other such
count is further away, or as far away and has an odd significand while this one has an even
one. -/
structure IsNearestEven (z : ℤ) (q : ℚ) : Prop where
  precision : HasPrecision z
  nearest : ∀ m : ℤ, HasPrecision m → m ≠ z →
    |q - z| < |q - m| ∨
      |q - z| = |q - m| ∧ Even (significand z.natAbs) ∧ ¬ Even (significand m.natAbs)

namespace IsNearestEven

variable {z z' : ℤ} {q : ℚ}

theorem unique (h : IsNearestEven z q) (h' : IsNearestEven z' q) : z = z' := by
  by_contra hne
  rcases h.nearest z' h'.precision (Ne.symm hne) with hlt | ⟨heq, heven, hodd⟩
  · rcases h'.nearest z h.precision hne with hlt' | ⟨heq', -, -⟩
    · exact lt_asymm hlt hlt'
    · exact hlt.ne heq'.symm
  · rcases h'.nearest z h.precision hne with hlt' | ⟨-, heven', -⟩
    · exact hlt'.ne heq.symm
    · exact hodd heven'

lemma neg (h : IsNearestEven z q) : IsNearestEven (-z) (-q) := by
  refine ⟨?_, fun m hm hne => ?_⟩
  · rw [HasPrecision, Int.natAbs_neg]
    exact h.precision
  · have hm' : HasPrecision (-m) := by rwa [HasPrecision, Int.natAbs_neg]
    have hmirror (w : ℤ) : |-q - (w : ℚ)| = |q - ((-w : ℤ) : ℚ)| := by
      rw [← abs_neg]
      push_cast
      congr 1
      ring
    have hnear := h.nearest (-m) hm' fun heq => hne (by rw [← heq, neg_neg])
    rw [hmirror, hmirror, Int.natAbs_neg, neg_neg]
    rwa [Int.natAbs_neg] at hnear

end IsNearestEven

/-! ### Whole numbers -/

/-- Rounding to a whole number moves a quotient by a half at most, and by a half only to an even
number. -/
lemma abs_sub_roundQuotient_le (num : ℕ) {den : ℕ} (hden : 0 < den) :
    |(num / den : ℚ) - roundQuotient num den| ≤ 1 / 2 ∧
      (|(num / den : ℚ) - roundQuotient num den| = 1 / 2 → Even (roundQuotient num den)) := by
  have hden' : (0 : ℚ) < den := by exact_mod_cast hden
  have hsplit : (num / den : ℚ) = (num / den : ℕ) + (num % den : ℕ) / den := by
    rw [div_eq_iff hden'.ne', add_mul, div_mul_cancel₀ _ hden'.ne']
    exact_mod_cast (Nat.div_add_mod' num den).symm
  have hmod := Nat.mod_lt num hden
  rw [hsplit]
  simp only [roundQuotient]
  generalize num / den = f
  generalize num % den = r at hmod ⊢
  have hr : (0 : ℚ) ≤ r / den := by positivity
  split
  case isTrue hlow =>
    have hle : (2 * r : ℚ) ≤ den := by
      have : 2 * r ≤ den := by omega
      exact_mod_cast this
    have habs : |(f : ℚ) + r / den - f| = r / den := by
      rw [add_sub_cancel_left, abs_of_nonneg hr]
    rw [habs]
    refine ⟨?_, fun htie => ?_⟩
    · rw [div_le_iff₀ hden']
      linarith
    · rw [div_eq_iff hden'.ne'] at htie
      have : 2 * r = den := by
        have : (2 * r : ℚ) = den := by linarith
        exact_mod_cast this
      exact Nat.even_iff.2 (by omega)
  case isFalse hhigh =>
    have hge : (den : ℚ) ≤ 2 * r := by
      have : den ≤ 2 * r := by omega
      exact_mod_cast this
    have hlt : (r / den : ℚ) < 1 := by
      rw [div_lt_one hden']
      exact_mod_cast hmod
    have habs : |(f : ℚ) + r / den - ((f + 1 : ℕ) : ℚ)| = 1 - r / den := by
      push_cast
      rw [abs_of_nonpos (by linarith)]
      ring
    rw [habs]
    have hhalf : (1 / 2 : ℚ) ≤ r / den := by
      rw [le_div_iff₀ hden']
      linarith
    refine ⟨by linarith, fun htie => ?_⟩
    have : 2 * r = den := by
      have hr : (r / den : ℚ) = 1 / 2 := by linarith
      rw [div_eq_iff hden'.ne'] at hr
      have : (2 * r : ℚ) = den := by linarith
      exact_mod_cast this
    exact Nat.even_iff.2 (by omega)

/-- The number that a quotient is rounded to is the nearest of all whole numbers, and of two it is
the even one. -/
lemma roundQuotient_nearest (num : ℕ) {den : ℕ} (hden : 0 < den) {j : ℤ}
    (hj : j ≠ roundQuotient num den) :
    |(num / den : ℚ) - roundQuotient num den| < |(num / den : ℚ) - j| ∨
      |(num / den : ℚ) - roundQuotient num den| = |(num / den : ℚ) - j| ∧
        Even (roundQuotient num den) ∧ ¬ Even j := by
  obtain ⟨hle, heven⟩ := abs_sub_roundQuotient_le num hden
  generalize (num / den : ℚ) = r at hle heven ⊢
  generalize roundQuotient num den = k at hj hle heven ⊢
  have hstep : 1 ≤ |(j - k : ℤ)| := Int.one_le_abs (sub_ne_zero.2 hj)
  have hstep' : (1 : ℚ) ≤ |(j : ℚ) - k| := by exact_mod_cast hstep
  have htriangle : |(j : ℚ) - k| ≤ |r - k| + |r - j| := by
    have := abs_sub_le (j : ℚ) r k
    rw [abs_sub_comm (j : ℚ) r] at this
    linarith
  rcases lt_or_ge |r - k| |r - j| with hlt | hge
  · exact Or.inl hlt
  · have htie : |r - k| = 1 / 2 := by linarith
    have htie' : |r - j| = 1 / 2 := by linarith
    have hone : |(j - k : ℤ)| ≤ 1 := by
      have : |(j : ℚ) - k| ≤ 1 := by linarith
      exact_mod_cast this
    refine Or.inr ⟨htie.trans htie'.symm, heven htie, ?_⟩
    have hk := Nat.even_iff.1 (heven htie)
    rw [abs_le] at hone
    rw [Int.not_even_iff]
    omega

/-! ### Counts of quanta -/

/-- The spacing at a count divides that at another one, unless that lies below the power of two
that the count begins with. -/
lemma grain_dvd_grain_or_lt (n m : ℕ) :
    grain n ∣ grain m ∨ 52 ≤ n.log2 ∧ m < twoPow n.log2 := by
  rcases Nat.lt_or_ge m.log2 n.log2 with hlt | hge
  · rcases Nat.lt_or_ge n.log2 52 with hsmall | hlarge
    · exact Or.inl (twoPow_dvd (by omega))
    · exact Or.inr ⟨hlarge, (lt_twoPow_log2_succ m).trans_le (twoPow_le hlt)⟩
  · exact Or.inl (twoPow_dvd (Nat.sub_le_sub_right hge 52))

lemma grain_eq_pow (n : ℕ) : grain n = 2 ^ (n.log2 - 52) := by
  unfold grain twoPow
  rfl

lemma grain_twoPow (k : ℕ) : grain (twoPow (52 + k)) = twoPow k := by
  have hlog : (twoPow (52 + k)).log2 = 52 + k := by
    unfold twoPow
    exact Nat.log2_two_pow
  rw [grain, hlog, Nat.add_sub_cancel_left]

/-- An even multiple of a spacing has an even significand; so has the next power of two, which
comes of a carry. -/
lemma even_significand {n k : ℕ} (hk : k ≤ twoPow 53) (heven : Even k) :
    Even (significand (k * grain n)) := by
  rcases Nat.lt_or_eq_of_le hk with hlt | rfl
  · have hdvd : grain (k * grain n) ∣ grain n := by
      by_cases h0 : k * grain n = 0
      · rw [h0]
        exact twoPow_dvd (by rw [Nat.log2_zero]; omega)
      · have hlog : (k * grain n).log2 < 53 + (n.log2 - 52) := by
          rw [← lt_twoPow_iff h0, twoPow_add]
          exact Nat.mul_lt_mul_of_pos_right hlt (grain_pos n)
        exact twoPow_dvd (by omega)
    rw [significand, Nat.mul_div_assoc _ hdvd]
    exact heven.mul_right _
  · have hcarry : twoPow 53 * grain n = twoPow (52 + (1 + (n.log2 - 52))) := by
      rw [grain, ← twoPow_add]
      congr 1
      omega
    rw [significand, hcarry, grain_twoPow, twoPow_add, Nat.mul_div_cancel _ (twoPow_pos _)]
    decide +kernel

/-- An odd multiple of a spacing has an odd significand, if the spacing is no finer there: a
power of two that divides it is one. -/
lemma odd_significand {n j : ℕ} (hgrain : grain n ∣ grain (j * grain n))
    (hprecision : grain (j * grain n) ∣ j * grain n) (hodd : ¬ Even j) :
    ¬ Even (significand (j * grain n)) := by
  obtain ⟨c, hc⟩ := hgrain
  have hcj : c ∣ j := by
    rw [hc, Nat.mul_comm j] at hprecision
    exact Nat.dvd_of_mul_dvd_mul_left (grain_pos n) hprecision
  have hcodd : Odd c := (Nat.not_even_iff_odd.1 hodd).of_dvd_nat hcj
  have hcpow : c ∣ 2 ^ ((j * grain n).log2 - 52) := by
    rw [← grain_eq_pow, hc]
    exact Nat.dvd_mul_left c _
  have hcoprime := Nat.Coprime.pow_right ((j * grain n).log2 - 52) (Nat.coprime_two_right.2 hcodd)
  obtain rfl : c = 1 := hcoprime.eq_one_of_dvd hcpow
  rwa [significand, hc, Nat.mul_one, Nat.mul_div_cancel _ (grain_pos n)]

/-! ### Rounding -/

section Rounding

variable (num : ℕ) {den : ℕ}

lemma div_grain_eq (hden : 0 < den) :
    (num / (den * grain (num / den) : ℕ) : ℚ) * grain (num / den) = num / den := by
  have hgrain : (grain (num / den) : ℚ) ≠ 0 := by exact_mod_cast (grain_pos _).ne'
  have hden' : (den : ℚ) ≠ 0 := by exact_mod_cast hden.ne'
  push_cast
  field_simp

/-- Of the multiples of the spacing the result is the nearest one, and of two it is the even
one. -/
lemma nearest_of_multiple (hden : 0 < den) {j : ℤ}
    (hj : j ≠ roundQuotient num (den * grain (num / den))) :
    |(num / den : ℚ) - nearest num den| < |(num / den : ℚ) - j * grain (num / den)| ∨
      |(num / den : ℚ) - nearest num den| = |(num / den : ℚ) - j * grain (num / den)| ∧
        Even (roundQuotient num (den * grain (num / den))) ∧ ¬ Even j := by
  have hgrain : (0 : ℚ) < grain (num / den) := by exact_mod_cast grain_pos _
  have hscale (k : ℚ) : |(num / den : ℚ) - k * grain (num / den)|
      = |(num / (den * grain (num / den) : ℕ) : ℚ) - k| * grain (num / den) := by
    rw [← div_grain_eq num hden, ← sub_mul, abs_mul, abs_of_pos hgrain]
  have hnear := roundQuotient_nearest num (Nat.mul_pos hden (grain_pos _)) hj
  rw [nearest, Nat.cast_mul, hscale, hscale, mul_lt_mul_iff_left₀ hgrain, mul_left_inj' hgrain.ne']
  exact hnear

lemma abs_sub_nearest_le (hden : 0 < den) (j : ℤ) :
    |(num / den : ℚ) - nearest num den| ≤ |(num / den : ℚ) - j * grain (num / den)| := by
  by_cases hj : j = roundQuotient num (den * grain (num / den))
  · rw [hj, nearest, Nat.cast_mul, Int.cast_natCast]
  · rcases nearest_of_multiple num hden hj with hlt | ⟨heq, -⟩
    · exact hlt.le
    · exact heq.le

lemma abs_sub_nearest_lt_of_neg (hden : 0 < den) {q : ℚ} (hq : q < 0) :
    |(num / den : ℚ) - nearest num den| < |(num / den : ℚ) - q| := by
  have hpos : (0 : ℚ) ≤ num / den := by positivity
  have hzero := abs_sub_nearest_le num hden 0
  rw [Int.cast_zero, zero_mul, sub_zero, abs_of_nonneg hpos] at hzero
  refine hzero.trans_lt ?_
  rw [abs_of_pos (by linarith)]
  linarith

/-- A number below the power of two that the exact number begins with is further away than that
power is, which is a multiple of the spacing. -/
lemma abs_sub_nearest_lt_of_lt (hden : 0 < den) (hlog : 52 ≤ (num / den).log2) {q : ℚ}
    (hq : q < twoPow (num / den).log2) :
    |(num / den : ℚ) - nearest num den| < |(num / den : ℚ) - q| := by
  have hne : num / den ≠ 0 := by
    intro h0
    rw [h0, Nat.log2_zero] at hlog
    omega
  have hmultiple : twoPow (num / den).log2 = twoPow 52 * grain (num / den) := by
    rw [grain, ← twoPow_add]
    congr 1
    omega
  have hbegin : (twoPow (num / den).log2 : ℚ) ≤ num / den := by
    have hself : twoPow (num / den).log2 ≤ num / den := by
      unfold twoPow
      exact Nat.log2_self_le hne
    exact (Nat.cast_le.2 hself).trans Nat.cast_div_le
  have hnear := abs_sub_nearest_le num hden (twoPow 52)
  rw [Int.cast_natCast, ← Nat.cast_mul, ← hmultiple, abs_of_nonneg (sub_nonneg.2 hbegin)] at hnear
  refine hnear.trans_lt ?_
  rw [abs_of_pos (sub_pos.2 (hq.trans_le hbegin))]
  linarith

/-- **Rounding to a double does what is required**: among the multiples of the spacing at the
exact number it is the rounding of whole numbers, and all other counts are further away. -/
theorem isNearestEven_nearest (hden : 0 < den) :
    IsNearestEven (nearest num den : ℕ) (num / den) := by
  refine ⟨grain_nearest_dvd num den, fun m hm hne => ?_⟩
  rw [Int.cast_natCast]
  rcases lt_or_ge m 0 with hneg | hpos
  · exact Or.inl (abs_sub_nearest_lt_of_neg num hden (Int.cast_lt_zero.2 hneg))
  obtain ⟨m, rfl⟩ := Int.eq_ofNat_of_zero_le hpos
  rw [Int.cast_natCast, Int.natAbs_natCast, Int.natAbs_natCast]
  rw [HasPrecision, Int.natAbs_natCast] at hm
  rcases grain_dvd_grain_or_lt (num / den) m with hdvd | ⟨hlog, hlt⟩
  · obtain ⟨j, rfl⟩ := hdvd.trans hm
    rw [Nat.mul_comm] at hdvd hm hne ⊢
    have hj : (j : ℤ) ≠ roundQuotient num (den * grain (num / den)) := by
      intro heq
      rw [nearest, Nat.cast_inj.1 heq] at hne
      exact hne rfl
    rw [Nat.cast_mul]
    rcases nearest_of_multiple num hden hj with hlt | ⟨heq, heven, hodd⟩
    · exact Or.inl hlt
    · rw [Int.even_coe_nat] at hodd
      exact Or.inr ⟨heq, even_significand (roundQuotient_grain_le num den) heven,
        odd_significand hdvd hm hodd⟩
  · exact Or.inl (abs_sub_nearest_lt_of_lt num hden hlog (Nat.cast_lt.2 hlt))

end Rounding

end DeskCalculator
