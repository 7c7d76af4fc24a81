import Mathlib.Tactic
import DeskCalculator.Binary64.Arithmetic

/-!
What rounding to the nearest double does.

* `nearest_mul`: it does not depend on how a quotient is written.
* `nearest_eq_of_close`: a count of quanta with 53 significant bits is the nearest one for
  what exceeds it by less than half a quantum; in particular for itself.
* `nearest_mono`: a greater quotient is rounded to no less.
* `nearest_le`: what is rounded at most doubles, up to one quantum; so a sum of
  doubles far from the bound is finite (`Binary64.isFinite_add`).
-/

namespace DeskCalculator

/-! ### Whole numbers -/

/-- Rounding to a whole number does not depend on how a quotient is written. -/
lemma roundQuotient_mul (num den : ℕ) {c : ℕ} (hc : 0 < c) :
    roundQuotient (num * c) (den * c) = roundQuotient num den := by
  have hlt : 2 * (num % den * c) < den * c ↔ 2 * (num % den) < den := by
    rw [← Nat.mul_assoc, Nat.mul_lt_mul_right hc]
  have heq : 2 * (num % den * c) = den * c ↔ 2 * (num % den) = den := by
    rw [← Nat.mul_assoc, Nat.mul_left_inj hc.ne']
  simp only [roundQuotient, Nat.mul_div_mul_right _ _ hc, Nat.mul_mod_mul_right, hlt, heq]

/-- A whole number and less than a half are rounded to the whole number. -/
lemma roundQuotient_of_lt {q r den : ℕ} (h : 2 * r < den) :
    roundQuotient (den * q + r) den = q := by
  have hr : r < den := by omega
  have hdiv : (den * q + r) / den = q := by
    rw [Nat.mul_add_div (by omega), Nat.div_eq_of_lt hr, Nat.add_zero]
  have hmod : (den * q + r) % den = r := by
    rw [Nat.mul_add_mod, Nat.mod_eq_of_lt hr]
  rw [roundQuotient, hdiv, hmod, if_pos (Or.inl h)]

/-- A quotient is rounded to no less than its whole part. -/
lemma div_le_roundQuotient (num den : ℕ) : num / den ≤ roundQuotient num den := by
  simp only [roundQuotient]
  split <;> omega

/-- A greater quotient has no less a whole part. -/
lemma div_le_div_of_mul_le {num den num' den' : ℕ} (hden : 0 < den) (hden' : 0 < den')
    (h : num * den' ≤ num' * den) : num / den ≤ num' / den' := by
  rw [Nat.le_div_iff_mul_le hden']
  refine Nat.le_of_mul_le_mul_right (le_trans ?_ h) hden
  calc num / den * den' * den = den * (num / den) * den' := by ring
    _ ≤ num * den' := Nat.mul_le_mul_right den' (Nat.mul_div_le num den)

/-- A greater quotient is rounded to no less: either a whole number lies between, or the
whole parts are equal and the greater one has more behind its whole part. -/
lemma roundQuotient_mono {num den num' den' : ℕ} (hden : 0 < den) (hden' : 0 < den')
    (h : num * den' ≤ num' * den) : roundQuotient num den ≤ roundQuotient num' den' := by
  have hnum := Nat.div_add_mod num den
  have hnum' := Nat.div_add_mod num' den'
  rcases Nat.lt_or_eq_of_le (div_le_div_of_mul_le hden hden' h) with hlt | heq
  · calc roundQuotient num den ≤ num / den + 1 := roundQuotient_le num den
      _ ≤ num' / den' := hlt
      _ ≤ roundQuotient num' den' := div_le_roundQuotient num' den'
  · have hr : num % den * den' ≤ num' % den' * den := by
      rw [← hnum, ← hnum', ← heq, Nat.add_mul, Nat.add_mul] at h
      have hwhole : den * (num / den) * den' = den' * (num / den) * den := by ring
      omega
    -- what is behind the whole parts is compared with a half of each denominator
    have hup : den ≤ 2 * (num % den) → den' ≤ 2 * (num' % den') ∧
        (2 * (num' % den') = den' → 2 * (num % den) = den) := by
      intro hhalf
      have hcross : den * den' ≤ 2 * (num' % den') * den := by
        calc den * den' ≤ 2 * (num % den) * den' := Nat.mul_le_mul_right den' hhalf
          _ = 2 * (num % den * den') := by ring
          _ ≤ 2 * (num' % den' * den) := Nat.mul_le_mul_left 2 hr
          _ = 2 * (num' % den') * den := by ring
      refine ⟨Nat.le_of_mul_le_mul_right (by rwa [Nat.mul_comm den den'] at hcross) hden,
        fun htie => le_antisymm ?_ hhalf⟩
      refine Nat.le_of_mul_le_mul_right ?_ hden'
      calc 2 * (num % den) * den' = 2 * (num % den * den') := by ring
        _ ≤ 2 * (num' % den' * den) := Nat.mul_le_mul_left 2 hr
        _ = 2 * (num' % den') * den := by ring
        _ = den * den' := by rw [htie, Nat.mul_comm]
    simp only [roundQuotient, ← heq]
    split
    · split <;> omega
    · case isFalse hhigh =>
      have hhigh' : ¬ (2 * (num' % den') < den' ∨
          2 * (num' % den') = den' ∧ num / den % 2 = 0) := by
        have := hup (by omega)
        omega
      rw [if_neg hhigh']

/-! ### Doubles -/

lemma quantaPerUnit_pos : 0 < quantaPerUnit := twoPow_pos quantumScale

lemma cast_quantaPerUnit_pos : (0 : ℚ) < quantaPerUnit := Nat.cast_pos.2 quantaPerUnit_pos

/-- Rounding does not depend on how a quotient is written. -/
lemma nearest_mul (num den : ℕ) {c : ℕ} (hc : 0 < c) :
    nearest (num * c) (den * c) = nearest num den := by
  rw [nearest, nearest, Nat.mul_div_mul_right _ _ hc, Nat.mul_right_comm, roundQuotient_mul _ _ hc]

/-- A count of quanta with 53 significant bits is the nearest one for what exceeds it by less
than half a quantum. -/
lemma nearest_eq_of_close {n r den : ℕ} (hn : grain n ∣ n) (hr : 2 * r < den) :
    nearest (n * den + r) den = n := by
  have hdiv : (n * den + r) / den = n := by
    rw [Nat.mul_comm, Nat.mul_add_div (by omega), Nat.div_eq_of_lt (by omega), Nat.add_zero]
  obtain ⟨k, hk⟩ := hn
  have hle : den ≤ den * grain n := Nat.le_mul_of_pos_right den (grain_pos n)
  have hround : roundQuotient (n * den + r) (den * grain n) = k := by
    have hnum : n * den + r = den * grain n * k + r := by
      conv_lhs => rw [hk]
      ring
    rw [hnum]
    exact roundQuotient_of_lt (by omega)
  rw [nearest, hdiv, hround, Nat.mul_comm]
  exact hk.symm

lemma nearest_self {n : ℕ} (hn : grain n ∣ n) : nearest n 1 = n := by
  have h : nearest (n * 1 + 0) 1 = n := nearest_eq_of_close hn (by omega)
  rwa [Nat.mul_one] at h

lemma roundQuotient_grain_le (num den : ℕ) :
    roundQuotient num (den * grain (num / den)) ≤ twoPow 53 := by
  refine (roundQuotient_le _ _).trans ?_
  rw [← Nat.div_div_eq_div_mul]
  exact div_grain_lt (num / den)

/-- No more than the next power of two comes of rounding, if there are 53 bits below it. -/
lemma nearest_le_twoPow (num den : ℕ) :
    nearest num den ≤ twoPow (53 + ((num / den).log2 - 52)) := by
  rw [nearest, twoPow_add]
  exact Nat.mul_le_mul_right _ (roundQuotient_grain_le num den)

/-- The whole part of a quotient, without what is finer than the spacing there, is not lost
by rounding. -/
lemma div_grain_mul_le_nearest (num den : ℕ) :
    num / den / grain (num / den) * grain (num / den) ≤ nearest num den := by
  rw [nearest, Nat.div_div_eq_div_mul]
  exact Nat.mul_le_mul_right _ (div_le_roundQuotient _ _)

/-- The power of two that the whole part begins with is not lost. -/
lemma twoPow_log2_le_nearest {num den : ℕ} (h : 52 ≤ (num / den).log2) :
    twoPow (num / den).log2 ≤ nearest num den := by
  have hne : num / den ≠ 0 := by
    intro h0
    rw [h0, Nat.log2_zero] at h
    omega
  have hsplit : (num / den).log2 = 52 + ((num / den).log2 - 52) := by omega
  refine le_trans ?_ (div_grain_mul_le_nearest num den)
  rw [hsplit, twoPow_add]
  refine Nat.mul_le_mul_right _ ((Nat.le_div_iff_mul_le (grain_pos _)).2 ?_)
  rw [grain, ← twoPow_add, ← hsplit]
  exact Nat.log2_self_le hne

/-- A greater quotient is rounded to no less: where the spacing is the same, whole numbers
are rounded, and where it is coarser a power of two lies between. -/
theorem nearest_mono {num den num' den' : ℕ} (hden : 0 < den) (hden' : 0 < den')
    (h : num * den' ≤ num' * den) : nearest num den ≤ nearest num' den' := by
  have hdiv := div_le_div_of_mul_le hden hden' h
  have hlog : (num / den).log2 ≤ (num' / den').log2 := by
    by_cases h0 : num / den = 0
    · rw [h0, Nat.log2_zero]
      exact Nat.zero_le _
    · have h0' : num' / den' ≠ 0 := fun h' => h0 (Nat.le_zero.1 (h' ▸ hdiv))
      exact (Nat.le_log2 h0').2 ((Nat.log2_self_le h0).trans hdiv)
  rcases Nat.lt_or_ge ((num / den).log2 - 52) ((num' / den').log2 - 52) with hlt | hge
  · calc nearest num den ≤ twoPow (53 + ((num / den).log2 - 52)) := nearest_le_twoPow num den
      _ ≤ twoPow (num' / den').log2 := twoPow_le (by omega)
      _ ≤ nearest num' den' := twoPow_log2_le_nearest (by omega)
  · have hgrain : grain (num / den) = grain (num' / den') := by
      rw [grain, grain, le_antisymm (Nat.sub_le_sub_right hlog 52) hge]
    rw [nearest, nearest, ← hgrain]
    refine Nat.mul_le_mul_right _ (roundQuotient_mono (Nat.mul_pos hden (grain_pos _))
      (Nat.mul_pos hden' (grain_pos _)) ?_)
    calc num * (den' * grain (num / den)) = num * den' * grain (num / den) := by ring
      _ ≤ num' * den * grain (num / den) := Nat.mul_le_mul_right _ h
      _ = num' * (den * grain (num / den)) := by ring

/-- The spacing at a count of quanta is no greater than that, or one. -/
lemma grain_le (n : ℕ) : grain n ≤ n + 1 := by
  by_cases h0 : n = 0
  · subst h0
    exact Nat.le_refl 1
  · exact (twoPow_le (Nat.sub_le _ 52)).trans ((Nat.log2_self_le h0).trans (Nat.le_succ n))

/-- What is rounded at most doubles, up to one quantum. -/
lemma nearest_le (num den : ℕ) : nearest num den ≤ 2 * (num / den) + 1 := by
  have hround : roundQuotient num (den * grain (num / den))
      ≤ num / den / grain (num / den) + 1 := by
    rw [Nat.div_div_eq_div_mul]
    exact roundQuotient_le _ _
  calc nearest num den
      ≤ (num / den / grain (num / den) + 1) * grain (num / den) := Nat.mul_le_mul_right _ hround
    _ = num / den / grain (num / den) * grain (num / den) + grain (num / den) := by ring
    _ ≤ num / den + (num / den + 1) := Nat.add_le_add (Nat.div_mul_le_self _ _) (grain_le _)
    _ = 2 * (num / den) + 1 := by ring

namespace Binary64

/-! ### Magnitudes -/

/-- The magnitude of a finite double, in quanta. -/
def magnitude : Binary64 → ℕ
  | finite _ n _ => n
  | _ => 0

/-- A finite double has a sign and a magnitude. -/
lemma exists_finite {x : Binary64} (hx : x.isFinite = true) : ∃ s n h, x = finite s n h := by
  cases x with
  | finite s n h => exact ⟨s, n, h, rfl⟩
  | infinite s => cases hx
  | nan => cases hx

/-- Quanta with a sign have the magnitude that they have without it. -/
lemma natAbs_signedQuanta (s : Bool) (n : ℕ) : (signedQuanta s n).natAbs = n := by
  cases s <;> simp [signedQuanta]

/-- A quotient is rounded to a finite double when its nearest one is below the bound. -/
lemma ofQuotient_eq {negative : Bool} {num den n : ℕ} (h : nearest num den = n)
    (hn : Representable n) : ofQuotient negative num den = finite negative n hn := by
  subst h
  exact dif_pos hn.1

/-- A quotient far from the bound is rounded to a finite double, of no more than twice its
magnitude. -/
lemma ofQuotient_of_lt (negative : Bool) {num den : ℕ} (h : 2 * (num / den) + 1 < bound) :
    (ofQuotient negative num den).isFinite = true ∧
      (ofQuotient negative num den).magnitude ≤ 2 * (num / den) + 1 := by
  have hle := nearest_le num den
  rw [ofQuotient, dif_pos (hle.trans_lt h)]
  exact ⟨rfl, hle⟩

/-- The sum of doubles far from the bound is finite. -/
lemma isFinite_add {x y : Binary64} (hx : x.isFinite = true) (hy : y.isFinite = true)
    (h : 2 * (x.magnitude + y.magnitude) + 1 < bound) : (x + y).isFinite = true := by
  obtain ⟨s, m, hm, rfl⟩ := exists_finite hx
  obtain ⟨t, n, hn, rfl⟩ := exists_finite hy
  change (add _ _).isFinite = true
  simp only [add]
  split
  · rfl
  · refine (ofQuotient_of_lt _ (lt_of_le_of_lt ?_ h)).1
    have habs : (signedQuanta s m + signedQuanta t n).natAbs ≤ m + n := by
      unfold signedQuanta
      split <;> split <;> omega
    rw [Nat.div_one]
    simp only [magnitude]
    omega

/-- The other sign changes neither the magnitude nor that it is finite. -/
lemma isFinite_neg (x : Binary64) : (-x).isFinite = x.isFinite := by cases x <;> rfl

lemma magnitude_neg (x : Binary64) : (-x).magnitude = x.magnitude := by cases x <;> rfl

end Binary64

end DeskCalculator
