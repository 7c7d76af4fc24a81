import DeskCalculator.Binary64.Basic

/-!
Rounding to the nearest double.

An exact magnitude is a quotient `num / den` of natural numbers, counted in
quanta. It is divided by the spacing of the doubles around it, the quotient is
rounded to a whole number, and a half goes to the even neighbour.

* `roundQuotient`: the whole number nearest a quotient.
* `nearest`: the double nearest a quotient, as a count of quanta; it may lie
  beyond the range.
* `grain_nearest_dvd`: what `nearest` gives has at most 53 significant bits.
* `Binary64.ofQuotient`: the same with a sign, infinite beyond the range.
-/

namespace DeskCalculator

/-! ### Whole numbers -/

/-- The whole number nearest `num / den`; a half goes to the even neighbour. -/
def roundQuotient (num den : Nat) : Nat :=
  let q := num / den
  let r := num % den
  if 2 * r < den ∨ (2 * r = den ∧ q % 2 = 0) then q else q + 1

/-- Rounding moves a quotient up by less than one. -/
theorem roundQuotient_le (num den : Nat) : roundQuotient num den ≤ num / den + 1 := by
  simp only [roundQuotient]
  split <;> omega

/-! ### Doubles -/

/-- The count of quanta nearest `num / den` among those with 53 significant bits; a tie
goes to the even significand. -/
def nearest (num den : Nat) : Nat :=
  roundQuotient num (den * grain (num / den)) * grain (num / den)

/-- A count divided by its spacing has at most 53 bits. -/
theorem div_grain_lt (n : Nat) : n / grain n < twoPow 53 := by
  rw [Nat.div_lt_iff_lt_mul (grain_pos n), grain, ← twoPow_add]
  exact Nat.lt_of_lt_of_le (lt_twoPow_log2_succ n) (twoPow_le (by omega))

/-- What rounding gives has at most 53 significant bits: a carry out of the 53rd leaves a
power of two. -/
theorem grain_nearest_dvd (num den : Nat) : grain (nearest num den) ∣ nearest num den := by
  have hle : roundQuotient num (den * grain (num / den)) ≤ twoPow 53 := by
    refine Nat.le_trans (roundQuotient_le _ _) ?_
    rw [← Nat.div_div_eq_div_mul]
    exact div_grain_lt (num / den)
  rcases Nat.lt_or_eq_of_le hle with hlt | heq
  · refine grain_dvd_of_lt (k := (num / den).log2 - 52) ?_ (Nat.dvd_mul_left _ _)
    rw [nearest, grain, twoPow_add]
    exact Nat.mul_lt_mul_of_pos_right hlt (twoPow_pos _)
  · refine grain_dvd_of_lt (k := (num / den).log2 - 52 + 1) ?_ ?_ <;>
      rw [nearest, heq, grain, ← twoPow_add]
    · exact twoPow_lt (by omega)
    · exact twoPow_dvd (by omega)

namespace Binary64

/-- The double nearest the magnitude `num / den` in quanta, with the given sign; infinite
when the magnitude rounds out of range. -/
def ofQuotient (negative : Bool) (num den : Nat) : Binary64 :=
  if h : nearest num den < bound then
    finite negative (nearest num den) ⟨h, grain_nearest_dvd num den⟩
  else infinite negative

end Binary64

end DeskCalculator
