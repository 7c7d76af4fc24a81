import DeskCalculator.Proofs.Binary64.Whole
import DeskCalculator.Proofs.Decimal.Digits
import DeskCalculator.Proofs.Decimal.Shortest

/-!
The numerals of whole numbers.

Up to `2^53` the shortest decimal of a whole number is the number itself: a point of a grid of
whole numbers that rounds to it is the number, as no other double is as near. Only the next one
after `2^53` itself is rounded to that, and there the exact point is taken.

* `gridDigits?_exact`: a grid that has a magnitude as a point has that point for it.
* `eq_of_nearest_whole`: a whole number that rounds to another one is that, or one above `2^53`.
* `Decimal.shortest_whole`: the shortest decimal of a whole number is the number.
* `Binary64.numeral_of_represents`: so a whole number is written with its digits.
-/

namespace DeskCalculator

-- the powers are never to be evaluated here
attribute [local irreducible] twoPow

/-- A grid that has a magnitude as a point has that point for it. -/
lemma gridDigits?_exact {n grid digits : ℕ} (h : grain n ∣ n)
    (hexact : n * tenPow finestPlace = digits * (tenPow grid * quantaPerUnit)) :
    gridDigits? n grid = some digits := by
  have hpos : 0 < tenPow grid * quantaPerUnit := Nat.mul_pos (tenPow_pos grid) quantaPerUnit_pos
  have hreads : roundedDecimal digits grid = n := by
    rw [roundedDecimal, Nat.mul_assoc, ← hexact, ← Nat.one_mul (tenPow finestPlace),
      ← Nat.mul_assoc, nearest_mul _ _ (tenPow_pos _), Nat.mul_one]
    exact nearest_self h
  simp only [gridDigits?, hexact, Nat.mul_div_cancel _ hpos, Nat.mul_mod_left, hreads]
  simp [hpos]

namespace Decimal

lemma grain_exactLimit_dvd :
    grain ((exactLimit + 2) * quantaPerUnit) ∣ (exactLimit + 2) * quantaPerUnit := by
  have htwo : twoPow 1 = 2 := by decide +kernel
  have hlt : twoPow 52 + 1 < twoPow 53 := by decide +kernel
  have heq : (exactLimit + 2) * quantaPerUnit = (twoPow 52 + 1) * twoPow (1 + quantumScale) := by
    rw [exactLimit, quantaPerUnit, twoPow_add 1 quantumScale, twoPow_add 1 52, htwo]
    ring
  refine grain_dvd_of_lt (k := 1 + quantumScale) ?_ (heq ▸ Nat.dvd_mul_left _ _)
  rw [heq, twoPow_add 53]
  exact Nat.mul_lt_mul_of_pos_right hlt (twoPow_pos _)

lemma eq_of_nearest_whole {k m : ℕ} (hk : k ≤ exactLimit)
    (h : nearest (m * quantaPerUnit) 1 = k * quantaPerUnit) :
    m = k ∨ m = exactLimit + 1 := by
  rcases Nat.lt_or_ge exactLimit m with hlt | hge
  · refine Or.inr (le_antisymm ?_ hlt)
    by_contra hgt
    have hle : (exactLimit + 2) * quantaPerUnit ≤ k * quantaPerUnit := by
      rw [← h, ← nearest_self grain_exactLimit_dvd]
      exact nearest_mono Nat.one_pos Nat.one_pos
        (Nat.mul_le_mul_right _ (Nat.mul_le_mul_right _ (by omega)))
    have := Nat.le_of_mul_le_mul_right hle quantaPerUnit_pos
    omega
  · left
    rw [nearest_self (representable_whole hge).2] at h
    exact Nat.eq_of_mul_eq_mul_right quantaPerUnit_pos h

lemma quanta_whole {k : ℕ} (hk : k ≤ exactLimit) :
    (⟨k, 0⟩ : Decimal).quanta = k * quantaPerUnit := by
  have hdecimal : (⟨k, 0⟩ : Decimal).quanta = nearest (k * tenPow 0 * quantaPerUnit) (tenPow 0) :=
    rfl
  rw [hdecimal, tenPow_zero, Nat.mul_one]
  exact nearest_self (representable_whole hk).2

/-- **The shortest decimal of a whole number is the number**, perhaps with a power of ten. -/
theorem shortest_whole {k : ℕ} (hk : k ≤ exactLimit) :
    0 ≤ (shortest (k * quantaPerUnit)).exponent ∧
      (shortest (k * quantaPerUnit)).digits
        * tenPow (shortest (k * quantaPerUnit)).exponent.toNat = k := by
  have hgrain := (representable_whole hk).2
  have hexponent : 0 ≤ (shortest (k * quantaPerUnit)).exponent :=
    exponent_le_shortest hgrain (quanta_whole hk) (show -(finestPlace : ℤ) ≤ 0 by decide)
      (show 0 ≤ (coarsestGrid : ℤ) - finestPlace by decide)
  have hquanta := quanta_shortest hgrain
  obtain ⟨digits, grid, hshortest, hdigits, -⟩ :=
    exists_shortestFrom (gridDigits?_finest hgrain) coarsestGrid
  change shortest (k * quantaPerUnit) = _ at hshortest
  refine ⟨hexponent, ?_⟩
  generalize shortest (k * quantaPerUnit) = d at hexponent hquanta hshortest ⊢
  have hplaces : (-d.exponent).toNat = 0 := by omega
  rw [quanta, hplaces, tenPow_zero] at hquanta
  rcases eq_of_nearest_whole hk hquanta with heq | hnext
  · exact heq
  · -- the next one after `2^53` is no multiple of ten, so it lies on the grid of the units
    have hmod : (exactLimit + 1) % 10 = 3 := by decide +kernel
    have hunits : d.exponent.toNat = 0 := by
      by_contra hne
      obtain ⟨e, he⟩ := Nat.exists_eq_succ_of_ne_zero hne
      have hten : tenPow (e + 1) = tenPow e * 10 := rfl
      rw [he, Nat.succ_eq_add_one, hten, ← Nat.mul_assoc] at hnext
      omega
    have hgrid : grid = finestPlace := by
      have : d.exponent = (grid : ℤ) - finestPlace := congrArg Decimal.exponent hshortest
      omega
    have hexact : gridDigits? (k * quantaPerUnit) finestPlace = some k :=
      gridDigits?_exact hgrain (by ring)
    rw [hgrid, hexact] at hdigits
    rw [hunits, tenPow_zero, Nat.mul_one, hshortest]
    exact (Option.some.inj hdigits).symm

lemma text_shortest_whole {k : ℕ} (hk : k ≤ exactLimit) (hne : k ≠ 0) :
    (shortest (k * quantaPerUnit)).text = decimalDigits k := by
  obtain ⟨hexponent, hdigits⟩ := shortest_whole hk
  generalize shortest (k * quantaPerUnit) = d at hexponent hdigits ⊢
  have hd : d.digits ≠ 0 := by
    rintro h0
    rw [h0, Nat.zero_mul] at hdigits
    exact hne hdigits.symm
  have hdecimal : decimalDigits k = decimalDigits d.digits ++ zeros d.exponent.toNat := by
    rw [← hdigits, decimalDigits_mul_tenPow hd]
  have hlength : (decimalDigits d.digits).length + d.exponent.toNat ≤ 20 := by
    have hlimit : exactLimit < tenPow 20 := by decide +kernel
    have hlt : k < 10 ^ 20 := hk.trans_lt hlimit
    have hle := (Nat.length_toDigits_le_iff (by decide) (by decide)).2 hlt
    rwa [← decimalDigits, hdecimal, List.length_append, zeros, List.length_replicate] at hle
  have hpos : 0 < (decimalDigits d.digits).length := Nat.length_toDigits_pos
  have hwritten : writtenOut d.leadingExponent = true := by
    rw [writtenOut, leadingExponent, Bool.and_eq_true, decide_eq_true_iff, decide_eq_true_iff]
    omega
  rw [text, if_pos hwritten, positional, if_pos hexponent, hdecimal]

end Decimal

/-- The digits of a whole number, behind a minus if it is negative. -/
lemma toString_eq_signText (z : ℤ) :
    toString z = .ofList (signText (decide (z < 0)) ++ decimalDigits z.natAbs) := by
  rw [← String.toList_inj, Int.toString_eq_repr, Int.repr_eq_if, String.toList_ofList]
  by_cases hz : z < 0
  · have habs : (-z).toNat = z.natAbs := by omega
    rw [if_neg (not_le.2 hz), decide_eq_true hz, String.toList_append, Nat.toList_repr, habs]
    rfl
  · have habs : z.toNat = z.natAbs := by omega
    rw [if_pos (not_lt.1 hz), decide_eq_false hz, Nat.toList_repr, habs]
    rfl

/-- **A double that is a whole number up to `2^53` is written as the whole number.** -/
theorem Binary64.numeral_of_represents {x : Binary64} {z : ℤ} (hx : x.Represents z)
    (hz : z.natAbs ≤ exactLimit) : x.numeral = toString z := by
  rw [toString_eq_signText, numeral]
  cases x with
  | finite s n h =>
      obtain rfl := quanta_of_represents hx
      by_cases h0 : z = 0
      · subst h0
        rw [numeralChars, Int.natAbs_zero, Nat.zero_mul, if_pos rfl]
        rfl
      · have hne : z.natAbs ≠ 0 := Int.natAbs_ne_zero.2 h0
        rw [numeralChars, if_neg (Nat.mul_ne_zero hne quantaPerUnit_pos.ne'),
          Decimal.text_shortest_whole hz hne, negative_of_represents hx h0]
  | _ => exact hx.elim

end DeskCalculator
