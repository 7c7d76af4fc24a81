import DeskCalculator.Decimal.Numeral
import DeskCalculator.Proofs.Binary64.Nearest

/-!
The shortest decimal of a double rounds to it, and its size is that of the double.

* `Decimal.quanta`: what a decimal rounds to.
* `gridDigits?_isSome`: a grid on which some point rounds to a double has a point for it, as
  the two around it are the nearest. The finest grid has one for every double
  (`gridDigits?_finest`).
* `Decimal.exists_shortest`: so the search ends with a decimal that rounds to the double, on
  the coarsest grid that has any.
* `Decimal.quanta_power_le`, `Decimal.quanta_le_power`: a decimal rounds to no less than the
  power of ten that its leading digit is at, and to no more than one it stays below.
* `Decimal.le_leadingExponent_shortest_iff`: so the leading digit of a double is at a power
  of ten or above exactly when the double is not below the one nearest that power.
* `Binary64.IsWrittenOut`, `writtenOut_shortest_iff`: the numbers written out in full.
-/

namespace DeskCalculator

/-! ### Powers of ten -/

lemma tenPow_add (a b : ℕ) : tenPow (a + b) = tenPow a * tenPow b := Nat.pow_add 10 a b

lemma tenPow_le {a b : ℕ} (h : a ≤ b) : tenPow a ≤ tenPow b := Nat.pow_le_pow_right (by decide) h

lemma tenPow_zero : tenPow 0 = 1 := rfl

namespace Decimal

/-! ### What a decimal rounds to -/

/-- The quanta of the double nearest a decimal. -/
def quanta (d : Decimal) : ℕ :=
  nearest (d.digits * tenPow d.exponent.toNat * quantaPerUnit) (tenPow (-d.exponent).toNat)

/-- The decimal of a point of a grid rounds as the point does. -/
lemma quanta_ofGrid (digits grid : ℕ) :
    (ofGrid digits grid).quanta = roundedDecimal digits grid := by
  rw [quanta, roundedDecimal, ofGrid]
  rcases Nat.le_total finestPlace grid with hle | hle
  · obtain ⟨k, rfl⟩ := Nat.exists_eq_add_of_le hle
    have hup : (((finestPlace + k : ℕ) : ℤ) - finestPlace).toNat = k := by omega
    have hdown : (-(((finestPlace + k : ℕ) : ℤ) - finestPlace)).toNat = 0 := by omega
    have hnum : digits * tenPow (finestPlace + k) * quantaPerUnit
        = digits * tenPow k * quantaPerUnit * tenPow finestPlace := by
      rw [tenPow_add]
      ring
    rw [hup, hdown, hnum, ← nearest_mul _ (tenPow 0) (tenPow_pos finestPlace), tenPow_zero,
      Nat.one_mul]
  · obtain ⟨k, hk⟩ := Nat.exists_eq_add_of_le hle
    have hup : ((grid : ℤ) - finestPlace).toNat = 0 := by omega
    have hdown : (-((grid : ℤ) - finestPlace)).toNat = k := by omega
    have hden : tenPow finestPlace = tenPow k * tenPow grid := by
      rw [hk, Nat.add_comm, tenPow_add]
    have hnum : digits * tenPow grid * quantaPerUnit = digits * quantaPerUnit * tenPow grid := by
      ring
    rw [hup, hdown, hden, hnum, nearest_mul _ _ (tenPow_pos grid), tenPow_zero, Nat.mul_one]

end Decimal

/-! ### The points of a grid -/

/-- A point that stands for a magnitude rounds to it. -/
lemma roundedDecimal_of_gridDigits? {n grid digits : ℕ} (h : gridDigits? n grid = some digits) :
    roundedDecimal digits grid = n := by
  simp only [gridDigits?] at h
  split_ifs at h with hbelow hup
  · rw [← Option.some.inj h]
    exact hbelow.1
  · rw [← Option.some.inj h]
    exact hup

lemma roundedDecimal_mono {digits digits' : ℕ} (grid : ℕ) (h : digits ≤ digits') :
    roundedDecimal digits grid ≤ roundedDecimal digits' grid := by
  refine nearest_mono (tenPow_pos _) (tenPow_pos _) ?_
  exact Nat.mul_le_mul_right _ (Nat.mul_le_mul_right _ (Nat.mul_le_mul_right _ h))

/-- A grid on which some point rounds to a magnitude has a point for it: that one lies between
the magnitude and one of the two points around it, or is one of these. -/
lemma gridDigits?_isSome {n grid digits : ℕ} (h : grain n ∣ n)
    (hdigits : roundedDecimal digits grid = n) : (gridDigits? n grid).isSome = true := by
  have hpos : 0 < tenPow grid * quantaPerUnit := Nat.mul_pos (tenPow_pos grid) quantaPerUnit_pos
  have hdown : digits ≤ n * tenPow finestPlace / (tenPow grid * quantaPerUnit) →
      roundedDecimal (n * tenPow finestPlace / (tenPow grid * quantaPerUnit)) grid = n := by
    intro hle
    refine le_antisymm ?_ (hdigits.symm.le.trans (roundedDecimal_mono grid hle))
    refine le_trans (nearest_mono (tenPow_pos _) Nat.one_pos ?_) (nearest_self h).le
    rw [Nat.mul_one, Nat.mul_assoc]
    exact Nat.div_mul_le_self _ _
  have hup : n * tenPow finestPlace / (tenPow grid * quantaPerUnit) < digits →
      roundedDecimal (n * tenPow finestPlace / (tenPow grid * quantaPerUnit) + 1) grid = n := by
    intro hlt
    refine le_antisymm ((roundedDecimal_mono grid hlt).trans hdigits.le) ?_
    refine le_trans (nearest_self h).symm.le (nearest_mono Nat.one_pos (tenPow_pos _) ?_)
    rw [Nat.mul_one, Nat.mul_assoc, Nat.mul_comm (_ + 1)]
    exact (Nat.lt_mul_div_succ _ hpos).le
  simp only [gridDigits?]
  split_ifs with hbelow hreads
  · rfl
  · rfl
  · rcases Nat.lt_or_ge (n * tenPow finestPlace / (tenPow grid * quantaPerUnit)) digits with
      hlt | hle
    · exact absurd (hup hlt) hreads
    · exact absurd ⟨hdown hle, fun h => absurd h hreads⟩ hbelow

/-- The finest grid has a point for every magnitude: the one above it exceeds it by less than
half a quantum. -/
lemma gridDigits?_finest {n : ℕ} (h : grain n ∣ n) : (gridDigits? n 0).isSome = true := by
  have hdiv := Nat.div_add_mod (n * tenPow finestPlace) quantaPerUnit
  have hmod := Nat.mod_lt (n * tenPow finestPlace) quantaPerUnit_pos
  have hfine : 2 * quantaPerUnit < tenPow finestPlace := by decide +kernel
  generalize n * tenPow finestPlace / quantaPerUnit = q at hdiv
  generalize n * tenPow finestPlace % quantaPerUnit = r at hdiv hmod
  have hnum : (q + 1) * tenPow 0 * quantaPerUnit
      = n * tenPow finestPlace + (quantaPerUnit - r) := by
    have hexpand : (q + 1) * tenPow 0 * quantaPerUnit = quantaPerUnit * q + quantaPerUnit := by
      rw [tenPow_zero]
      ring
    omega
  refine gridDigits?_isSome h (show roundedDecimal (q + 1) 0 = n from ?_)
  rw [roundedDecimal, hnum]
  exact nearest_eq_of_close h (by omega)

/-! ### The search -/

namespace Decimal

/-- The search ends with the point of the coarsest grid that has one. -/
lemma exists_shortestFrom {point? : ℕ → Option ℕ} (h : (point? 0).isSome = true) (top : ℕ) :
    ∃ digits grid, shortestFrom point? top = ofGrid digits grid ∧ point? grid = some digits ∧
      ∀ grid' ≤ top, (point? grid').isSome = true → grid' ≤ grid := by
  induction top with
  | zero =>
      obtain ⟨digits, hdigits⟩ := Option.isSome_iff_exists.1 h
      exact ⟨digits, 0, by rw [shortestFrom, hdigits, Option.getD_some], hdigits,
        fun grid' hle _ => hle⟩
  | succ top ih =>
      rw [shortestFrom]
      split
      case h_1 digits hdigits => exact ⟨digits, top + 1, rfl, hdigits, fun grid' hle _ => hle⟩
      case h_2 hnone =>
        obtain ⟨digits, grid, hshortest, hdigits, hcoarsest⟩ := ih
        refine ⟨digits, grid, hshortest, hdigits, fun grid' hle hsome => ?_⟩
        rcases Nat.lt_or_eq_of_le hle with hlt | rfl
        · exact hcoarsest grid' (Nat.le_of_lt_succ hlt) hsome
        · rw [hnone] at hsome
          cases hsome

/-- The shortest decimal of a magnitude is a point that rounds to it, on the coarsest grid
that has any. -/
lemma exists_shortest {n : ℕ} (h : grain n ∣ n) :
    ∃ digits grid, shortest n = ofGrid digits grid ∧ roundedDecimal digits grid = n ∧
      ∀ digits' grid', grid' ≤ coarsestGrid → roundedDecimal digits' grid' = n →
        grid' ≤ grid := by
  obtain ⟨digits, grid, hshortest, hdigits, hcoarsest⟩ :=
    exists_shortestFrom (gridDigits?_finest h) coarsestGrid
  exact ⟨digits, grid, hshortest, roundedDecimal_of_gridDigits? hdigits,
    fun digits' grid' hle hdigits' => hcoarsest grid' hle (gridDigits?_isSome h hdigits')⟩

/-- **The shortest decimal of a double rounds to it.** -/
theorem quanta_shortest {n : ℕ} (h : grain n ∣ n) : (shortest n).quanta = n := by
  obtain ⟨digits, grid, hshortest, hdigits, -⟩ := exists_shortest h
  rw [hshortest, quanta_ofGrid, hdigits]

/-- No decimal on the grids that rounds to a double has a coarser last place than the shortest
one. -/
theorem exponent_le_shortest {n : ℕ} (h : grain n ∣ n) {d : Decimal} (hd : d.quanta = n)
    (hfinest : -(finestPlace : ℤ) ≤ d.exponent)
    (hcoarsest : d.exponent ≤ (coarsestGrid : ℤ) - finestPlace) :
    d.exponent ≤ (shortest n).exponent := by
  obtain ⟨digits, grid, hshortest, -, hmax⟩ := exists_shortest h
  obtain ⟨digits', exponent⟩ := d
  dsimp only at hfinest hcoarsest ⊢
  obtain ⟨grid', hgrid'⟩ := Int.eq_ofNat_of_zero_le (show 0 ≤ exponent + finestPlace by omega)
  obtain rfl : exponent = (grid' : ℤ) - finestPlace := by omega
  have hle := hmax digits' grid' (by omega) ((quanta_ofGrid digits' grid').symm.trans hd)
  rw [hshortest]
  dsimp only [ofGrid]
  omega

lemma quanta_of_digits_eq_zero {d : Decimal} (h : d.digits = 0) : d.quanta = 0 := by
  have hzero : d.digits * tenPow d.exponent.toNat * quantaPerUnit
      = 0 * tenPow (-d.exponent).toNat + 0 := by
    rw [h]
    ring
  rw [quanta, hzero]
  exact nearest_eq_of_close (Nat.dvd_zero _) (by simpa using tenPow_pos _)

lemma digits_shortest_ne_zero {n : ℕ} (h : grain n ∣ n) (hne : n ≠ 0) :
    (shortest n).digits ≠ 0 :=
  fun h0 => hne (by rw [← quanta_shortest h, quanta_of_digits_eq_zero h0])

/-! ### The size of a decimal -/

/-- A power of ten. -/
def power (k : ℤ) : Decimal := ⟨1, k⟩

/-- The digits of a decimal are fewer than all numbers of their length. -/
lemma digits_lt (d : Decimal) : d.digits < tenPow (decimalDigits d.digits).length :=
  (Nat.length_toDigits_le_iff (by decide) Nat.length_toDigits_pos).1 le_rfl

lemma tenPow_le_digits {d : Decimal} (h : d.digits ≠ 0) :
    tenPow ((decimalDigits d.digits).length - 1) ≤ d.digits := by
  by_cases hlen : (decimalDigits d.digits).length - 1 = 0
  · rw [hlen]
    exact Nat.one_le_iff_ne_zero.2 h
  · by_contra hlt
    have hle := (Nat.length_toDigits_le_iff (b := 10) (by decide) (by omega)).2
      (Nat.lt_of_not_le hlt)
    rw [← decimalDigits] at hle
    omega

/-- A decimal rounds to no less than the power of ten that its leading digit is at. -/
lemma quanta_power_le {d : Decimal} {k : ℤ} (hd : d.digits ≠ 0) (h : k ≤ d.leadingExponent) :
    (power k).quanta ≤ d.quanta := by
  have hpos : 0 < (decimalDigits d.digits).length := Nat.length_toDigits_pos
  refine nearest_mono (tenPow_pos _) (tenPow_pos _) ?_
  simp only [power, Nat.one_mul]
  calc tenPow k.toNat * quantaPerUnit * tenPow (-d.exponent).toNat
      = tenPow (k.toNat + (-d.exponent).toNat) * quantaPerUnit := by rw [tenPow_add]; ring
    _ ≤ tenPow ((decimalDigits d.digits).length - 1 + d.exponent.toNat + (-k).toNat)
          * quantaPerUnit := by
        refine Nat.mul_le_mul_right _ (tenPow_le ?_)
        rw [leadingExponent] at h
        omega
    _ = tenPow ((decimalDigits d.digits).length - 1)
          * (tenPow d.exponent.toNat * quantaPerUnit * tenPow (-k).toNat) := by
        rw [tenPow_add, tenPow_add]; ring
    _ ≤ d.digits * (tenPow d.exponent.toNat * quantaPerUnit * tenPow (-k).toNat) :=
        Nat.mul_le_mul_right _ (tenPow_le_digits hd)
    _ = d.digits * tenPow d.exponent.toNat * quantaPerUnit * tenPow (-k).toNat := by ring

lemma quanta_le_power {d : Decimal} {k : ℤ} (h : d.leadingExponent < k) :
    d.quanta ≤ (power k).quanta := by
  refine nearest_mono (tenPow_pos _) (tenPow_pos _) ?_
  simp only [power, Nat.one_mul]
  calc d.digits * tenPow d.exponent.toNat * quantaPerUnit * tenPow (-k).toNat
      = d.digits * (tenPow d.exponent.toNat * quantaPerUnit * tenPow (-k).toNat) := by ring
    _ ≤ tenPow (decimalDigits d.digits).length
          * (tenPow d.exponent.toNat * quantaPerUnit * tenPow (-k).toNat) :=
        Nat.mul_le_mul_right _ d.digits_lt.le
    _ = tenPow ((decimalDigits d.digits).length + d.exponent.toNat + (-k).toNat)
          * quantaPerUnit := by
        rw [tenPow_add, tenPow_add]; ring
    _ ≤ tenPow (k.toNat + (-d.exponent).toNat) * quantaPerUnit := by
        refine Nat.mul_le_mul_right _ (tenPow_le ?_)
        rw [leadingExponent] at h
        omega
    _ = tenPow k.toNat * quantaPerUnit * tenPow (-d.exponent).toNat := by rw [tenPow_add]; ring

section Shortest

variable {n : ℕ} {k : ℤ}

/-- The leading digit of a double is at a power of ten or above exactly when the double is
not below the one nearest that power. The double nearest it is written as the power itself,
at most. -/
theorem le_leadingExponent_shortest_iff (h : grain n ∣ n) (hne : n ≠ 0)
    (hfinest : -(finestPlace : ℤ) ≤ k) (hcoarsest : k ≤ (coarsestGrid : ℤ) - finestPlace) :
    k ≤ (shortest n).leadingExponent ↔ (power k).quanta ≤ n := by
  constructor
  · intro hle
    have hquanta := quanta_power_le (digits_shortest_ne_zero h hne) hle
    rwa [quanta_shortest h] at hquanta
  · intro hle
    rcases Nat.lt_or_eq_of_le hle with hlt | heq
    · by_contra hlow
      have hquanta := quanta_le_power (Int.not_le.1 hlow)
      rw [quanta_shortest h] at hquanta
      omega
    · have hlast : k ≤ (shortest n).exponent := exponent_le_shortest h heq hfinest hcoarsest
      have hpos : 0 < (decimalDigits (shortest n).digits).length := Nat.length_toDigits_pos
      rw [leadingExponent]
      omega

lemma leadingExponent_shortest_mem (h : Representable n) (hne : n ≠ 0) :
    -324 ≤ (shortest n).leadingExponent ∧ (shortest n).leadingExponent < 309 := by
  have hsmall : (power (-324)).quanta = 0 := by decide +kernel
  have hgreat : bound ≤ (power 309).quanta := by decide +kernel
  refine ⟨(le_leadingExponent_shortest_iff h.2 hne (by decide) (by decide)).2 (by omega), ?_⟩
  rw [← Int.not_le, le_leadingExponent_shortest_iff h.2 hne (by decide) (by decide)]
  exact Nat.not_le.2 (h.1.trans_le hgreat)

end Shortest

end Decimal

/-! ### Numbers written out in full -/

/-- A number is zero, or its magnitude is from a millionth up to, but not including,
`10^21`. -/
def Binary64.IsWrittenOut (x : Binary64) : Prop :=
  x.isZero = true ∨
    (ofDecimal 1 6).magnitude ≤ x.magnitude ∧ x.magnitude < (ofDecimal (tenPow 21) 0).magnitude

instance (x : Binary64) : Decidable x.IsWrittenOut := inferInstanceAs (Decidable (_ ∨ _))

/-- The numbers written out in full are those from a millionth up to `10^21`. -/
theorem writtenOut_shortest_iff {n : ℕ} (s : Bool) (h : Representable n) (hne : n ≠ 0) :
    writtenOut (Decimal.shortest n).leadingExponent = true ↔
      (Binary64.finite s n h).IsWrittenOut := by
  have hleast : (Binary64.ofDecimal 1 6).magnitude = (Decimal.power (-6)).quanta := by
    decide +kernel
  have hend : (Binary64.ofDecimal (tenPow 21) 0).magnitude = (Decimal.power 21).quanta := by
    decide +kernel
  have hwritten : (Binary64.finite s n h).IsWrittenOut ↔
      (Decimal.power (-6)).quanta ≤ n ∧ n < (Decimal.power 21).quanta := by
    rw [Binary64.IsWrittenOut, hleast, hend]
    simp [Binary64.isZero, Binary64.magnitude, hne]
  rw [hwritten, ← Decimal.le_leadingExponent_shortest_iff h.2 hne (by decide) (by decide),
    ← Nat.not_le, ← Decimal.le_leadingExponent_shortest_iff h.2 hne (by decide) (by decide),
    writtenOut, Bool.and_eq_true, decide_eq_true_iff, decide_eq_true_iff]
  omega

end DeskCalculator
