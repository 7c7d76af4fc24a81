import DeskCalculator.Proofs.Binary64.Nearest

/-!
Whole numbers as doubles.

* `exactLimit`: the whole numbers up to `2^53` are doubles (`representable_whole`), and a quotient
  that is one of them is rounded to it (`nearest_whole`).
* `Binary64.Represents`: a double is a whole number. `Binary64.represents_ofQuotient`: so is an
  exact result.
* `Binary64.Represents.neg`, `add`, `sub`, `mul`, `div`: so arithmetic is that of the whole
  numbers as long as the result is no greater, and a division leaves nothing over.
-/

namespace DeskCalculator

-- the powers are never to be evaluated here
attribute [local irreducible] twoPow

/-! ### Counts of quanta -/

/-- The whole numbers up to here are all doubles. -/
def exactLimit : ℕ := twoPow 53

lemma representable_whole {k : ℕ} (h : k ≤ exactLimit) : Representable (k * quantaPerUnit) := by
  have hbound : twoPow (53 + quantumScale) < bound := twoPow_lt (by decide)
  rw [twoPow_add] at hbound
  rcases Nat.lt_or_eq_of_le h with hlt | rfl
  · have hmul : k * quantaPerUnit < exactLimit * quantaPerUnit :=
      Nat.mul_lt_mul_of_pos_right hlt quantaPerUnit_pos
    refine ⟨hmul.trans hbound, grain_dvd_of_lt (k := quantumScale) ?_ (Nat.dvd_mul_left _ _)⟩
    rw [twoPow_add]
    exact hmul
  · refine ⟨hbound, grain_dvd_of_lt (k := 53 + quantumScale) ?_ ?_⟩
    · rw [exactLimit, quantaPerUnit, ← twoPow_add]
      exact twoPow_lt (by omega)
    · rw [exactLimit, quantaPerUnit, ← twoPow_add]

/-- A quotient that is a whole number up to `2^53` is rounded to it. -/
lemma nearest_whole {k den : ℕ} (h : k ≤ exactLimit) (hden : 0 < den) :
    nearest (k * quantaPerUnit * den) den = k * quantaPerUnit := by
  have hself := nearest_self (representable_whole h).2
  rwa [← nearest_mul _ _ hden, Nat.one_mul] at hself

lemma signedQuanta_mul (s t : Bool) (m n : ℕ) :
    Binary64.signedQuanta (s ^^ t) (m * n)
      = Binary64.signedQuanta s m * Binary64.signedQuanta t n := by
  cases s <;> cases t <;> simp [Binary64.signedQuanta]

/-- A whole number of quanta is its magnitude with its sign. -/
lemma signedQuanta_natAbs (z : ℤ) : Binary64.signedQuanta (decide (z < 0)) z.natAbs = z := by
  by_cases h : z < 0
  · rw [decide_eq_true h, Binary64.signedQuanta, if_pos rfl]
    omega
  · rw [decide_eq_false h, Binary64.signedQuanta, if_neg Bool.false_ne_true]
    omega

namespace Binary64

/-! ### Doubles -/

/-- The double is the whole number; that of zero may have either sign. -/
def Represents : Binary64 → ℤ → Prop
  | finite s n _, z => signedQuanta s n = z * quantaPerUnit
  | _, _ => False

/-- The magnitude of a double that is a whole number. -/
lemma quanta_of_represents {s : Bool} {n : ℕ} {h : Representable n} {z : ℤ}
    (hz : (finite s n h).Represents z) : n = z.natAbs * quantaPerUnit := by
  rw [← natAbs_signedQuanta s n, show signedQuanta s n = _ from hz, Int.natAbs_mul,
    Int.natAbs_natCast]

lemma negative_of_represents {s : Bool} {n : ℕ} {h : Representable n} {z : ℤ}
    (hz : (finite s n h).Represents z) (hne : z ≠ 0) : s = decide (z < 0) := by
  have hunit : (quantaPerUnit : ℤ) ≠ 0 := by exact_mod_cast quantaPerUnit_pos.ne'
  have hsigned : signedQuanta s z.natAbs = z := by
    refine mul_right_cancel₀ hunit ((Eq.trans ?_ hz))
    rw [quanta_of_represents hz]
    cases s <;> simp [signedQuanta]
  cases s with
  | false =>
      rw [signedQuanta, if_neg Bool.false_ne_true] at hsigned
      exact (decide_eq_false (by omega)).symm
  | true =>
      rw [signedQuanta, if_pos rfl] at hsigned
      exact (decide_eq_true (by omega)).symm

/-- A result that is a whole number is rounded to it. -/
lemma represents_ofQuotient {s : Bool} {num den : ℕ} {z : ℤ} (hz : z.natAbs ≤ exactLimit)
    (hden : 0 < den) (hsigned : signedQuanta s num = z * quantaPerUnit * den) :
    (ofQuotient s num den).Represents z := by
  have hnum : num = z.natAbs * quantaPerUnit * den := by
    rw [← natAbs_signedQuanta s num, hsigned, Int.natAbs_mul, Int.natAbs_mul, Int.natAbs_natCast,
      Int.natAbs_natCast]
  have hden' : (den : ℤ) ≠ 0 := by exact_mod_cast hden.ne'
  rw [ofQuotient_eq (hnum ▸ nearest_whole hz hden) (representable_whole hz)]
  refine mul_right_cancel₀ hden' ?_
  rw [← hsigned, hnum]
  cases s <;> simp [signedQuanta]

/-- A literal is read as the whole number that it stands for. -/
lemma represents_ofNat {k : ℕ} (h : k ≤ exactLimit) : (ofNat k).Represents k :=
  represents_ofQuotient h (tenPow_pos 0) (by simp [signedQuanta, tenPow])

namespace Represents

variable {x y : Binary64} {z w : ℤ}

lemma isFinite (hx : x.Represents z) : x.isFinite = true := by
  cases x with
  | finite s n h => rfl
  | _ => exact hx.elim

lemma isZero_eq_false (hx : x.Represents z) (hz : z ≠ 0) : x.isZero = false := by
  cases x with
  | finite s n h =>
      rw [isZero, beq_eq_false_iff_ne, quanta_of_represents hx]
      exact Nat.mul_ne_zero (Int.natAbs_ne_zero.2 hz) (twoPow_pos _).ne'
  | _ => exact hx.elim

lemma neg (hx : x.Represents z) : (-x).Represents (-z) := by
  cases x with
  | finite s n h =>
      have hn : signedQuanta s n = z * quantaPerUnit := hx
      change signedQuanta (!s) n = -z * quantaPerUnit
      rw [neg_mul, ← hn]
      cases s <;> simp [signedQuanta]
  | _ => exact hx.elim

lemma add (hx : x.Represents z) (hy : y.Represents w) (h : (z + w).natAbs ≤ exactLimit) :
    (x + y).Represents (z + w) := by
  cases x with
  | finite s m hm =>
      cases y with
      | finite t n hn =>
          have hsum : signedQuanta s m + signedQuanta t n = (z + w) * quantaPerUnit := by
            rw [add_mul]
            exact congrArg₂ (· + ·) hx hy
          change (Binary64.add _ _).Represents _
          simp only [Binary64.add]
          split
          case isTrue hzero =>
            change signedQuanta (s && t) 0 = (z + w) * quantaPerUnit
            rw [← hsum, hzero]
            cases s && t <;> rfl
          case isFalse hne =>
            refine represents_ofQuotient h Nat.one_pos ?_
            rw [Nat.cast_one, mul_one, ← hsum, signedQuanta_natAbs]
      | _ => exact hy.elim
  | _ => exact hx.elim

lemma sub (hx : x.Represents z) (hy : y.Represents w) (h : (z - w).natAbs ≤ exactLimit) :
    (x - y).Represents (z - w) := by
  rw [sub_eq_add_neg] at h ⊢
  exact hx.add hy.neg h

lemma mul (hx : x.Represents z) (hy : y.Represents w) (h : (z * w).natAbs ≤ exactLimit) :
    (x * y).Represents (z * w) := by
  cases x with
  | finite s m hm =>
      cases y with
      | finite t n hn =>
          have hm : signedQuanta s m = z * quantaPerUnit := hx
          have hn : signedQuanta t n = w * quantaPerUnit := hy
          refine represents_ofQuotient h (twoPow_pos quantumScale) ?_
          rw [signedQuanta_mul, hm, hn]
          ring
      | _ => exact hy.elim
  | _ => exact hx.elim

lemma div (hx : x.Represents z) (hy : y.Represents w) (hw : w ≠ 0) (hdvd : w ∣ z)
    (h : (z / w).natAbs ≤ exactLimit) : (x / y).Represents (z / w) := by
  obtain ⟨q, rfl⟩ := hdvd
  rw [Int.mul_ediv_cancel_left q hw] at h ⊢
  cases x with
  | finite s m hm =>
      cases y with
      | finite t n hn =>
          have hm : signedQuanta s m = w * q * quantaPerUnit := hx
          have hn : signedQuanta t n = w * quantaPerUnit := hy
          have hn0 : n ≠ 0 := by
            rw [quanta_of_represents hy]
            exact Nat.mul_ne_zero (Int.natAbs_ne_zero.2 hw) (twoPow_pos _).ne'
          change (Binary64.div _ _).Represents _
          simp only [Binary64.div, if_neg hn0]
          have hunits : signedQuanta t quantaPerUnit = signedQuanta t 1 * quantaPerUnit := by
            cases t <;> simp [signedQuanta]
          have hdivisor : (n : ℤ) = signedQuanta t 1 * (w * quantaPerUnit) := by
            rw [← hn, ← signedQuanta_mul, Bool.xor_self, one_mul]
            rfl
          refine represents_ofQuotient h (Nat.pos_of_ne_zero hn0) ?_
          rw [signedQuanta_mul, hm, hunits, hdivisor]
          ring
      | _ => exact hy.elim
  | _ => exact hx.elim

end Represents

end Binary64

end DeskCalculator
