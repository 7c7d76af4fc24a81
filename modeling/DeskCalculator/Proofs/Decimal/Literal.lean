import DeskCalculator.Proofs.Binary64.Range
import DeskCalculator.Proofs.Decimal.Fewest
import DeskCalculator.Proofs.Decimal.Reading

/-!
The number that a literal stands for, and the double nearest to it.

* `fractionValue`: the number that digits behind a point stand for, place by place.
* `IsLiteralOf`: a literal, digits with a point or without, and its number. A run with a digit and
  at most one point is one (`exists_isLiteralOf`).
* `Binary64.IsNearest`: the double that a number without a sign is rounded to, with ties to even,
  and infinity out of range. `Binary64.isNearest_ofQuotient`: a quotient is rounded so.
* `readLiteral?_of_isLiteralOf`: a literal is read as the double nearest to its number.
-/

namespace DeskCalculator

-- the powers are never to be evaluated here
attribute [local irreducible] twoPow tenPow

/-! ### Numbers of literals -/

/-- The number that digits behind a point stand for: each digit counts a tenth of what it would at
the place before it. -/
def fractionValue : List Char → ℚ
  | [] => 0
  | c :: cs => ((c.toNat - '0'.toNat : ℕ) + fractionValue cs) / 10

/-- A literal and its number: digits, or digits with a point among them or at an end. -/
inductive IsLiteralOf : List Char → ℚ → Prop
  | digits {ws : List Char} (ne : ws ≠ []) (isDigit : ∀ c ∈ ws, c.isDigit = true) :
      IsLiteralOf ws (Nat.ofDigitChars 10 ws 0)
  | point {ws fs : List Char} (ne : ws ++ fs ≠ []) (whole : ∀ c ∈ ws, c.isDigit = true)
      (fraction : ∀ c ∈ fs, c.isDigit = true) :
      IsLiteralOf (ws ++ '.' :: fs) (Nat.ofDigitChars 10 ws 0 + fractionValue fs)

/-- Digits behind others are a fraction if as many places are cut off. -/
lemma ofDigitChars_div (n : ℕ) (fs : List Char) :
    (Nat.ofDigitChars 10 fs n : ℚ) / 10 ^ fs.length = n + fractionValue fs := by
  induction fs generalizing n with
  | nil => simp [Nat.ofDigitChars_nil, fractionValue]
  | cons c fs ih =>
      rw [Nat.ofDigitChars_cons, List.length_cons, pow_succ, ← div_div, ih, fractionValue]
      push_cast
      ring

lemma isDigit_of_point_notMem {cs : List Char} (h : ∀ c ∈ cs, isNumeral c = true)
    (hpoint : '.' ∉ cs) : ∀ c ∈ cs, c.isDigit = true := by
  intro c hc
  have hne : (c == '.') = false := beq_eq_false_iff_ne.2 fun he => hpoint (he ▸ hc)
  have hnumeral := h c hc
  rwa [isNumeral, hne, Bool.or_false] at hnumeral

/-- **A run of digits and points stands for a number if it has a digit and at most one point.** -/
theorem exists_isLiteralOf {run : List Char} (hrun : ∀ c ∈ run, isNumeral c = true)
    (h : isLiteral run = true) : ∃ q, IsLiteralOf run q := by
  rw [isLiteral, Bool.and_eq_true, List.any_eq_true, decide_eq_true_eq] at h
  obtain ⟨⟨d, hd, hdigit⟩, hcount⟩ := h
  by_cases hpoint : '.' ∈ run
  · obtain ⟨ws, fs, rfl, hws⟩ := List.eq_append_cons_of_mem hpoint
    have hfs : '.' ∉ fs := by
      rw [List.count_append, List.count_cons_self] at hcount
      exact List.count_eq_zero.1 (by omega)
    have hdigits : d ∈ ws ++ fs := by
      rw [List.mem_append, List.mem_cons] at hd
      rcases hd with hd | rfl | hd
      · exact List.mem_append_left fs hd
      · cases hdigit
      · exact List.mem_append_right ws hd
    exact ⟨_, .point (List.ne_nil_of_mem hdigits)
      (isDigit_of_point_notMem (fun c hc => hrun c (List.mem_append_left _ hc)) hws)
      (isDigit_of_point_notMem
        (fun c hc => hrun c (List.mem_append_right _ (List.mem_cons_of_mem _ hc))) hfs)⟩
  · exact ⟨_, .digits (List.ne_nil_of_mem hd) (isDigit_of_point_notMem hrun hpoint)⟩

/-! ### The nearest double -/

namespace Binary64

/-- The double that a number without a sign is rounded to: the nearest one, of two equally near the
one with the even significand, and infinity from the middle between the greatest double and `2^1024`
on. -/
def IsNearest : Binary64 → ℚ → Prop
  | finite s n _, q => s = false ∧ IsNearestEven n (q * quantaPerUnit)
  | infinite s, q => s = false ∧ 2 ^ 1024 - 2 ^ 970 ≤ q
  | nan, _ => False

/-- A quotient, counted in quanta, is rounded to the double nearest to it. -/
lemma isNearest_ofQuotient {num den : ℕ} (hden : 0 < den) {q : ℚ}
    (hq : q * quantaPerUnit = num / den) : (ofQuotient false num den).IsNearest q := by
  rw [ofQuotient]
  split
  case isTrue h => exact ⟨rfl, hq ▸ isNearestEven_nearest num hden⟩
  case isFalse h =>
    refine ⟨rfl, ?_⟩
    have hlimit := (bound_le_nearest_iff hden).1 (Nat.not_lt.1 h)
    have hden' : (0 : ℚ) < den := Nat.cast_pos.2 hden
    rw [← mul_le_mul_iff_left₀ cast_quantaPerUnit_pos, ← cast_overflowLimit, hq, le_div_iff₀ hden']
    exact_mod_cast hlimit

end Binary64

/-- **A literal is read as the double nearest to its number.** -/
theorem readLiteral?_of_isLiteralOf {run : List Char} {q : ℚ} (h : IsLiteralOf run q) :
    ∃ x, readLiteral? run = some x ∧ x.IsNearest q := by
  obtain ⟨ds, places, hdigits, hq⟩ : ∃ ds places, HasDigits run ds places ∧
      q = Nat.ofDigitChars 10 ds 0 / 10 ^ places := by
    cases h with
    | digits ne isDigit => exact ⟨_, _, hasDigits_digits ne isDigit, by rw [pow_zero, div_one]⟩
    | @point ws fs ne whole fraction =>
        refine ⟨_, _, hasDigits_point ne whole fraction, ?_⟩
        rw [Nat.ofDigitChars_append, ofDigitChars_div]
  refine ⟨_, hdigits.readLiteral?, Binary64.isNearest_ofQuotient (tenPow_pos places) ?_⟩
  rw [hq, Nat.cast_mul, Decimal.cast_tenPow, zpow_natCast, div_mul_eq_mul_div]

end DeskCalculator
