import Mathlib.Tactic
import DeskCalculator.Decimal.Numeral

/-!
The first and the last digits of a number.

* `decimalDigits_mul_tenPow`: a power of ten puts zeros behind the digits of a number.
* `head?_decimalDigits`: no number but zero begins with a zero.
* `getLast?_decimalDigits_eq_zero_iff`: the numbers that end in one are the multiples of ten.
* `decimalDigits_ofDigitChars`: digits that do not begin with a zero are those of their number.
-/

namespace DeskCalculator

lemma decimalDigits_of_lt {n : ℕ} (h : n < 10) : decimalDigits n = [n.digitChar] :=
  Nat.toDigits_of_lt_base h

lemma decimalDigits_of_le {n : ℕ} (h : 10 ≤ n) :
    decimalDigits n = decimalDigits (n / 10) ++ [(n % 10).digitChar] :=
  Nat.toDigits_of_base_le (by decide) h

/-- A power of ten puts zeros behind the digits of a number. -/
lemma decimalDigits_mul_tenPow {n : ℕ} (hn : n ≠ 0) (k : ℕ) :
    decimalDigits (n * tenPow k) = decimalDigits n ++ zeros k := by
  induction k with
  | zero => rw [zeros, List.replicate_zero, List.append_nil, show tenPow 0 = 1 from rfl, mul_one]
  | succ k ih =>
      have hten : n * tenPow (k + 1) = n * tenPow k * 10 := by
        rw [show tenPow (k + 1) = tenPow k * 10 from rfl, mul_assoc]
      have hpos : 0 < n * tenPow k := Nat.mul_pos (Nat.pos_of_ne_zero hn) (tenPow_pos k)
      rw [hten, decimalDigits_of_le (by omega), Nat.mul_div_cancel _ (by decide),
        Nat.mul_mod_left, ih, List.append_assoc, zeros, zeros, List.replicate_succ']
      rfl

lemma head?_decimalDigits {n : ℕ} (hn : n ≠ 0) : (decimalDigits n).head? ≠ some '0' := by
  induction n using Nat.strongRecOn with
  | ind n ih =>
      rcases Nat.lt_or_ge n 10 with hlt | hge
      · rw [decimalDigits_of_lt hlt]
        simpa [Nat.digitChar_eq_zero] using hn
      · have hne : decimalDigits (n / 10) ≠ [] := Nat.toDigits_ne_nil
        rw [decimalDigits_of_le hge, List.head?_append_of_ne_nil _ hne]
        exact ih (n / 10) (by omega) (by omega)

lemma getLast?_decimalDigits_eq_zero_iff {n : ℕ} :
    (decimalDigits n).getLast? = some '0' ↔ 10 ∣ n := by
  rcases Nat.lt_or_ge n 10 with hlt | hge
  · rw [decimalDigits_of_lt hlt, List.getLast?_singleton, Option.some_inj, Nat.digitChar_eq_zero]
    omega
  · rw [decimalDigits_of_le hge, List.getLast?_append, List.getLast?_singleton]
    simp only [Option.some_or, Option.some_inj, Nat.digitChar_eq_zero]
    omega

/-- A digit is that of a number below ten. -/
lemma exists_digitChar_eq {c : Char} (h : c.isDigit = true) : ∃ n < 10, n.digitChar = c := by
  obtain ⟨hlow, hhigh⟩ := Char.isDigit_iff_toNat.1 h
  have hzero : '0'.toNat = 48 := rfl
  have hnine : '9'.toNat = 57 := rfl
  refine ⟨c.toNat - 48, by omega, Char.toNat_inj.1 ?_⟩
  rw [Nat.toNat_digitChar_of_lt_ten (by omega)]
  omega

/-- Digits that do not begin with a zero are those of the number that they stand for. -/
lemma decimalDigits_ofDigitChars {ds : List Char} (hne : ds ≠ [])
    (hdigits : ∀ c ∈ ds, c.isDigit = true) (hhead : ds.head? ≠ some '0') :
    decimalDigits (Nat.ofDigitChars 10 ds 0) = ds := by
  induction ds using List.reverseRecOn with
  | nil => exact absurd rfl hne
  | append_singleton ds c ih =>
      obtain ⟨n, hn, rfl⟩ := exists_digitChar_eq (hdigits c (by simp))
      rw [Nat.ofDigitChars_append, Nat.ofDigitChars_cons_digitChar_of_lt_ten hn,
        Nat.ofDigitChars_nil]
      by_cases hnil : ds = []
      · rw [hnil, Nat.ofDigitChars_nil, Nat.mul_zero, Nat.zero_add, decimalDigits_of_lt hn]
        rfl
      · rw [List.head?_append_of_ne_nil _ hnil] at hhead
        have hds := ih hnil (fun c hc => hdigits c (List.mem_append_left _ hc)) hhead
        have hpos : Nat.ofDigitChars 10 ds 0 ≠ 0 := by
          intro hzero
          rw [hzero] at hds
          rw [← hds] at hhead
          exact hhead rfl
        have hlast : (10 * Nat.ofDigitChars 10 ds 0 + n) % 10 = n := by omega
        have hrest : (10 * Nat.ofDigitChars 10 ds 0 + n) / 10 = Nat.ofDigitChars 10 ds 0 := by omega
        rw [decimalDigits_of_le (by omega), hrest, hlast, hds]

end DeskCalculator
