import DeskCalculator.Proofs.Decimal.Canonical

/-!
Plain notation is the layout of a decimal.

A number in plain notation, other than zero, is written out as some decimal is: its digits without
the outer zeros are the digits of the decimal, and where the point stands tells the last place.

* `exists_zeros_append`, `exists_append_zeros`: digits, without the zeros in front or behind.
* `IsTrimmed.positional_zeros`, `IsTrimmed.positional_point`, `IsTrimmed.positional_fraction`: how
  the decimal of digits without outer zeros is written out.
* `IsPlain.exists_decimal`: plain notation is such a layout.
-/

namespace DeskCalculator

/-! ### Outer zeros -/

lemma exists_zeros_append (ds : List Char) :
    ∃ k rest, ds = zeros k ++ rest ∧ rest.head? ≠ some '0' := by
  induction ds with
  | nil => exact ⟨0, [], rfl, nofun⟩
  | cons c ds ih =>
      by_cases hc : c = '0'
      · obtain ⟨k, rest, rfl, hrest⟩ := ih
        exact ⟨k + 1, rest, by rw [hc]; rfl, hrest⟩
      · exact ⟨0, c :: ds, rfl, fun hzero => hc (Option.some.inj hzero)⟩

lemma exists_append_zeros (ds : List Char) :
    ∃ k rest, ds = rest ++ zeros k ∧ rest.getLast? ≠ some '0' := by
  obtain ⟨k, rest, hrest, hhead⟩ := exists_zeros_append ds.reverse
  refine ⟨k, rest.reverse, ?_, by rwa [List.getLast?_reverse]⟩
  rw [← List.reverse_reverse ds, hrest, List.reverse_append, zeros, List.reverse_replicate]

/-! ### Layouts of trimmed digits -/

namespace IsTrimmed

variable {ds : List Char} (h : IsTrimmed ds)

include h

/-- Digits without outer zeros are those of the number that they stand for. -/
lemma decimalDigits_eq : decimalDigits (Nat.ofDigitChars 10 ds 0) = ds :=
  decimalDigits_ofDigitChars h.ne h.digits h.head

/-- With a last place left of the point digits are written out with zeros behind them. -/
lemma positional_zeros (k : ℕ) :
    (⟨Nat.ofDigitChars 10 ds 0, k⟩ : Decimal).positional = ds ++ zeros k := by
  simp only [Decimal.positional, h.decimalDigits_eq]
  rw [if_pos (Int.natCast_nonneg k), Int.toNat_natCast]

/-- With a last place among them digits are written out with a point before it. -/
lemma positional_point {k : ℕ} (hpos : 0 < k) (hlt : k < ds.length) :
    (⟨Nat.ofDigitChars 10 ds 0, -k⟩ : Decimal).positional
      = ds.take (ds.length - k) ++ '.' :: ds.drop (ds.length - k) := by
  simp only [Decimal.positional, h.decimalDigits_eq]
  rw [if_neg (by omega), neg_neg, Int.toNat_natCast, if_pos hlt]

/-- With a last place further to the right digits are written out as a fraction. -/
lemma positional_fraction {k : ℕ} (hle : ds.length ≤ k) :
    (⟨Nat.ofDigitChars 10 ds 0, -k⟩ : Decimal).positional
      = '0' :: '.' :: (zeros (k - ds.length) ++ ds) := by
  have hpos : 0 < ds.length := List.length_pos_of_ne_nil h.ne
  simp only [Decimal.positional, h.decimalDigits_eq]
  rw [if_neg (by omega), neg_neg, Int.toNat_natCast, if_neg (by omega)]

end IsTrimmed

/-! ### Plain notation -/

lemma IsPlain.isNumeral {cs : List Char} (h : IsPlain cs) : ∀ c ∈ cs, isNumeral c = true := by
  obtain ⟨hws, hfs⟩ := h
  intro c hc
  rcases List.mem_append.1 hc with hc | hc
  · exact isNumeral_of_isDigit (hws.digits c hc)
  · cases hfs with
    | none => cases hc
    | point hnil hdigits hlast =>
        rcases List.mem_cons.1 hc with rfl | hc
        · rfl
        · exact isNumeral_of_isDigit (hdigits c hc)

/-- A whole number that is not zero is digits without outer zeros and zeros behind them. -/
lemma IsWhole.exists_trimmed {ws : List Char} (h : IsWhole ws) (hne : ws.head? ≠ some '0') :
    ∃ k ds, ws = ds ++ zeros k ∧ IsTrimmed ds := by
  obtain ⟨k, ds, rfl, hlast⟩ := exists_append_zeros ws
  have hnil : ds ≠ [] := by
    rintro rfl
    cases k with
    | zero => exact h.ne rfl
    | succ k => exact hne rfl
  refine ⟨k, ds, rfl, hnil, fun c hc => h.digits c (List.mem_append_left _ hc), ?_, hlast⟩
  rwa [List.head?_append_of_ne_nil _ hnil] at hne

/-- **A number in plain notation, other than zero, is some decimal written out in full**, with
digits that have no outer zeros. -/
theorem IsPlain.exists_decimal {cs : List Char} (h : IsPlain cs) (hne : cs ≠ ['0']) :
    ∃ d : Decimal, IsTrimmed (decimalDigits d.digits) ∧ d.positional = cs := by
  obtain @⟨ws, fs, hws, hfs⟩ := h
  cases hfs with
  | none =>
      rw [List.append_nil] at hne ⊢
      obtain ⟨k, ds, rfl, hds⟩ := hws.exists_trimmed fun hzero => hne (hws.lead hzero)
      refine ⟨⟨Nat.ofDigitChars 10 ds 0, k⟩, ?_, hds.positional_zeros k⟩
      rwa [hds.decimalDigits_eq]
  | @point fs hnil hdigits hlast =>
      by_cases hzero : ws.head? = some '0'
      · -- the digits are those of the fraction, without the zeros in front
        rw [hws.lead hzero]
        obtain ⟨j, ds, rfl, hhead⟩ := exists_zeros_append fs
        have hne : ds ≠ [] := by
          rintro rfl
          rw [List.append_nil] at hnil hlast
          cases j with
          | zero => exact hnil rfl
          | succ j => exact hlast (by rw [zeros, List.replicate_succ', List.getLast?_concat])
        have hds : IsTrimmed ds := by
          refine ⟨hne, fun c hc => hdigits c (List.mem_append_right _ hc), hhead, ?_⟩
          rwa [List.getLast?_append_of_ne_nil _ hne] at hlast
        have hlength : (zeros j ++ ds).length = j + ds.length := by
          rw [List.length_append, zeros, List.length_replicate]
        refine ⟨⟨Nat.ofDigitChars 10 ds 0, -((zeros j ++ ds).length : ℤ)⟩, ?_, ?_⟩
        · rwa [hds.decimalDigits_eq]
        · rw [hds.positional_fraction (by omega), hlength, Nat.add_sub_cancel]
          rfl
      · -- the digits are those on both sides of the point
        have hds : IsTrimmed (ws ++ fs) := by
          refine ⟨List.append_ne_nil_of_left_ne_nil hws.ne _, fun c hc => ?_, ?_, ?_⟩
          · exact (List.mem_append.1 hc).elim (hws.digits c) (hdigits c)
          · rwa [List.head?_append_of_ne_nil _ hws.ne]
          · rwa [List.getLast?_append_of_ne_nil _ hnil]
        have hpos : 0 < fs.length := List.length_pos_of_ne_nil hnil
        have hpos' : 0 < ws.length := List.length_pos_of_ne_nil hws.ne
        refine ⟨⟨Nat.ofDigitChars 10 (ws ++ fs) 0, -(fs.length : ℤ)⟩, ?_, ?_⟩
        · rwa [hds.decimalDigits_eq]
        · rw [hds.positional_point hpos (by rw [List.length_append]; omega), List.length_append,
            Nat.add_sub_cancel, List.take_left, List.drop_left]

end DeskCalculator
