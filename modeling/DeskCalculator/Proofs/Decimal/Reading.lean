import DeskCalculator.Proofs.Decimal.Layout
import DeskCalculator.Proofs.Decimal.Shortest

/-!
Reading what has been written.

* `HasDigits`: the digits and the places of a literal. `hasDigits_digits`, `hasDigits_point`:
  digits are one, and so are digits with a point among them or at an end.
* `Decimal.hasDigits_positional`, `Decimal.hasDigits_mantissa`: the digits that are written out in
  full, or in a mantissa.
* `Decimal.readLiteral?_positional`: the former read as the double nearest the decimal; so the
  shortest ones of a double read as that double (`Decimal.readLiteral?_positional_shortest`).
* `Decimal.readLiteral?_mantissa`, `readLiteral?_decimalDigits`: the parts of the other layout
  are literals, too.
-/

namespace DeskCalculator

/-! ### Literals -/

lemma point_notMem_of_isDigit {ds : List Char} (h : ∀ c ∈ ds, c.isDigit = true) : '.' ∉ ds :=
  fun hmem => absurd (h '.' hmem) (by decide)

lemma dropWhile_ne_point {ds : List Char} (h : ∀ c ∈ ds, c.isDigit = true) (cs : List Char) :
    (ds ++ cs).dropWhile (· ≠ '.') = cs.dropWhile (· ≠ '.') := by
  refine List.dropWhile_append_of_pos fun c hc => ?_
  simpa using fun he : c = '.' => point_notMem_of_isDigit h (he ▸ hc)

/-- A run is a literal with the given digits and so many places behind the point. -/
structure HasDigits (run ds : List Char) (places : ℕ) : Prop where
  isLiteral : isLiteral run = true
  filter : run.filter Char.isDigit = ds
  places : placesAfterPoint run = places

lemma HasDigits.readLiteral? {run ds : List Char} {places : ℕ} (h : HasDigits run ds places) :
    readLiteral? run = some (.ofDecimal (Nat.ofDigitChars 10 ds 0) places) := by
  rw [DeskCalculator.readLiteral?, if_pos h.isLiteral, h.filter, h.places]

lemma hasDigits_digits {ds : List Char} (hne : ds ≠ []) (h : ∀ c ∈ ds, c.isDigit = true) :
    HasDigits ds ds 0 := by
  refine ⟨?_, List.filter_eq_self.2 h, ?_⟩
  · have hcount : ds.count '.' = 0 := List.count_eq_zero.2 (point_notMem_of_isDigit h)
    obtain ⟨d, ds, rfl⟩ := List.exists_cons_of_ne_nil hne
    rw [isLiteral, hcount, List.any_cons, h d List.mem_cons_self]
    rfl
  · rw [placesAfterPoint, ← List.append_nil ds, dropWhile_ne_point h]
    rfl

/-- Digits with a point are a literal with the places behind the point. -/
lemma hasDigits_point {ds fs : List Char} (hne : ds ++ fs ≠ [])
    (hds : ∀ c ∈ ds, c.isDigit = true) (hfs : ∀ c ∈ fs, c.isDigit = true) :
    HasDigits (ds ++ '.' :: fs) (ds ++ fs) fs.length := by
  have hfilter : (ds ++ '.' :: fs).filter Char.isDigit = ds ++ fs := by
    rw [List.filter_append, List.filter_cons_of_neg (by decide), List.filter_eq_self.2 hds,
      List.filter_eq_self.2 hfs]
  refine ⟨?_, hfilter, ?_⟩
  · have hany : (ds ++ '.' :: fs).any Char.isDigit = true := by
      obtain ⟨d, cs, hcs⟩ := List.exists_cons_of_ne_nil hne
      have hd : d ∈ (ds ++ '.' :: fs).filter Char.isDigit := by
        rw [hfilter, hcs]
        exact List.mem_cons_self
      exact List.any_eq_true.2 ⟨d, List.mem_of_mem_filter hd, List.of_mem_filter hd⟩
    have hcount : (ds ++ '.' :: fs).count '.' = 1 := by
      rw [List.count_append, List.count_cons_self,
        List.count_eq_zero.2 (point_notMem_of_isDigit hds),
        List.count_eq_zero.2 (point_notMem_of_isDigit hfs)]
    rw [isLiteral, hany, hcount]
    rfl
  · rw [placesAfterPoint, dropWhile_ne_point hds, List.dropWhile_cons_of_neg (by decide),
      List.length_cons, Nat.add_sub_cancel]

/-- The digits of a number stand for it. -/
lemma ofDigitChars_decimalDigits (n : ℕ) : Nat.ofDigitChars 10 (decimalDigits n) 0 = n :=
  Nat.ofDigitChars_toDigits (by decide) le_rfl

/-- Zeros behind digits multiply what they stand for by a power of ten. -/
lemma ofDigitChars_append_zeros (ds : List Char) (k : ℕ) :
    Nat.ofDigitChars 10 (ds ++ zeros k) 0 = Nat.ofDigitChars 10 ds 0 * tenPow k := by
  rw [Nat.ofDigitChars_append, zeros, Nat.ofDigitChars_replicate_zero, Nat.mul_comm]
  rfl

lemma ofDigitChars_zeros_append (k : ℕ) (ds : List Char) :
    Nat.ofDigitChars 10 (zeros k ++ ds) 0 = Nat.ofDigitChars 10 ds 0 := by
  rw [Nat.ofDigitChars_append, zeros, Nat.ofDigitChars_replicate_zero, Nat.mul_zero]

lemma isDigit_of_mem_zeros {k : ℕ} {c : Char} (h : c ∈ zeros k) : c.isDigit = true := by
  rw [List.eq_of_mem_replicate h]
  rfl

/-- The digits of a number are a literal, which reads as the double nearest it. -/
lemma readLiteral?_decimalDigits (n : ℕ) :
    readLiteral? (decimalDigits n) = some (.ofNat n) := by
  rw [(hasDigits_digits (decimalDigits_ne_nil n) fun c =>
    isDigit_of_mem_decimalDigits).readLiteral?, ofDigitChars_decimalDigits]
  rfl

namespace Decimal

/-! ### Layouts -/

/-- Digits written out in full are a literal: behind the digits are zeros up to the point, or
before them as many as are needed. -/
lemma hasDigits_positional (d : Decimal) :
    ∃ k, HasDigits d.positional (zeros k ++ (decimalDigits d.digits ++ zeros d.exponent.toNat))
      (-d.exponent).toNat := by
  have hds : ∀ c ∈ decimalDigits d.digits, c.isDigit = true :=
    fun c => isDigit_of_mem_decimalDigits
  simp only [positional]
  split
  case isTrue hexponent =>
    have hdigits : ∀ c ∈ decimalDigits d.digits ++ zeros d.exponent.toNat, c.isDigit = true :=
      fun c hc => (List.mem_append.1 hc).elim (hds c) isDigit_of_mem_zeros
    have hne : decimalDigits d.digits ++ zeros d.exponent.toNat ≠ [] :=
      List.append_ne_nil_of_left_ne_nil (decimalDigits_ne_nil _) _
    have hplaces : (-d.exponent).toNat = 0 := by omega
    rw [hplaces]
    exact ⟨0, hasDigits_digits hne hdigits⟩
  case isFalse hexponent =>
    have hwhole : d.exponent.toNat = 0 := by omega
    rw [hwhole, show zeros 0 = [] from rfl, List.append_nil]
    generalize decimalDigits d.digits = ds at hds
    generalize (-d.exponent).toNat = places
    split
    case isTrue hplaces =>
      have htake : ∀ c ∈ ds.take (ds.length - places), c.isDigit = true :=
        fun c hc => hds c (List.mem_of_mem_take hc)
      have hdrop : ∀ c ∈ ds.drop (ds.length - places), c.isDigit = true :=
        fun c hc => hds c (List.mem_of_mem_drop hc)
      have hne : ds.take (ds.length - places) ++ ds.drop (ds.length - places) ≠ [] := by
        rw [List.take_append_drop]
        exact List.ne_nil_of_length_pos (by omega)
      have h := hasDigits_point hne htake hdrop
      rw [List.take_append_drop, List.length_drop, Nat.sub_sub_self hplaces.le] at h
      exact ⟨0, h⟩
    case isFalse hplaces =>
      have hwhole : ∀ c ∈ zeros 1, c.isDigit = true := fun c => isDigit_of_mem_zeros
      have hfraction : ∀ c ∈ zeros (places - ds.length) ++ ds, c.isDigit = true :=
        fun c hc => (List.mem_append.1 hc).elim isDigit_of_mem_zeros (hds c)
      have h := hasDigits_point (List.cons_ne_nil _ _) hwhole hfraction
      have hlength : (zeros (places - ds.length) ++ ds).length = places := by
        rw [List.length_append, zeros, List.length_replicate,
          Nat.sub_add_cancel (Nat.not_lt.1 hplaces)]
      rw [hlength] at h
      exact ⟨places - ds.length + 1, h⟩

theorem readLiteral?_positional (d : Decimal) :
    readLiteral? d.positional
      = some (.ofDecimal (d.digits * tenPow d.exponent.toNat) (-d.exponent).toNat) := by
  obtain ⟨k, h⟩ := d.hasDigits_positional
  rw [h.readLiteral?, ofDigitChars_zeros_append, ofDigitChars_append_zeros,
    ofDigitChars_decimalDigits]

/-- **The shortest digits of a double, written out in full, read as that double.** -/
theorem readLiteral?_positional_shortest {n : ℕ} (h : Representable n) :
    readLiteral? (shortest n).positional = some (.finite false n h) := by
  rw [readLiteral?_positional]
  exact congrArg some (Binary64.ofQuotient_eq (quanta_shortest h.2) h)

/-- A mantissa is a literal with all places but one behind the point. -/
lemma hasDigits_mantissa {ds : List Char} (hne : ds ≠ []) (hds : ∀ c ∈ ds, c.isDigit = true) :
    HasDigits (mantissa ds) ds (ds.length - 1) := by
  rcases ds with _ | ⟨c, _ | ⟨c', ds⟩⟩
  · exact absurd rfl hne
  · exact hasDigits_digits hne hds
  · have hhead : ∀ x ∈ [c], x.isDigit = true :=
      fun x hx => hds x (List.mem_singleton.1 hx ▸ List.mem_cons_self)
    exact hasDigits_point (List.cons_ne_nil _ _) hhead
      fun x hx => hds x (List.mem_cons_of_mem c hx)

lemma readLiteral?_mantissa (d : Decimal) :
    readLiteral? (mantissa (decimalDigits d.digits))
      = some (.ofDecimal d.digits ((decimalDigits d.digits).length - 1)) := by
  rw [(hasDigits_mantissa (decimalDigits_ne_nil _) fun c =>
    isDigit_of_mem_decimalDigits).readLiteral?, ofDigitChars_decimalDigits]

lemma magnitude_mantissa (d : Decimal) :
    (Binary64.ofDecimal d.digits ((decimalDigits d.digits).length - 1)).isFinite = true ∧
      (Binary64.ofDecimal d.digits ((decimalDigits d.digits).length - 1)).magnitude
        ≤ 20 * quantaPerUnit + 1 := by
  have hpos : 0 < (decimalDigits d.digits).length := Nat.length_toDigits_pos
  have hten : tenPow (decimalDigits d.digits).length
      = tenPow ((decimalDigits d.digits).length - 1) * 10 := by
    rw [← Nat.sub_add_cancel hpos, tenPow_add]
    rfl
  have hdiv : d.digits * quantaPerUnit / tenPow ((decimalDigits d.digits).length - 1)
      ≤ 10 * quantaPerUnit := by
    refine Nat.div_le_of_le_mul ?_
    rw [← Nat.mul_assoc, ← hten]
    exact Nat.mul_le_mul_right _ d.digits_lt.le
  have hbound : 20 * quantaPerUnit + 1 < bound := by decide +kernel
  obtain ⟨hfinite, hle⟩ := Binary64.ofQuotient_of_lt false
    (lt_of_le_of_lt (show 2 * (d.digits * quantaPerUnit
      / tenPow ((decimalDigits d.digits).length - 1)) + 1 ≤ 20 * quantaPerUnit + 1 by omega) hbound)
  exact ⟨hfinite, hle.trans (by omega)⟩

end Decimal

/-- A small whole number reads as a double of no more than twice as many units and a
quantum. -/
lemma magnitude_ofNat {k : ℕ} (h : k ≤ 1000) :
    (Binary64.ofNat k).isFinite = true ∧
      (Binary64.ofNat k).magnitude ≤ 2000 * quantaPerUnit + 1 := by
  have hdiv : k * quantaPerUnit / tenPow 0 ≤ 1000 * quantaPerUnit := by
    rw [tenPow_zero, Nat.div_one]
    exact Nat.mul_le_mul_right _ h
  have hbound : 2000 * quantaPerUnit + 1 < bound := by decide +kernel
  obtain ⟨hfinite, hle⟩ := Binary64.ofQuotient_of_lt false
    (lt_of_le_of_lt (show 2 * (k * quantaPerUnit / tenPow 0) + 1
      ≤ 2000 * quantaPerUnit + 1 by omega) hbound)
  exact ⟨hfinite, hle.trans (by omega)⟩

end DeskCalculator
