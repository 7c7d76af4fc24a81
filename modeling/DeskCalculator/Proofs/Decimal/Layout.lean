import Mathlib.Tactic
import DeskCalculator.Decimal.Numeral
import DeskCalculator.Expression.Alphabet

/-!
The layout of a written number.

* `IsLaidOut`: digits and points, or a mantissa of such, which ends in a digit, with an
  exponent that has a sign.
* `isLaidOut_positional`, `isLaidOut_scientific`: both layouts of a decimal are of this form.
* `numeralChars_of_isFinite`: a finite double is written so, behind a minus if it is negative; so
  the text of an infinity or of no number is that of no finite double (`isFinite_of_numeral_eq`).
-/

namespace DeskCalculator

/-! ### Digits -/

lemma isDigit_of_mem_decimalDigits {n : ℕ} {c : Char} (h : c ∈ decimalDigits n) :
    c.isDigit = true :=
  Nat.isDigit_of_mem_toDigits (by omega) le_rfl h

lemma decimalDigits_ne_nil (n : ℕ) : decimalDigits n ≠ [] := Nat.toDigits_ne_nil

lemma isNumeral_of_isDigit {c : Char} (h : c.isDigit = true) : isNumeral c = true := by
  rw [isNumeral, h, Bool.true_or]

lemma isNumeral_of_mem_decimalDigits {n : ℕ} {c : Char} (h : c ∈ decimalDigits n) :
    isNumeral c = true :=
  isNumeral_of_isDigit (isDigit_of_mem_decimalDigits h)

lemma isNumeral_of_mem_zeros {n : ℕ} {c : Char} (h : c ∈ zeros n) : isNumeral c = true := by
  rw [List.eq_of_mem_replicate h]
  rfl

/-! ### Layouts -/

/-- The form of a written number without its sign. -/
inductive IsLaidOut : List Char → Prop
  /-- Digits, perhaps with a point. -/
  | plain {ds : List Char} (ne : ds ≠ []) (numeral : ∀ c ∈ ds, isNumeral c = true) :
      IsLaidOut ds
  /-- A mantissa that ends in a digit, and an exponent with a sign. -/
  | scientific {ms ks : List Char} {sign : Char} (numeral : ∀ c ∈ ms, isNumeral c = true)
      (last : ∃ d ∈ ms.getLast?, d.isDigit = true) (isSign : sign = '+' ∨ sign = '-')
      (digits : ∀ c ∈ ks, c.isDigit = true) : IsLaidOut (ms ++ 'e' :: sign :: ks)

lemma IsLaidOut.isNumeral_head {cs : List Char} (h : IsLaidOut cs) :
    ∀ c ∈ cs.head?, isNumeral c = true := by
  intro c hc
  cases h with
  | plain ne numeral => exact numeral c (List.mem_of_mem_head? hc)
  | @scientific ms ks sign numeral last isSign digits =>
      obtain ⟨d, hd, -⟩ := last
      cases ms with
      | nil => cases hd
      | cons m ms =>
          obtain rfl : m = c := by simpa using hc
          exact numeral m List.mem_cons_self

namespace Decimal

lemma isNumeral_of_mem_positional {d : Decimal} {c : Char} (h : c ∈ d.positional) :
    isNumeral c = true := by
  have hds : ∀ c ∈ decimalDigits d.digits, isNumeral c = true :=
    fun c => isNumeral_of_mem_decimalDigits
  simp only [positional] at h
  split at h
  · rcases List.mem_append.1 h with h | h
    · exact hds c h
    · exact isNumeral_of_mem_zeros h
  · split at h
    · simp only [List.mem_append, List.mem_cons] at h
      rcases h with h | rfl | h
      · exact hds c (List.mem_of_mem_take h)
      · rfl
      · exact hds c (List.mem_of_mem_drop h)
    · simp only [List.mem_append, List.mem_cons] at h
      rcases h with rfl | rfl | h | h
      · rfl
      · rfl
      · exact isNumeral_of_mem_zeros h
      · exact hds c h

lemma positional_ne_nil (d : Decimal) : d.positional ≠ [] := by
  simp only [positional]
  split
  · simp [decimalDigits_ne_nil]
  · split <;> simp

/-- Digits written out in full are a layout. -/
lemma isLaidOut_positional (d : Decimal) : IsLaidOut d.positional :=
  .plain d.positional_ne_nil fun _ => isNumeral_of_mem_positional

lemma isNumeral_of_mem_mantissa {ds : List Char} (hds : ∀ c ∈ ds, c.isDigit = true) {c : Char}
    (h : c ∈ mantissa ds) : isNumeral c = true := by
  rcases ds with _ | ⟨d, _ | ⟨d', ds⟩⟩
  · cases h
  · exact isNumeral_of_isDigit (hds c h)
  · simp only [mantissa, List.mem_cons] at h
    rcases h with rfl | rfl | h
    · exact isNumeral_of_isDigit (hds c List.mem_cons_self)
    · rfl
    · exact isNumeral_of_isDigit (hds c (List.mem_cons_of_mem d (List.mem_cons.2 h)))

lemma getLast?_mantissa (ds : List Char) : (mantissa ds).getLast? = ds.getLast? := by
  rcases ds with _ | ⟨d, _ | ⟨d', ds⟩⟩ <;> rfl

/-- One digit before the point and an exponent are a layout. -/
lemma isLaidOut_scientific (d : Decimal) : IsLaidOut d.scientific := by
  have hds : ∀ c ∈ decimalDigits d.digits, c.isDigit = true :=
    fun c => isDigit_of_mem_decimalDigits
  refine .scientific (fun c => isNumeral_of_mem_mantissa hds) ?_ ?_
    fun c => isDigit_of_mem_decimalDigits
  · rw [getLast?_mantissa, List.getLast?_eq_some_getLast (decimalDigits_ne_nil _)]
    exact ⟨_, rfl, hds _ (List.getLast_mem _)⟩
  · split
    · exact Or.inr rfl
    · exact Or.inl rfl

lemma isLaidOut_text (d : Decimal) : IsLaidOut d.text := by
  unfold text
  split
  · exact d.isLaidOut_positional
  · exact d.isLaidOut_scientific

end Decimal

/-- **A finite double is written as a layout**, with a minus in front or without. -/
theorem numeralChars_of_isFinite {x : Binary64} (hx : x.isFinite = true) :
    ∃ (negative : Bool) (cs : List Char),
      x.numeralChars = signText negative ++ cs ∧ IsLaidOut cs := by
  cases x with
  | nan => cases hx
  | infinite s => cases hx
  | finite s n h =>
      rw [Binary64.numeralChars]
      split
      · have hzero : ∀ c ∈ ['0'], isNumeral c = true := by
          intro c hc
          rw [List.mem_singleton.1 hc]
          rfl
        exact ⟨false, ['0'], rfl, .plain (List.cons_ne_nil _ _) hzero⟩
      · exact ⟨s, _, rfl, (Decimal.shortest n).isLaidOut_text⟩

lemma numeralChars_of_isZero {x : Binary64} (h : x.isZero = true) : x.numeralChars = ['0'] := by
  cases x with
  | infinite s => cases h
  | nan => cases h
  | finite s n hn => exact if_pos (beq_iff_eq.1 h)

/-- The text of an infinity or of no number is that of no finite double: behind the sign of one
there stands a character of a number. -/
lemma isFinite_of_numeral_eq {x y : Binary64} (hx : x.isFinite = true)
    (h : y.numeral = x.numeral) : y.isFinite = true := by
  obtain ⟨negative, cs, hcs, hlaid⟩ := numeralChars_of_isFinite hx
  have hhead := hlaid.isNumeral_head
  have hchars : y.numeralChars = signText negative ++ cs := by
    rw [← hcs]
    exact String.ofList_injective h
  cases y with
  | finite s n h => rfl
  | nan =>
      cases negative with
      | false =>
          obtain rfl : ['N', 'a', 'N'] = cs := hchars
          exact absurd (hhead 'N' rfl) (by decide)
      | true => cases hchars
  | infinite s =>
      cases s <;> cases negative <;> cases hchars
      · exact absurd (hhead 'i' rfl) (by decide)
      · exact absurd (hhead '-' rfl) (by decide)
      · exact absurd (hhead 'i' rfl) (by decide)

end DeskCalculator
