import Mathlib.Data.List.DropRight
import DeskCalculator.Proofs.Decimal.Fewest
import DeskCalculator.Proofs.Decimal.Reading

/-!
The numerals of doubles are canonical, as short as possible, and tell the double.

* `IsPlain`, `IsScientific`: the two notations, with no zero that could be left out.
* `IsTrimmed`: digits that neither begin nor end in a zero. `Decimal.isPlain_positional`,
  `Decimal.isScientific_scientific`: a decimal with such digits is written so.
* `exactValue`: the rational number that a text stands for, without any rounding.
  `Decimal.magnitudeValue_text`: that of a decimal is the decimal.
* `significantDigits`: the digits of a text without the zeros in front and behind.
  `Decimal.significantDigits_text`: those of a decimal are its digits.
* `Binary64.IsRoundingOf`: a double is what a number is rounded to, with ties to even.
* `numeral_canonical`: what the numeral of a double is, for all of them.
-/

namespace DeskCalculator

/-! ### Notations -/

/-- Digits of a whole number, with no zero in front that could be left out. -/
structure IsWhole (ds : List Char) : Prop where
  ne : ds ≠ []
  digits : ∀ c ∈ ds, c.isDigit = true
  lead : ds.head? = some '0' → ds = ['0']

/-- Nothing, or a point and digits, the last of which is not zero. -/
inductive IsFraction : List Char → Prop
  | none : IsFraction []
  | point {fs : List Char} (ne : fs ≠ []) (digits : ∀ c ∈ fs, c.isDigit = true)
      (last : fs.getLast? ≠ some '0') : IsFraction ('.' :: fs)

/-- Plain notation: a whole number and a fraction, if there is one. -/
inductive IsPlain : List Char → Prop
  | mk {ws fs : List Char} (whole : IsWhole ws) (fraction : IsFraction fs) : IsPlain (ws ++ fs)

/-- Scientific notation: a digit that is not zero, a fraction, if there is one, and an exponent
that has a sign. -/
inductive IsScientific : List Char → Prop
  | mk {d sign : Char} {fs ks : List Char} (digit : d.isDigit = true) (lead : d ≠ '0')
      (fraction : IsFraction fs) (isSign : sign = '+' ∨ sign = '-') (exponent : IsWhole ks) :
      IsScientific (d :: (fs ++ 'e' :: sign :: ks))

/-- The digits of a number have no zero in front that could be left out. -/
lemma isWhole_decimalDigits (n : ℕ) : IsWhole (decimalDigits n) := by
  refine ⟨decimalDigits_ne_nil n, fun c => isDigit_of_mem_decimalDigits, fun hhead => ?_⟩
  by_cases h0 : n = 0
  · subst h0
    rfl
  · exact absurd hhead (head?_decimalDigits h0)

/-! ### Digits without outer zeros -/

/-- Digits that neither begin nor end in a zero. -/
structure IsTrimmed (ds : List Char) : Prop where
  ne : ds ≠ []
  digits : ∀ c ∈ ds, c.isDigit = true
  head : ds.head? ≠ some '0'
  last : ds.getLast? ≠ some '0'

lemma isTrimmed_decimalDigits {n : ℕ} (h : ¬ 10 ∣ n) : IsTrimmed (decimalDigits n) where
  ne := decimalDigits_ne_nil n
  digits := fun _ => isDigit_of_mem_decimalDigits
  head := head?_decimalDigits fun h0 => h (h0 ▸ Nat.dvd_zero 10)
  last := fun hlast => h (getLast?_decimalDigits_eq_zero_iff.1 hlast)

namespace IsTrimmed

variable {ds : List Char} (h : IsTrimmed ds)

include h

/-- Digits with zeros behind them are a whole number. -/
lemma isPlain_append_zeros (k : ℕ) : IsPlain (ds ++ zeros k) := by
  rw [← List.append_nil (ds ++ zeros k)]
  refine .mk ⟨List.append_ne_nil_of_left_ne_nil h.ne _, ?_, ?_⟩ .none
  · exact fun c hc => (List.mem_append.1 hc).elim (h.digits c) isDigit_of_mem_zeros
  · rw [List.head?_append_of_ne_nil _ h.ne]
    exact fun hhead => absurd hhead h.head

/-- Digits with a point among them are a whole number and a fraction. -/
lemma isPlain_point {k : ℕ} (hpos : 0 < k) (hlt : k < ds.length) :
    IsPlain (ds.take k ++ '.' :: ds.drop k) := by
  have hhead : (ds.take k).head? = ds.head? := by rw [List.head?_take, if_neg hpos.ne']
  have hlast : (ds.drop k).getLast? = ds.getLast? := by
    rw [List.getLast?_drop, if_neg (Nat.not_le.2 hlt)]
  refine .mk ⟨?_, fun c hc => h.digits c (List.mem_of_mem_take hc), ?_⟩
    (.point ?_ (fun c hc => h.digits c (List.mem_of_mem_drop hc)) ?_)
  · exact List.ne_nil_of_length_pos (by rw [List.length_take]; omega)
  · rw [hhead]
    exact fun hzero => absurd hzero h.head
  · exact List.ne_nil_of_length_pos (by rw [List.length_drop]; omega)
  · rw [hlast]
    exact h.last

lemma isPlain_zeros_append (k : ℕ) : IsPlain ('0' :: '.' :: (zeros k ++ ds)) := by
  change IsPlain (['0'] ++ '.' :: (zeros k ++ ds))
  refine .mk (isWhole_decimalDigits 0) (.point ?_ ?_ ?_)
  · exact List.append_ne_nil_of_right_ne_nil _ h.ne
  · exact fun c hc => (List.mem_append.1 hc).elim isDigit_of_mem_zeros (h.digits c)
  · rw [List.getLast?_append_of_ne_nil _ h.ne]
    exact h.last

/-- As a mantissa digits begin with one that is not zero. -/
lemma isScientific_mantissa {sign : Char} (hsign : sign = '+' ∨ sign = '-') {ks : List Char}
    (hks : IsWhole ks) : IsScientific (Decimal.mantissa ds ++ 'e' :: sign :: ks) := by
  obtain ⟨hne, hdigits, hhead, hlast⟩ := h
  rcases ds with _ | ⟨c, _ | ⟨c', ds⟩⟩
  · exact absurd rfl hne
  · exact .mk (hdigits c List.mem_cons_self) (fun hc => hhead (congrArg some hc)) .none hsign hks
  · have hrest : ∀ x ∈ c' :: ds, x.isDigit = true :=
      fun x hx => hdigits x (List.mem_cons_of_mem c hx)
    exact .mk (hdigits c List.mem_cons_self) (fun hc => hhead (congrArg some hc))
      (.point (List.cons_ne_nil _ _) hrest hlast) hsign hks

end IsTrimmed

namespace Decimal

variable {d : Decimal}

/-- A decimal with such digits has no zero that could be left out when it is written out in
full. -/
lemma isPlain_positional (h : IsTrimmed (decimalDigits d.digits)) : IsPlain d.positional := by
  simp only [positional]
  split
  · exact h.isPlain_append_zeros _
  · split
    · exact h.isPlain_point (by omega) (by omega)
    · exact h.isPlain_zeros_append _

lemma isScientific_scientific (h : IsTrimmed (decimalDigits d.digits)) :
    IsScientific d.scientific := by
  refine h.isScientific_mantissa ?_ (isWhole_decimalDigits _)
  split
  · exact Or.inr rfl
  · exact Or.inl rfl

end Decimal

/-! ### Exact values -/

/-- The number that digits with a point stand for. -/
def mantissaValue (run : List Char) : ℚ :=
  Nat.ofDigitChars 10 (run.filter Char.isDigit) 0 / 10 ^ placesAfterPoint run

/-- The whole number that digits with a sign stand for. -/
def exponentValue : List Char → ℤ
  | '-' :: ks => -Nat.ofDigitChars 10 ks 0
  | '+' :: ks => Nat.ofDigitChars 10 ks 0
  | ks => Nat.ofDigitChars 10 ks 0

/-- The number that a text without a sign stands for: a mantissa, and an exponent behind an `e`,
if there is one. -/
def magnitudeValue (cs : List Char) : ℚ :=
  mantissaValue (cs.takeWhile (· ≠ 'e')) * 10 ^ exponentValue ((cs.dropWhile (· ≠ 'e')).drop 1)

/-- The number that a text stands for. -/
def exactValue : List Char → ℚ
  | '-' :: cs => -magnitudeValue cs
  | cs => magnitudeValue cs

/-- The value of a literal is that of its digits. -/
lemma HasDigits.mantissaValue {run ds : List Char} {places : ℕ} (h : HasDigits run ds places) :
    mantissaValue run = Nat.ofDigitChars 10 ds 0 / 10 ^ places := by
  rw [DeskCalculator.mantissaValue, h.filter, h.places]

/-- What is not negative begins with no minus, and the value of anything else is the opposite. -/
lemma exactValue_signText (s : Bool) {cs : List Char} (h : ∀ c ∈ cs.head?, isNumeral c = true) :
    exactValue (signText s ++ cs) = if s then -magnitudeValue cs else magnitudeValue cs := by
  cases s with
  | true => rfl
  | false =>
      rw [signText, if_neg Bool.false_ne_true, List.nil_append, if_neg Bool.false_ne_true,
        exactValue]
      rintro ds rfl
      exact absurd (h '-' rfl) (by decide)

lemma exponentValue_exponentText (e : ℤ) : exponentValue (Decimal.exponentText e) = e := by
  rw [Decimal.exponentText]
  split
  case isTrue h =>
    rw [exponentValue, ofDigitChars_decimalDigits]
    omega
  case isFalse h =>
    rw [exponentValue, ofDigitChars_decimalDigits]
    omega

/-! ### Significant digits -/

/-- Digits without the zeros in front and behind. -/
def trimZeros (ds : List Char) : List Char := (ds.dropWhile (· = '0')).rdropWhile (· = '0')

/-- The digits of a text, without those of an exponent, and without the zeros in front and
behind. -/
def significantDigits (cs : List Char) : List Char :=
  trimZeros ((cs.takeWhile (· ≠ 'e')).filter Char.isDigit)

lemma dropWhile_zeros_append (k : ℕ) {ds : List Char} (h : ds.head? ≠ some '0') :
    (zeros k ++ ds).dropWhile (· = '0') = ds := by
  have hzeros : ∀ c ∈ zeros k, decide (c = '0') = true :=
    fun c hc => decide_eq_true (List.eq_of_mem_replicate hc)
  rw [List.dropWhile_append_of_pos hzeros]
  cases ds with
  | nil => rfl
  | cons c ds => exact List.dropWhile_cons_of_neg fun hc => h (by simpa using hc)

lemma IsTrimmed.trimZeros_eq {ds : List Char} (h : IsTrimmed ds) (j k : ℕ) :
    trimZeros (zeros j ++ (ds ++ zeros k)) = ds := by
  have hback : (zeros k ++ ds.reverse).dropWhile (· = '0') = ds.reverse := by
    refine dropWhile_zeros_append k ?_
    rw [List.head?_reverse]
    exact h.last
  have hfront : (ds ++ zeros k).head? ≠ some '0' := by
    rw [List.head?_append_of_ne_nil _ h.ne]
    exact h.head
  rw [trimZeros, dropWhile_zeros_append j hfront, List.rdropWhile, List.reverse_append, zeros,
    List.reverse_replicate, ← zeros, hback, List.reverse_reverse]

/-! ### Texts without an exponent -/

/-- No character of a number is an `e`, so an exponent is looked for behind them. -/
lemma takeWhile_numeral {cs : List Char} (h : ∀ c ∈ cs, isNumeral c = true) (ds : List Char) :
    (cs ++ ds).takeWhile (· ≠ 'e') = cs ++ ds.takeWhile (· ≠ 'e') ∧
      (cs ++ ds).dropWhile (· ≠ 'e') = ds.dropWhile (· ≠ 'e') := by
  have hne : ∀ c ∈ cs, decide (c ≠ 'e') = true := by
    intro c hc
    refine decide_eq_true ?_
    rintro rfl
    exact absurd (h 'e' hc) (by decide)
  exact ⟨List.takeWhile_append_of_pos hne, List.dropWhile_append_of_pos hne⟩

/-- Characters of a number have no exponent behind them. -/
lemma split_numeral {cs : List Char} (h : ∀ c ∈ cs, isNumeral c = true) :
    cs.takeWhile (· ≠ 'e') = cs ∧ cs.dropWhile (· ≠ 'e') = [] := by
  have hsplit := takeWhile_numeral h []
  rwa [List.append_nil, List.takeWhile_nil, List.append_nil] at hsplit

section Literal

variable {run ds : List Char} {places : ℕ} (h : HasDigits run ds places)
  (hrun : ∀ c ∈ run, isNumeral c = true)

include h hrun

/-- A literal without an exponent stands for its digits, with so many places. -/
lemma HasDigits.magnitudeValue :
    magnitudeValue run = Nat.ofDigitChars 10 ds 0 / 10 ^ places := by
  obtain ⟨htake, hdrop⟩ := split_numeral hrun
  rw [DeskCalculator.magnitudeValue, htake, hdrop, h.mantissaValue]
  change _ * (10 : ℚ) ^ (0 : ℤ) = _
  rw [zpow_zero, mul_one]

lemma HasDigits.significantDigits : significantDigits run = trimZeros ds := by
  rw [DeskCalculator.significantDigits, (split_numeral hrun).1, h.filter]

end Literal

namespace Decimal

/-! ### Texts of decimals -/

variable (d : Decimal)

/-- In scientific notation the mantissa stands in front of the `e`, and the exponent behind it. -/
lemma split_scientific :
    d.scientific.takeWhile (· ≠ 'e') = mantissa (decimalDigits d.digits) ∧
      d.scientific.dropWhile (· ≠ 'e') = 'e' :: exponentText d.leadingExponent := by
  have hmantissa : ∀ c ∈ mantissa (decimalDigits d.digits), isNumeral c = true :=
    fun c => isNumeral_of_mem_mantissa fun c => isDigit_of_mem_decimalDigits
  have h := takeWhile_numeral hmantissa ('e' :: exponentText d.leadingExponent)
  rwa [List.takeWhile_cons_of_neg (by decide), List.dropWhile_cons_of_neg (by decide),
    List.append_nil] at h

/-- Digits written out in full stand for the decimal. -/
lemma magnitudeValue_positional : magnitudeValue d.positional = d.toRat := by
  obtain ⟨k, h⟩ := d.hasDigits_positional
  have hexponent : d.exponent = (d.exponent.toNat : ℤ) - ((-d.exponent).toNat : ℤ) := by omega
  rw [h.magnitudeValue fun c => isNumeral_of_mem_positional, ofDigitChars_zeros_append,
    ofDigitChars_append_zeros, ofDigitChars_decimalDigits, toRat]
  conv_rhs => rw [hexponent]
  rw [zpow_sub₀ (by norm_num), Nat.cast_mul, cast_tenPow, zpow_natCast, zpow_natCast,
    mul_div_assoc]

lemma magnitudeValue_text : magnitudeValue d.text = d.toRat := by
  rw [text]
  split
  · exact d.magnitudeValue_positional
  · obtain ⟨htake, hdrop⟩ := d.split_scientific
    have h := hasDigits_mantissa (decimalDigits_ne_nil d.digits) fun c =>
      isDigit_of_mem_decimalDigits
    rw [magnitudeValue, htake, hdrop, h.mantissaValue, ofDigitChars_decimalDigits,
      List.drop_one, List.tail_cons, exponentValue_exponentText, toRat, leadingExponent]
    have hpos : 0 < (decimalDigits d.digits).length := Nat.length_toDigits_pos
    have hlength : ((decimalDigits d.digits).length : ℤ) - 1
        = ((decimalDigits d.digits).length - 1 : ℕ) := by omega
    rw [hlength, zpow_add₀ (by norm_num), zpow_natCast, ← mul_assoc,
      div_mul_cancel₀ _ (pow_ne_zero _ (by norm_num))]

/-- The significant digits of a decimal that is written out in full are its digits, if they have no
outer zeros. -/
lemma significantDigits_positional (htrimmed : IsTrimmed (decimalDigits d.digits)) :
    significantDigits d.positional = decimalDigits d.digits := by
  obtain ⟨k, h⟩ := d.hasDigits_positional
  rw [h.significantDigits fun c => isNumeral_of_mem_positional]
  exact htrimmed.trimZeros_eq k _

lemma significantDigits_text (htrimmed : IsTrimmed (decimalDigits d.digits)) :
    significantDigits d.text = decimalDigits d.digits := by
  rw [text]
  split
  · exact d.significantDigits_positional htrimmed
  · have h := hasDigits_mantissa htrimmed.ne htrimmed.digits
    rw [significantDigits, d.split_scientific.1, h.filter]
    have hsame := htrimmed.trimZeros_eq 0 0
    rwa [show zeros 0 = [] from rfl, List.nil_append, List.append_nil] at hsame

end Decimal

namespace Binary64

/-! ### Numerals of doubles -/

/-- A double is what a number is rounded to, with ties to even. -/
def IsRoundingOf : Binary64 → ℚ → Prop
  | finite s n _, q => IsNearestEven (signedQuanta s n) (q * quantaPerUnit)
  | _, _ => False

section Finite

variable {s : Bool} {n : ℕ} {h : Representable n}

lemma toList_numeral (hne : n ≠ 0) :
    (finite s n h).numeral.toList = signText s ++ (Decimal.shortest n).text := by
  rw [numeral, String.toList_ofList, numeralChars, if_neg hne]

/-- The numeral stands for the shortest decimal, with the sign. -/
lemma exactValue_numeral (hne : n ≠ 0) :
    exactValue (finite s n h).numeral.toList
      = if s then -(Decimal.shortest n).toRat else (Decimal.shortest n).toRat := by
  rw [toList_numeral hne, exactValue_signText s (Decimal.isLaidOut_text _).isNumeral_head,
    Decimal.magnitudeValue_text]

/-- The double is what its numeral is rounded to. -/
lemma isRoundingOf_numeral (hne : n ≠ 0) :
    (finite s n h).IsRoundingOf (exactValue (finite s n h).numeral.toList) := by
  have hrounded := (Decimal.shortest n).isNearestEven_quanta
  rw [Decimal.quanta_shortest h.2] at hrounded
  rw [exactValue_numeral hne]
  cases s with
  | false => exact hrounded
  | true =>
      have hneg := hrounded.neg
      rwa [← neg_mul] at hneg

/-- A decimal that rounds to a double does so without its sign. -/
lemma quanta_of_isRoundingOf {m e : ℤ} (hround : (finite s n h).IsRoundingOf (m * 10 ^ e)) :
    (⟨m.natAbs, e⟩ : Decimal).quanta = n := by
  have hquanta := (⟨m.natAbs, e⟩ : Decimal).isNearestEven_quanta
  rw [← natAbs_signedQuanta s n]
  have hmagnitude : (⟨m.natAbs, e⟩ : Decimal).toRat = (m.natAbs : ℤ) * 10 ^ e := by
    rw [Decimal.toRat, Int.cast_natCast]
  rw [hmagnitude] at hquanta
  rcases Int.natAbs_eq m with hm | hm
  · rw [← hm] at hquanta
    rw [IsNearestEven.unique hround hquanta, Int.natAbs_natCast]
  · have hneg := hquanta.neg
    rw [← neg_mul, ← neg_mul, ← Int.cast_neg, ← hm] at hneg
    rw [IsNearestEven.unique hround hneg, Int.natAbs_neg, Int.natAbs_natCast]

/-- The significant digits of a numeral are the digits of the shortest decimal. -/
lemma significantDigits_numeral (hne : n ≠ 0) :
    significantDigits (finite s n h).numeral.toList
      = decimalDigits (Decimal.shortest n).digits := by
  have hsign (cs : List Char) : significantDigits (signText s ++ cs) = significantDigits cs := by
    cases s <;> rfl
  rw [toList_numeral hne, hsign, Decimal.significantDigits_text _
    (isTrimmed_decimalDigits (Decimal.not_ten_dvd_digits_shortest h hne))]

/-- The shortest decimal is written in the notation that its size calls for. -/
lemma isPlain_or_isScientific_text (hne : n ≠ 0) :
    ((finite s n h).IsWrittenOut → IsPlain (Decimal.shortest n).text) ∧
      (¬ (finite s n h).IsWrittenOut → IsScientific (Decimal.shortest n).text) := by
  have htrimmed := isTrimmed_decimalDigits (Decimal.not_ten_dvd_digits_shortest h hne)
  rw [← writtenOut_shortest_iff s h hne, Decimal.text]
  refine ⟨fun hwritten => ?_, fun hwritten => ?_⟩
  · rw [if_pos hwritten]
    exact Decimal.isPlain_positional htrimmed
  · rw [if_neg hwritten]
    exact Decimal.isScientific_scientific htrimmed

lemma numeral_ne_zero (hne : n ≠ 0) : (finite s n h).numeral ≠ "0" := by
  intro hzero
  have hdigits := significantDigits_numeral (s := s) (h := h) hne
  rw [hzero] at hdigits
  exact decimalDigits_ne_nil _ hdigits.symm

lemma eq_of_numeral_eq (hne : n ≠ 0) {y : Binary64} (hy : y.isFinite = true)
    (heq : y.numeral = (finite s n h).numeral) : y = finite s n h := by
  cases y with
  | infinite t => cases hy
  | nan => cases hy
  | finite t m hm =>
      have hne' : m ≠ 0 := by
        rintro rfl
        exact numeral_ne_zero hne heq.symm
      have hround := isRoundingOf_numeral (s := t) (h := hm) hne'
      rw [heq] at hround
      have hsigned : signedQuanta t m = signedQuanta s n :=
        IsNearestEven.unique hround (isRoundingOf_numeral hne)
      obtain rfl : m = n := by
        rw [← natAbs_signedQuanta t m, hsigned, natAbs_signedQuanta]
      obtain rfl : t = s := by
        cases t <;> cases s <;> simp [signedQuanta] at hsigned ⊢ <;> omega
      rfl

lemma length_significantDigits_le (hne : n ≠ 0) {m e : ℤ} {l : ℕ} (hl : m.natAbs < 10 ^ l)
    (hround : (finite s n h).IsRoundingOf (m * 10 ^ e)) :
    (significantDigits (finite s n h).numeral.toList).length ≤ l := by
  have hquanta := quanta_of_isRoundingOf hround
  have hpos : 0 < l := by
    refine Nat.pos_of_ne_zero ?_
    rintro rfl
    exact hne (hquanta ▸ Decimal.quanta_of_digits_eq_zero (by simpa using hl))
  rw [significantDigits_numeral hne]
  exact (Decimal.length_shortest_le h hne hquanta).trans
    ((Nat.length_toDigits_le_iff (by decide) hpos).2 hl)

end Finite

end Binary64

/-- **The numeral of a finite double is canonical, as short as possible, and tells the double.**

* It is `0` exactly for the two zeros.
* Any other double has a minus in front exactly if it is negative. Then, from a millionth up to,
  but not including, `10^21`, it is in plain notation, and else in scientific notation, in either
  of which no zero could be left out.
* Read as an exact decimal and rounded to the nearest double, with ties to even, it gives the
  double back; so no other finite double has the same numeral.
* No decimal with fewer significant digits is rounded to the double. -/
theorem numeral_canonical {x : Binary64} (hx : x.isFinite = true) :
    (x.numeral = "0" ↔ x.isZero = true) ∧
    (x.isZero = false →
      (∃ cs, x.numeral.toList = signText x.isBelowZero ++ cs ∧
        (x.IsWrittenOut → IsPlain cs) ∧ (¬ x.IsWrittenOut → IsScientific cs)) ∧
      x.IsRoundingOf (exactValue x.numeral.toList) ∧
      (∀ y : Binary64, y.isFinite = true → y.numeral = x.numeral → y = x) ∧
      ∀ (m e : ℤ) (l : ℕ), m.natAbs < 10 ^ l → x.IsRoundingOf (m * 10 ^ e) →
        (significantDigits x.numeral.toList).length ≤ l) := by
  cases x with
  | infinite s => cases hx
  | nan => cases hx
  | finite s n h =>
      by_cases hne : n = 0
      · subst hne
        exact ⟨⟨fun _ => rfl, fun _ => rfl⟩, fun hzero => Bool.noConfusion hzero⟩
      have hzero : (Binary64.finite s n h).isZero = false := beq_eq_false_iff_ne.2 hne
      have hround := Binary64.isRoundingOf_numeral (s := s) (h := h) hne
      refine ⟨?_, fun _ => ⟨⟨_, ?_, Binary64.isPlain_or_isScientific_text hne⟩, hround, ?_, ?_⟩⟩
      · rw [hzero]
        exact ⟨fun heq => absurd heq (Binary64.numeral_ne_zero hne), fun h => Bool.noConfusion h⟩
      · have hsign : (Binary64.finite s n h).isBelowZero = s := by
          rw [Binary64.isBelowZero, bne_iff_ne.2 hne, Bool.and_true]
        rw [Binary64.toList_numeral hne, hsign]
      · exact fun y hy heq => Binary64.eq_of_numeral_eq hne hy heq
      · exact fun m e l hl hround => Binary64.length_significantDigits_le hne hl hround

/-- So the negative double next to zero is written in scientific notation behind a minus. -/
theorem numeral_canonical_of_least :
    let x := Binary64.ofBits 0x8000000000000001
    x.numeral ≠ "0" ∧ (∃ cs, x.numeral.toList = '-' :: cs ∧ IsScientific cs) ∧
      x.IsRoundingOf (exactValue x.numeral.toList) := by
  intro x
  have hzero : x.isZero = false := by decide +kernel
  have hsmall : ¬ x.IsWrittenOut := by decide +kernel
  have hnegative : x.isBelowZero = true := by decide +kernel
  obtain ⟨hiff, hother⟩ := numeral_canonical (x := x) (by decide +kernel)
  obtain ⟨⟨cs, hcs, -, hscientific⟩, hround, -⟩ := hother hzero
  rw [hnegative] at hcs
  refine ⟨fun h => ?_, ⟨cs, hcs, hscientific hsmall⟩, hround⟩
  rw [hiff.1 h] at hzero
  cases hzero

end DeskCalculator
