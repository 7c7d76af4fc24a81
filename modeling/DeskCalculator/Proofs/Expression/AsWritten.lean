import DeskCalculator.Proofs.Decimal.FewDigits
import DeskCalculator.Proofs.Decimal.Plain
import DeskCalculator.Proofs.Expression.Signed

/-!
Numbers that are answered as they are written.

A number in plain notation is some decimal written out in full. If that has 15 digits at most and is
not too small or great, it is the shortest one of the double that the number is read as, and so is
written again.

* `readLiteral?_of_isPlain`: what such a number is read as. `answer_signed`: the answer to a literal
  with a sign.
* `answer_digits`: the answer to a run of digits, which may have zeros in front.
* `short_numbers_as_written`: all short numbers.
-/

namespace DeskCalculator

-- the powers are never to be evaluated here
attribute [local irreducible] twoPow tenPow

/-- A short number in plain notation, from a millionth up to `10^21`, is read as a double that is
written in the same way. -/
theorem readLiteral?_of_isPlain {cs : List Char} (h : IsPlain cs)
    (hfew : (significantDigits cs).length ≤ 15) (hleast : 1 / 10 ^ 6 ≤ magnitudeValue cs)
    (hend : magnitudeValue cs < 10 ^ 21) :
    ∃ (n : ℕ) (hn : Representable n), n ≠ 0 ∧ readLiteral? cs = some (.finite false n hn) ∧
      (Decimal.shortest n).text = cs := by
  have hne : cs ≠ ['0'] := by
    rintro rfl
    have hzero : magnitudeValue ['0'] = 0 := by decide +kernel
    rw [hzero] at hleast
    norm_num at hleast
  obtain ⟨d, htrimmed, rfl⟩ := h.exists_decimal hne
  rw [d.significantDigits_positional htrimmed] at hfew
  rw [d.magnitudeValue_positional] at hleast hend
  have hten : ¬ 10 ∣ d.digits := fun hdvd =>
    htrimmed.last (getLast?_decimalDigits_eq_zero_iff.2 hdvd)
  have hdigits : d.digits < 2 ^ 50 := by
    have hsmall : tenPow 15 < 2 ^ 50 := by decide +kernel
    exact (d.digits_lt.trans_le (tenPow_le hfew)).trans hsmall
  have hne : d.digits ≠ 0 := fun h0 => hten (h0 ▸ Nat.dvd_zero 10)
  obtain ⟨hbits, hrange⟩ := Decimal.quanta_mem hne hleast hend
  have hn : Representable d.quanta := ⟨hrange, grain_nearest_dvd _ _⟩
  refine ⟨d.quanta, hn, ((twoPow_pos 53).trans_le hbits).ne', ?_,
    Decimal.text_shortest_quanta hten hdigits hleast hend⟩
  rw [d.readLiteral?_positional]
  exact congrArg some (Binary64.ofQuotient_eq rfl hn)

/-- A literal that is not zero, with its sign, is answered with the shortest decimal of its double,
behind the sign. -/
lemma answer_signed (negative : Bool) {run : List Char} {n : ℕ} {h : Representable n}
    (hrun : ∀ c ∈ run, isNumeral c = true) (hx : readLiteral? run = some (.finite false n h))
    (hne : n ≠ 0) :
    answer (.ofList (signText negative ++ run))
      = .ok (.ofList (signText negative ++ (Decimal.shortest n).text)) := by
  have hnil : run ≠ [] := by
    rintro rfl
    cases hx
  have hvalue := value_signed negative hnil hrun hx rfl
  have hsigned : (if negative = true then -Binary64.finite false n h else .finite false n h)
      = .finite negative n h := by
    cases negative <;> rfl
  rw [hsigned] at hvalue
  refine map_eq_ok_iff.2 ⟨_, hvalue, ?_⟩
  rw [Binary64.numeral, Binary64.numeralChars, if_neg hne]

/-! ### Runs of digits -/

/-- A run of zeros is answered with one. -/
lemma answer_zeros {k : ℕ} (hk : k ≠ 0) : answer (.ofList (zeros k)) = .ok (.ofList ['0']) := by
  have hnil : zeros k ≠ [] := by rwa [zeros, Ne, List.replicate_eq_nil_iff]
  have hread : readLiteral? (zeros k) = some (.zero false) := by
    have hnumber : Nat.ofDigitChars 10 (zeros k) 0 = 0 := by
      have happend := ofDigitChars_zeros_append k []
      rwa [List.append_nil] at happend
    rw [(hasDigits_digits hnil fun c => isDigit_of_mem_zeros).readLiteral?, hnumber]
    decide +kernel
  exact map_eq_ok_iff.2
    ⟨_, value_signed false hnil (fun c => isNumeral_of_mem_zeros) hread rfl, rfl⟩

section Digits

variable {ds : List Char} (hne : ds ≠ []) (hdigits : ∀ c ∈ ds, c.isDigit = true)
  (hhead : ds.head? ≠ some '0')

include hne hdigits hhead

lemma literal_zeros_append (k : ℕ) :
    readLiteral? (zeros k ++ ds) = readLiteral? ds ∧
      significantDigits (zeros k ++ ds) = significantDigits ds := by
  have hdigits' : ∀ c ∈ zeros k ++ ds, c.isDigit = true :=
    fun c hc => (List.mem_append.1 hc).elim isDigit_of_mem_zeros (hdigits c)
  have hne' : zeros k ++ ds ≠ [] := List.append_ne_nil_of_right_ne_nil _ hne
  have h := hasDigits_digits hne hdigits
  have h' := hasDigits_digits hne' hdigits'
  constructor
  · rw [h'.readLiteral?, ofDigitChars_zeros_append, h.readLiteral?]
  · rw [h'.significantDigits fun c hc => isNumeral_of_isDigit (hdigits' c hc),
      h.significantDigits fun c hc => isNumeral_of_isDigit (hdigits c hc), trimZeros,
      dropWhile_zeros_append k hhead, trimZeros, show ds = zeros 0 ++ ds from rfl,
      dropWhile_zeros_append 0 hhead]
    rfl

lemma answer_zeros_append (k : ℕ) (hfew : (significantDigits ds).length ≤ 15)
    (hlt : Nat.ofDigitChars 10 ds 0 < 10 ^ 21) :
    answer (.ofList (zeros k ++ ds)) = .ok (.ofList ds) := by
  have hnumeral : ∀ c ∈ ds, isNumeral c = true := fun c hc => isNumeral_of_isDigit (hdigits c hc)
  have hplain : IsPlain ds := by
    have hwhole : IsWhole ds := ⟨hne, hdigits, fun hzero => absurd hzero hhead⟩
    have happend := IsPlain.mk hwhole .none
    rwa [List.append_nil] at happend
  have hvalue : magnitudeValue ds = Nat.ofDigitChars 10 ds 0 := by
    rw [(hasDigits_digits hne hdigits).magnitudeValue hnumeral, pow_zero, div_one]
  have hone : 1 ≤ Nat.ofDigitChars 10 ds 0 := by
    refine Nat.one_le_iff_ne_zero.2 fun hzero => hhead ?_
    rw [← decimalDigits_ofDigitChars hne hdigits hhead, hzero]
    rfl
  obtain ⟨n, hn, hn0, hread, htext⟩ := readLiteral?_of_isPlain hplain hfew
    (by rw [hvalue]; exact le_trans (by norm_num) (Nat.one_le_cast.2 hone))
    (by rw [hvalue]; exact_mod_cast hlt)
  have hrun : ∀ c ∈ zeros k ++ ds, isNumeral c = true :=
    fun c hc => (List.mem_append.1 hc).elim isNumeral_of_mem_zeros (hnumeral c)
  have hanswer := answer_signed false hrun
    ((literal_zeros_append hne hdigits hhead k).1.trans hread) hn0
  rwa [htext] at hanswer

end Digits

/-- **A short run of digits is answered without the zeros in front**, or with one zero if there is
nothing else. -/
theorem answer_digits {ds : List Char} (hne : ds ≠ []) (hdigits : ∀ c ∈ ds, c.isDigit = true)
    (hfew : (significantDigits ds).length ≤ 15) (hlt : Nat.ofDigitChars 10 ds 0 < 10 ^ 21) :
    answer (.ofList ds)
      = .ok (.ofList (if ds.all (· = '0') then ['0'] else ds.dropWhile (· = '0'))) := by
  obtain ⟨k, rest, rfl, hhead⟩ := exists_zeros_append ds
  rw [dropWhile_zeros_append k hhead]
  by_cases hrest : rest = []
  · rw [hrest, List.append_nil] at hne ⊢
    have hzeros : (zeros k).all (· = '0') = true :=
      List.all_eq_true.2 fun c hc => decide_eq_true (List.eq_of_mem_replicate hc)
    have hk : k ≠ 0 := by
      rintro rfl
      exact hne rfl
    rw [if_pos hzeros, answer_zeros hk]
  · have hdigits' : ∀ c ∈ rest, c.isDigit = true :=
      fun c hc => hdigits c (List.mem_append_right _ hc)
    have hnot : ¬ (zeros k ++ rest).all (· = '0') = true := by
      intro hzeros
      obtain ⟨c, rest, rfl⟩ := List.exists_cons_of_ne_nil hrest
      have hc := List.all_eq_true.1 hzeros c (List.mem_append_right _ List.mem_cons_self)
      exact hhead (congrArg some (of_decide_eq_true hc))
    rw [(literal_zeros_append hrest hdigits' hhead k).2] at hfew
    rw [ofDigitChars_zeros_append] at hlt
    rw [if_neg hnot, answer_zeros_append hrest hdigits' hhead k hfew hlt]

/-! ### Short numbers -/

/-- **Short numbers are answered as they are written.** A number in plain notation with 15
significant digits at most, from a millionth up to, but not including, `10^21`, with a minus in
front or without, is the answer to itself, and so is zero. A run of digits, 15 of them significant
at most, below `10^21` is answered without the zeros in front, or with one zero if it has nothing
else. -/
theorem short_numbers_as_written :
    (∀ (negative : Bool) (cs : List Char), IsPlain cs → (significantDigits cs).length ≤ 15 →
      1 / 10 ^ 6 ≤ magnitudeValue cs → magnitudeValue cs < 10 ^ 21 →
        answer (.ofList (signText negative ++ cs)) = .ok (.ofList (signText negative ++ cs))) ∧
    answer "0" = .ok "0" ∧
    ∀ ds : List Char, ds ≠ [] → (∀ c ∈ ds, c.isDigit = true) →
      (significantDigits ds).length ≤ 15 → Nat.ofDigitChars 10 ds 0 < 10 ^ 21 →
        answer (.ofList ds)
          = .ok (.ofList (if ds.all (· = '0') then ['0'] else ds.dropWhile (· = '0'))) := by
  refine ⟨fun negative cs h hfew hleast hend => ?_, ?_, fun ds hne hdigits hfew hlt => ?_⟩
  · obtain ⟨n, hn, hn0, hread, htext⟩ := readLiteral?_of_isPlain h hfew hleast hend
    have hanswer := answer_signed negative h.isNumeral hread hn0
    rwa [htext] at hanswer
  · have hzero : "0" = .ofList (zeros 1) := rfl
    rw [hzero]
    exact answer_zeros one_ne_zero
  · exact answer_digits hne hdigits hfew hlt

/-- So is a negative number with zeros behind its point, and a run of digits loses the zeros in
front of it but not those behind. -/
theorem short_numbers_as_written_of_small_and_whole :
    answer "-0.00125" = .ok "-0.00125" ∧ answer "0012000" = .ok "12000" ∧
      answer "000" = .ok "0" := by
  obtain ⟨hplain, -, hdigits⟩ := short_numbers_as_written
  have hsmall : IsPlain ['0', '.', '0', '0', '1', '2', '5'] :=
    @IsPlain.mk ['0'] _ ⟨by decide, List.all_eq_true.1 (by decide), fun _ => rfl⟩
      (.point (by decide) (List.all_eq_true.1 (by decide)) (by decide))
  exact ⟨hplain true _ hsmall (by decide) (by decide +kernel) (by decide +kernel),
    hdigits ['0', '0', '1', '2', '0', '0', '0'] (by decide) (List.all_eq_true.1 (by decide))
      (by decide) (by decide),
    hdigits ['0', '0', '0'] (by decide) (List.all_eq_true.1 (by decide)) (by decide) (by decide)⟩

end DeskCalculator
