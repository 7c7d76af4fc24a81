import DeskCalculator.Expression.Transform
import DeskCalculator.Proofs.Binary64.Range
import DeskCalculator.Proofs.Decimal.Reading
import DeskCalculator.Proofs.Decimal.Whole
import DeskCalculator.Proofs.Expression.Nesting

/-!
Transforms of the value of an expression.

A percentage and a square can also be written as an expression, which has the text that they are
applied to in parentheses. The tokens of that are those of a group, so the readers meet the same sum
one level deeper, and its value is scaled by the same arithmetic.

* `tokens_strip_grouped`, `value_scaled`: a text in parentheses, and the value of two operands, one
  scaled by the other.
* `percentage_and_square_written_out`: both transforms are the answers to their expressions.
* `Transform.AnswersWith`: a transform succeeds with a finite double.
* `transform_failures`: when transforms fail, and for which cause.
-/

namespace DeskCalculator

open Grammar

-- the powers are never to be evaluated here
attribute [local irreducible] twoPow

/-! ### Transforms written out -/

/-- The numeral that a transform answers with is that of the transformed value, if that is
finite. -/
lemma Transform.fst_answer {text : String} {v : Binary64} (t : Transform)
    (hv : value text = .ok v) :
    Prod.fst <$> t.answer text
      = (·.numeral) <$> (t.transformed v >>= requireFinite) := by
  rw [answer, hv, ok_bind]
  cases t.transformed v with
  | error r => rfl
  | ok w =>
      rw [ok_bind, ok_bind]
      cases requireFinite w <;> rfl

lemma toList_strip_append (a b : String) :
    (strip (a ++ b)).toList = (strip a).toList ++ (strip b).toList := by
  rw [strip, strip, strip, String.toList_ofList, String.toList_ofList, String.toList_ofList,
    String.toList_append, List.filter_append]

/-- The tokens of a text in parentheses are those of a group. -/
lemma tokens_strip_grouped {text : String} {s : Sum}
    (hs : tokens (strip text).toList = .ok s.tokens) :
    tokens (strip ("(" ++ text ++ ")")).toList = .ok (Operand.grouped s).tokens := by
  have hopening : (strip "(").toList = ['('] := by decide
  have hclosing : (strip ")").toList = [')'] := by decide
  rw [toList_strip_append, toList_strip_append, hopening, hclosing]
  exact tokens_grouped hs

/-- Two operands with a scaling between them have the one scaled by the other as their value. -/
lemma value_scaled {a b : String} {op : Scaling} {o o' : Operand}
    (ha : tokens (strip a).toList = .ok o.tokens) (hb : tokens (strip b).toList = .ok o'.tokens)
    (hn : o.nesting ≤ maxLevels) (hn' : o'.nesting ≤ maxLevels) (hd : (o.scaled op o').Defined) :
    value (a ++ (.singleton op.operator.char ++ b)) = requireFinite (op.join o.value o'.value) := by
  have hop : (strip (.singleton op.operator.char)).toList = [op.operator.char] := by
    cases op <;> decide
  have htokens : tokens (strip (a ++ (.singleton op.operator.char ++ b))).toList
      = .ok (o.scaled op o').tokens := by
    rw [toList_strip_append, toList_strip_append, hop, Operand.tokens_scaled]
    exact tokens_around (isNumeral_operator _) (tokens_operator _) ha hb
  have hnesting : (o.scaled op o').nesting ≤ maxLevels := by
    rw [Operand.nesting_scaled]
    exact max_le hn hn'
  rw [value_of_tokens_eq htokens]
  exact valueWithin_tokens hnesting hd

/-- A text that has a value divides by no zero, and its value is that of its sum. -/
lemma defined_of_value {text : String} {v : Binary64} {s : Sum}
    (hs : tokens (strip text).toList = .ok s.tokens) (hv : value text = .ok v) :
    s.Defined ∧ s.value = v := by
  rw [value_of_tokens_eq hs, valueOfTokens, valueWithin_eq_ok_iff] at hv
  obtain ⟨s', hs', -, hd, hvalue, -⟩ := hv
  obtain rfl := Sum.tokens_injective hs'
  exact ⟨hd, hvalue⟩

/-- **A percentage and a square are what the expressions for them come to.** Take a text, with any
other characters between, that has a value and is nested no deeper than 255 levels. Its percentage
is the answer to the text in parentheses divided by 100, and its square the answer to the text in
parentheses multiplied by the same: there is the same numeral, or a failure for the same cause. -/
theorem percentage_and_square_written_out {text : String} {v : Binary64} {s : Sum}
    (hv : value text = .ok v) (hs : tokens (strip text).toList = .ok s.tokens)
    (hn : s.nesting ≤ 255) :
    Prod.fst <$> Transform.percentage.answer text = answer ("(" ++ text ++ ")/100") ∧
    Prod.fst <$> Transform.square.answer text
      = answer ("(" ++ text ++ ")*(" ++ text ++ ")") := by
  have hgroup := tokens_strip_grouped hs
  have hdeep : (Operand.grouped s).nesting ≤ maxLevels := Nat.succ_le_succ hn
  obtain ⟨hd, rfl⟩ := defined_of_value hs hv
  constructor
  · have hhundred : tokens (strip "100").toList = .ok (Operand.number (.ofNat 100)).tokens := by
      decide +kernel
    have hzero : (Binary64.ofNat 100).isZero = false := by decide +kernel
    have hallows : Scaling.divide.Allows (.ofNat 100) := fun _ => hzero
    have htext : "(" ++ text ++ ")/100"
        = "(" ++ text ++ ")" ++ (.singleton Scaling.divide.operator.char ++ "100") := by
      rw [← String.toList_inj]
      simp [Scaling.operator, Operator.char]
    rw [Transform.fst_answer _ hv, answer, htext, value_scaled hgroup hhundred hdeep (by decide)
      ⟨⟨hd, trivial, hallows, trivial⟩, trivial⟩]
    rfl
  · have htext : "(" ++ text ++ ")*(" ++ text ++ ")"
        = "(" ++ text ++ ")"
          ++ (.singleton Scaling.times.operator.char ++ ("(" ++ text ++ ")")) := by
      rw [← String.toList_inj]
      simp [Scaling.operator, Operator.char]
    have hallows : Scaling.times.Allows s.value := by
      intro hdivide
      cases hdivide
    rw [Transform.fst_answer _ hv, answer, htext, value_scaled hgroup hgroup hdeep hdeep
      ⟨⟨hd, hd, hallows, trivial⟩, trivial⟩]
    rfl

/-- So the expressions for 200, which is written with a space, come to its percentage and its
square. -/
theorem percentage_and_square_written_out_of_two_hundred :
    answer "(2 00)/100" = .ok "2" ∧ answer "(2 00)*(2 00)" = .ok "40000" := by
  have hv : value "2 00" = .ok (.ofNat 200) := by decide +kernel
  have hs : tokens (strip "2 00").toList = .ok (Operand.number (.ofNat 200)).alone.tokens := by
    decide +kernel
  obtain ⟨hpercentage, hsquare⟩ := percentage_and_square_written_out hv hs (by decide)
  rw [Transform.fst_answer _ hv] at hpercentage hsquare
  have hdivided : Transform.percentage.transformed (.ofNat 200) >>= requireFinite
      = .ok (.ofNat 2) := by decide +kernel
  have hmultiplied : Transform.square.transformed (.ofNat 200) >>= requireFinite
      = .ok (.ofNat 40000) := by decide +kernel
  have hwritten {k : ℕ} (hk : k ≤ exactLimit) :
      (·.numeral) <$> (.ok (.ofNat k) : Except Reason Binary64) = .ok (toString (k : ℤ)) := by
    have habs : (k : ℤ).natAbs ≤ exactLimit := by rwa [Int.natAbs_natCast]
    refine map_eq_ok_iff.2 ⟨_, rfl, ?_⟩
    exact Binary64.numeral_of_represents (Binary64.represents_ofNat hk) habs
  have hquotient : "(2 00)/100" = "(" ++ "2 00" ++ ")/100" := by decide
  have hproduct : "(2 00)*(2 00)" = "(" ++ "2 00" ++ ")*(" ++ "2 00" ++ ")" := by decide
  constructor
  · rw [hquotient, ← hpercentage, hdivided, hwritten (by decide +kernel)]
    rfl
  · rw [hproduct, ← hsquare, hmultiplied, hwritten (by decide +kernel)]
    rfl

/-! ### Failures of transforms -/

/-- A transform of a text succeeds with a finite double: it answers with the numeral of that and
the note of it. -/
def Transform.AnswersWith (t : Transform) (text : String) (w : Binary64) : Prop :=
  w.isFinite = true ∧ t.answer text = .ok (w.numeral, t.note text w.numeral)

section Failures

variable {t : Transform} {text : String} {v w : Binary64} {r : Reason}

/-- Of a text without a value there is no transform. -/
lemma Transform.answer_of_value_error (t : Transform) (h : value text = .error r) :
    t.answer text = .error r := by
  rw [answer, h, error_bind]

/-- A transform fails when the value has no transformed one. -/
lemma Transform.answer_of_transformed_error (hv : value text = .ok v)
    (h : t.transformed v = .error r) : t.answer text = .error r := by
  rw [answer, hv, ok_bind, h, error_bind]

lemma Transform.answersWith (hv : value text = .ok v) (hw : t.transformed v = .ok w)
    (hf : w.isFinite = true) : t.AnswersWith text w := by
  refine ⟨hf, ?_⟩
  rw [answer, hv, ok_bind, hw, ok_bind, requireFinite_eq_ok_iff.2 ⟨rfl, hf⟩, ok_bind]

lemma Transform.answer_of_not_finite (hv : value text = .ok v) (hw : t.transformed v = .ok w)
    (hf : w.isFinite ≠ true) : t.answer text = .error .notFinite := by
  rw [answer, hv, ok_bind, hw, ok_bind, requireFinite, if_neg hf, error_bind]

lemma Transform.exists_of_answer {result note : String}
    (h : t.answer text = .ok (result, note)) :
    ∃ w : Binary64, w.isFinite = true ∧ w.numeral = result := by
  obtain ⟨v, -, h⟩ := bind_eq_ok_iff.1 h
  obtain ⟨w, -, h⟩ := bind_eq_ok_iff.1 h
  obtain ⟨w', hw, h⟩ := bind_eq_ok_iff.1 h
  exact ⟨w', (requireFinite_eq_ok_iff.1 hw).2, congrArg Prod.fst (Except.ok.inj h)⟩

end Failures

/-- **When transforms fail.** If a text has no value, every transform of it fails for the same
cause. Otherwise the percentage always succeeds; the square root fails exactly for what is below
zero, and for it, and is 0 for either zero; and the square fails exactly when the exact square is
not below the middle between the greatest double and the next power of two, and because it is not
finite. What is answered is never the text of an infinity or of no number. -/
theorem transform_failures (text : String) :
    (∀ (t : Transform) (r : Reason), value text = .error r → t.answer text = .error r) ∧
    (∀ v : Binary64, value text = .ok v →
      Transform.percentage.AnswersWith text (v / .ofNat 100) ∧
      (v.toRat < 0 → Transform.squareRoot.answer text = .error .rootOfNegative) ∧
      (0 ≤ v.toRat → Transform.squareRoot.AnswersWith text v.sqrt) ∧
      (v.toRat = 0 → v.sqrt.numeral = "0") ∧
      (2 ^ 1024 - 2 ^ 970 ≤ v.toRat ^ 2 → Transform.square.answer text = .error .notFinite) ∧
      (v.toRat ^ 2 < 2 ^ 1024 - 2 ^ 970 → Transform.square.AnswersWith text (v * v))) ∧
    ∀ (t : Transform) (result note : String), t.answer text = .ok (result, note) →
      ∀ x : Binary64, x.numeral = result → x.isFinite = true := by
  refine ⟨fun t r h => t.answer_of_value_error h, fun v hv => ?_, fun t result note h x hx => ?_⟩
  · have hf : v.isFinite = true := isFinite_of_value hv
    have hsquare := Binary64.isFinite_mul_iff hf hf
    rw [← pow_two, abs_of_nonneg (sq_nonneg _)] at hsquare
    refine ⟨?_, fun hlt => ?_, fun hge => ?_, fun hzero => ?_, fun hge => ?_, fun hlt => ?_⟩
    · have hhundred : quantaPerUnit ≤ (Binary64.ofNat 100).magnitude := by decide +kernel
      exact Transform.answersWith hv rfl (Binary64.isFinite_div hf (by decide +kernel) hhundred)
    · refine Transform.answer_of_transformed_error hv ?_
      rw [Transform.transformed, if_pos ((Binary64.isBelowZero_iff hf).2 hlt)]
    · have hnot : v.isBelowZero ≠ true := fun h => hge.not_gt ((Binary64.isBelowZero_iff hf).1 h)
      refine Transform.answersWith hv ?_ (Binary64.isFinite_sqrt hf (Bool.eq_false_iff.2 hnot))
      rw [Transform.transformed, if_neg hnot]
    · have hroot := Binary64.isZero_sqrt ((Binary64.isZero_iff hf).2 hzero)
      rw [Binary64.numeral, numeralChars_of_isZero hroot]
    · exact Transform.answer_of_not_finite hv rfl fun h => hge.not_gt (hsquare.1 h)
    · exact Transform.answersWith hv rfl (hsquare.2 hlt)
  · obtain ⟨w, hw, rfl⟩ := Transform.exists_of_answer h
    exact isFinite_of_numeral_eq hw hx

/-- So nothing is the square root of -4, zero is that of its negative, the square of `10^155` is too
great, and there is no percentage of a division by zero. -/
theorem transform_failures_of_four_and_zero :
    Transform.squareRoot.answer "-4" = .error .rootOfNegative ∧
    Transform.squareRoot.answer "-0" = .ok ("0", "√(-0) = 0") ∧
    Transform.square.answer (.ofList (decimalDigits (tenPow 155))) = .error .notFinite ∧
    Transform.percentage.answer "1/0" = .error .zeroDivisor := by
  have hfour : value "-4" = .ok (-.ofNat 4) := by decide +kernel
  have hzero : value "-0" = .ok (.zero true) := by decide +kernel
  have hwhole {n : ℕ} (hf : (Binary64.ofNat n).isFinite = true) :
      value (.ofList (decimalDigits n)) = .ok (.ofNat n) := by
    have hvalue := value_signed false (decimalDigits_ne_nil n)
      (fun c => isNumeral_of_mem_decimalDigits) (readLiteral?_decimalDigits n) hf
    rwa [signText, if_neg Bool.false_ne_true, List.nil_append, if_neg Bool.false_ne_true] at hvalue
  have hfinite : (Binary64.ofNat (tenPow 155)).isFinite = true := by decide +kernel
  have hgreat : (2 : ℚ) ^ 512 ≤ |(Binary64.ofNat (tenPow 155)).toRat| := by
    have hmagnitude : 2 ^ 512 * quantaPerUnit ≤ (Binary64.ofNat (tenPow 155)).magnitude := by
      decide +kernel
    rw [Binary64.abs_toRat, le_div_iff₀ cast_quantaPerUnit_pos]
    have hcast := Nat.cast_le (α := ℚ).2 hmagnitude
    rwa [Nat.cast_mul, Nat.cast_pow, Nat.cast_ofNat] at hcast
  refine ⟨?_, ?_, ?_, (transform_failures "1/0").1 _ _ (by decide +kernel)⟩
  · exact ((transform_failures "-4").2.1 _ hfour).2.1 (by decide +kernel)
  · obtain ⟨-, -, hroot, hshown, -⟩ := (transform_failures "-0").2.1 _ hzero
    obtain ⟨-, hanswer⟩ := hroot (by decide +kernel)
    have hnote : Transform.squareRoot.note "-0" "0" = "√(-0) = 0" := by decide
    rw [hanswer, hshown (by decide +kernel), hnote]
  · obtain ⟨-, -, -, -, hsquare, -⟩ := (transform_failures _).2.1 _ (hwhole hfinite)
    refine hsquare ?_
    calc (2 : ℚ) ^ 1024 - 2 ^ 970 ≤ 2 ^ 1024 := sub_le_self _ (by positivity)
      _ = (2 ^ 512) ^ 2 := by rw [← pow_mul]
      _ ≤ |(Binary64.ofNat (tenPow 155)).toRat| ^ 2 := pow_le_pow_left₀ (by positivity) hgreat 2
      _ = (Binary64.ofNat (tenPow 155)).toRat ^ 2 := sq_abs _

end DeskCalculator
