import DeskCalculator.Proofs.Binary64.Nearest
import DeskCalculator.Proofs.Expression.Meaning
import DeskCalculator.Proofs.Expression.Pieces

/-!
Expressions of one or two operands, and numbers with a sign.

* `Grammar.Operand.alone`, `Grammar.Operand.joined`, `Grammar.Operand.scaled`: one operand as a
  sum, and two with a sign between them or one scaled by the other.
* `signedNumber`: a number with a minus before it, or without.
* `value_signed`: the value of a literal with a sign.
-/

namespace DeskCalculator

open Grammar

/-! ### Sums of one and two operands -/

namespace Grammar.Operand

/-- An operand as a sum. -/
def alone (o : Operand) : Sum := .of (.of o .done) .done

/-- An operand with another one behind a sign. -/
def joined (o : Operand) (sign : Sign) (o' : Operand) : Sum :=
  .of (.of o .done) (.step sign (.of o' .done) .done)

/-- An operand scaled by another one. -/
def scaled (o : Operand) (op : Scaling) (o' : Operand) : Sum :=
  .of (.of o (.step op o' .done)) .done

lemma tokens_alone (o : Operand) : o.alone.tokens = o.tokens := by
  simp [alone, Sum.tokens, Product.tokens, Terms.tokens, Factors.tokens]

lemma tokens_joined (o : Operand) (sign : Sign) (o' : Operand) :
    (o.joined sign o').tokens = o.tokens ++ ([.operator sign.operator] ++ o'.tokens) := by
  simp [joined, Sum.tokens, Product.tokens, Terms.tokens, Factors.tokens]

lemma tokens_scaled (o : Operand) (op : Scaling) (o' : Operand) :
    (o.scaled op o').tokens = o.tokens ++ .operator op.operator :: o'.tokens := by
  simp [scaled, Sum.tokens, Product.tokens, Terms.tokens, Factors.tokens]

lemma nesting_alone (o : Operand) : o.alone.nesting = o.nesting := by
  simp [alone, Sum.nesting, Product.nesting, Terms.nesting, Factors.nesting]

lemma nesting_joined (o : Operand) (sign : Sign) (o' : Operand) :
    (o.joined sign o').nesting = max o.nesting o'.nesting := by
  simp [joined, Sum.nesting, Product.nesting, Terms.nesting, Factors.nesting]

lemma nesting_scaled (o : Operand) (op : Scaling) (o' : Operand) :
    (o.scaled op o').nesting = max o.nesting o'.nesting := by
  simp [scaled, Sum.nesting, Product.nesting, Terms.nesting, Factors.nesting]

end Grammar.Operand

/-! ### Numbers with their signs -/

/-- A number with a minus before it, or without. -/
def signedNumber (negative : Bool) (x : Binary64) : Operand :=
  if negative then .signed .minus (.number x) else .number x

lemma value_signedNumber (negative : Bool) (x : Binary64) :
    (signedNumber negative x).value = if negative then -x else x := by
  cases negative <;> rfl

lemma defined_signedNumber (negative : Bool) (x : Binary64) :
    (signedNumber negative x).Defined ∧ (signedNumber negative x).nesting ≤ 2 := by
  cases negative
  · exact ⟨trivial, Nat.le_succ 1⟩
  · exact ⟨trivial, le_rfl⟩

lemma mem_signText {negative : Bool} {c : Char} (h : c ∈ signText negative) :
    inAlphabet c = true ∧ isNumeral c = false := by
  cases negative
  · cases h
  · rw [List.mem_singleton.1 h]
    exact ⟨rfl, rfl⟩

lemma filter_signed (negative : Bool) {run : List Char} (hrun : ∀ c ∈ run, isNumeral c = true) :
    (signText negative ++ run).filter inAlphabet = signText negative ++ run := by
  rw [List.filter_eq_self]
  intro c hc
  rcases List.mem_append.1 hc with hc | hc
  · exact (mem_signText hc).1
  · exact inAlphabet_of_isNumeral (hrun c hc)

lemma tokens_signed (negative : Bool) {run : List Char} {x : Binary64} (hne : run ≠ [])
    (hrun : ∀ c ∈ run, isNumeral c = true) (hx : readLiteral? run = some x) :
    tokens (signText negative ++ run) = .ok (signedNumber negative x).tokens := by
  cases negative with
  | false => exact tokens_run hne hrun hx
  | true =>
      refine tokens_append (fun c hc d _ => ?_) (tokens_operator .minus) (tokens_run hne hrun hx)
      have hc : c ∈ signText true := List.mem_of_mem_getLast? hc
      rw [areJoined, (mem_signText hc).2, Bool.false_and]

/-- Characters that keep the tokens of a sum when they are stripped have its value. -/
lemma value_of_tokens {cs : List Char} {s : Sum}
    (h : tokens (cs.filter inAlphabet) = .ok s.tokens) (hn : s.nesting ≤ maxLevels)
    (hd : s.Defined) (hf : s.value.isFinite = true) : value (.ofList cs) = .ok s.value := by
  rw [value, strip, String.toList_ofList, String.toList_ofList]
  exact valueOfStripped_eq_ok_iff.2 ⟨_, h, valueWithin_eq_ok_iff.2 ⟨s, rfl, hn, hd, rfl, hf⟩⟩

/-- A sign in front changes neither the magnitude nor that a double is finite. -/
lemma isFinite_signed (negative : Bool) (x : Binary64) :
    (if negative then -x else x).isFinite = x.isFinite ∧
      (if negative then -x else x).magnitude = x.magnitude := by
  cases negative
  · exact ⟨rfl, rfl⟩
  · exact ⟨Binary64.isFinite_neg x, Binary64.magnitude_neg x⟩

/-- A literal with a sign has the signed double as its value. -/
lemma value_signed (negative : Bool) {run : List Char} {x : Binary64} (hne : run ≠ [])
    (hrun : ∀ c ∈ run, isNumeral c = true) (hx : readLiteral? run = some x)
    (hf : x.isFinite = true) :
    value (.ofList (signText negative ++ run)) = .ok (if negative then -x else x) := by
  have hvalue : (signedNumber negative x).alone.value = if negative then -x else x :=
    value_signedNumber negative x
  obtain ⟨hd, hn⟩ := defined_signedNumber negative x
  rw [← hvalue]
  refine value_of_tokens ?_ ?_ ⟨⟨hd, trivial⟩, trivial⟩ ?_
  · rw [filter_signed negative hrun, tokens_signed negative hne hrun hx, Operand.tokens_alone]
  · rw [Operand.nesting_alone]
    exact hn.trans (by decide)
  · rw [hvalue, (isFinite_signed negative x).1, hf]

end DeskCalculator
