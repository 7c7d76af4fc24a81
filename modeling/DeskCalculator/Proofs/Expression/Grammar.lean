import Mathlib.Tactic
import DeskCalculator.Expression.Value

/-!
The grammar of expressions, apart from any way of reading them.

```
sum     = product (('+' | '-') product)*
product = operand (('*' | '/') operand)*
operand = ('+' | '-') operand | number | '(' sum ')'
```

A phrase is a derivation in this grammar, as a tree.

* **What a phrase spells and means**: `tokens`, its tokens in order; `value`, the double
  got by folding every level to the left; `nesting`, the most operands that lie inside
  one another; `Defined`, that no divisor is zero.
* **Unambiguity** (`Sum.tokens_injective`): the tokens of a sum determine it. The
  strengthened form `tokens_append_inj` says that they also determine where an operand
  ends and, given what may stand behind it, where a product or a sum does.
-/

namespace DeskCalculator

namespace Grammar

/-! ### Signs and scalings -/

/-- A sign; the same two operators join the products of a sum. -/
inductive Sign where
  | plus | minus
deriving DecidableEq

/-- The operators that join the operands of a product. -/
inductive Scaling where
  | times | divide
deriving DecidableEq

namespace Sign

/-- The operator that a sign is written with. -/
def operator : Sign → Operator
  | plus => .plus
  | minus => .minus

/-- A signed value. -/
def apply : Sign → Binary64 → Binary64
  | plus, v => v
  | minus, v => -v

/-- Two values joined by a sign. -/
def join : Sign → Binary64 → Binary64 → Binary64
  | plus, v, w => v + w
  | minus, v, w => v - w

end Sign

namespace Scaling

/-- The operator that a scaling is written with. -/
def operator : Scaling → Operator
  | times => .times
  | divide => .divide

/-- Two values joined by a scaling. -/
def join : Scaling → Binary64 → Binary64 → Binary64
  | times, v, w => v * w
  | divide, v, w => v / w

/-- A scaling by a value has a meaning: nothing is divided by a zero of either sign. -/
def Allows (op : Scaling) (w : Binary64) : Prop := op = divide → w.isZero = false

instance (op : Scaling) (w : Binary64) : Decidable (op.Allows w) :=
  inferInstanceAs (Decidable (_ → _))

end Scaling

/-! ### Phrases -/

mutual

/-- `operand = ('+' | '-') operand | number | '(' sum ')'`. -/
inductive Operand where
  | number (x : Binary64)
  | signed (sign : Sign) (operand : Operand)
  | grouped (sum : Sum)

/-- `(('*' | '/') operand)*`, what follows the first operand of a product. -/
inductive Factors where
  | done
  | step (op : Scaling) (operand : Operand) (rest : Factors)

/-- `product = operand (('*' | '/') operand)*`. -/
inductive Product where
  | of (first : Operand) (rest : Factors)

/-- `(('+' | '-') product)*`, what follows the first product of a sum. -/
inductive Terms where
  | done
  | step (sign : Sign) (product : Product) (rest : Terms)

/-- `sum = product (('+' | '-') product)*`. -/
inductive Sum where
  | of (first : Product) (rest : Terms)

end

mutual

/-- The tokens of an operand, in order. -/
def Operand.tokens : Operand → List Token
  | .number x => [.number x]
  | .signed sign o => .operator sign.operator :: o.tokens
  | .grouped s => .paren .opening :: (s.tokens ++ [.paren .closing])

/-- The tokens behind the first operand of a product. -/
def Factors.tokens : Factors → List Token
  | .done => []
  | .step op o rest => .operator op.operator :: (o.tokens ++ rest.tokens)

/-- The tokens of a product. -/
def Product.tokens : Product → List Token
  | .of o rest => o.tokens ++ rest.tokens

/-- The tokens behind the first product of a sum. -/
def Terms.tokens : Terms → List Token
  | .done => []
  | .step sign p rest => .operator sign.operator :: (p.tokens ++ rest.tokens)

/-- The tokens of a sum. -/
def Sum.tokens : Sum → List Token
  | .of p rest => p.tokens ++ rest.tokens

end

mutual

/-- The value of an operand. -/
def Operand.value : Operand → Binary64
  | .number x => x
  | .signed sign o => sign.apply o.value
  | .grouped s => s.value

/-- The value so far scaled by one operand after the other. -/
def Factors.fold : Factors → Binary64 → Binary64
  | .done, v => v
  | .step op o rest, v => rest.fold (op.join v o.value)

/-- The value of a product, folded to the left. -/
def Product.value : Product → Binary64
  | .of o rest => rest.fold o.value

/-- The value so far joined to one product after the other. -/
def Terms.fold : Terms → Binary64 → Binary64
  | .done, v => v
  | .step sign p rest, v => rest.fold (sign.join v p.value)

/-- The value of a sum, folded to the left. -/
def Sum.value : Sum → Binary64
  | .of p rest => rest.fold p.value

end

mutual

/-- The most operands inside one another: a number, a sign and a pair of parentheses count
one each. -/
def Operand.nesting : Operand → ℕ
  | .number _ => 1
  | .signed _ o => o.nesting + 1
  | .grouped s => s.nesting + 1

/-- The greatest nesting of an operand behind the first one. -/
def Factors.nesting : Factors → ℕ
  | .done => 0
  | .step _ o rest => max o.nesting rest.nesting

/-- The greatest nesting of an operand of a product. -/
def Product.nesting : Product → ℕ
  | .of o rest => max o.nesting rest.nesting

/-- The greatest nesting of a product behind the first one. -/
def Terms.nesting : Terms → ℕ
  | .done => 0
  | .step _ p rest => max p.nesting rest.nesting

/-- The greatest nesting of a product of a sum. -/
def Sum.nesting : Sum → ℕ
  | .of p rest => max p.nesting rest.nesting

end

mutual

/-- No divisor in an operand is zero. -/
def Operand.Defined : Operand → Prop
  | .number _ => True
  | .signed _ o => o.Defined
  | .grouped s => s.Defined

/-- No divisor is zero, among the operands themselves or inside them. -/
def Factors.Defined : Factors → Prop
  | .done => True
  | .step op o rest => o.Defined ∧ op.Allows o.value ∧ rest.Defined

/-- No divisor in a product is zero. -/
def Product.Defined : Product → Prop
  | .of o rest => o.Defined ∧ rest.Defined

/-- No divisor in the products behind the first one is zero. -/
def Terms.Defined : Terms → Prop
  | .done => True
  | .step _ p rest => p.Defined ∧ rest.Defined

/-- No divisor in a sum is zero. -/
def Sum.Defined : Sum → Prop
  | .of p rest => p.Defined ∧ rest.Defined

end

/-! ### A phrase and what stands behind it -/

lemma Operand.signed_append (sign : Sign) (o : Operand) (r : List Token) :
    (Operand.signed sign o).tokens ++ r = .operator sign.operator :: (o.tokens ++ r) := by
  rw [Operand.tokens, List.cons_append]

lemma Operand.grouped_append (s : Sum) (r : List Token) :
    (Operand.grouped s).tokens ++ r
      = .paren .opening :: (s.tokens ++ .paren .closing :: r) := by
  rw [Operand.tokens, List.cons_append, List.append_assoc, List.singleton_append]

lemma Factors.step_append (op : Scaling) (o : Operand) (fs : Factors) (r : List Token) :
    (Factors.step op o fs).tokens ++ r
      = .operator op.operator :: (o.tokens ++ (fs.tokens ++ r)) := by
  rw [Factors.tokens, List.cons_append, List.append_assoc]

lemma Product.of_append (o : Operand) (fs : Factors) (r : List Token) :
    (Product.of o fs).tokens ++ r = o.tokens ++ (fs.tokens ++ r) := by
  rw [Product.tokens, List.append_assoc]

lemma Terms.step_append (sign : Sign) (p : Product) (terms : Terms) (r : List Token) :
    (Terms.step sign p terms).tokens ++ r
      = .operator sign.operator :: (p.tokens ++ (terms.tokens ++ r)) := by
  rw [Terms.tokens, List.cons_append, List.append_assoc]

lemma Sum.of_append (p : Product) (terms : Terms) (r : List Token) :
    (Sum.of p terms).tokens ++ r = p.tokens ++ (terms.tokens ++ r) := by
  rw [Sum.tokens, List.append_assoc]

/-! ### What may stand behind a phrase -/

/-- Tokens that do not carry a product on. -/
def EndsProduct (ts : List Token) : Prop :=
  ∀ op : Scaling, ts.head? ≠ some (.operator op.operator)

/-- Tokens that do not carry a sum on. -/
def EndsSum (ts : List Token) : Prop := ∀ op : Operator, ts.head? ≠ some (.operator op)

/-- What ends a sum ends its last product. -/
lemma EndsSum.endsProduct {ts : List Token} (h : EndsSum ts) : EndsProduct ts :=
  fun op => h op.operator

lemma endsSum_paren (p : Paren) (ts : List Token) : EndsSum (.paren p :: ts) := by
  intro op
  simp

lemma endsSum_nil : EndsSum [] := by
  intro op
  simp

lemma Sign.operator_ne (sign : Sign) (op : Scaling) : sign.operator ≠ op.operator := by
  cases sign <;> cases op <;> decide

lemma Sign.operator_injective : Function.Injective Sign.operator := by
  intro s s' h
  cases s <;> cases s' <;> first | rfl | exact absurd h (by decide)

lemma Scaling.operator_injective : Function.Injective Scaling.operator := by
  intro op op' h
  cases op <;> cases op' <;> first | rfl | exact absurd h (by decide)

lemma EndsProduct.ne_scaling {ts : List Token} (h : EndsProduct ts) (op : Scaling)
    (ts' : List Token) : ts ≠ .operator op.operator :: ts' := by
  rintro rfl
  exact h op rfl

lemma EndsSum.ne_sign {ts : List Token} (h : EndsSum ts) (sign : Sign) (ts' : List Token) :
    ts ≠ .operator sign.operator :: ts' := by
  rintro rfl
  exact h sign.operator rfl

lemma head_ne_or_operator {α : Type} (operator : α → Operator) (ts : List Token) :
    (∀ a, ts.head? ≠ some (.operator (operator a))) ∨
      ∃ (a : α) (ts' : List Token), ts = .operator (operator a) :: ts' := by
  by_cases h : ∀ a, ts.head? ≠ some (.operator (operator a))
  · exact Or.inl h
  · simp only [not_forall, not_not] at h
    obtain ⟨a, ha⟩ := h
    obtain ⟨ts', rfl⟩ := List.head?_eq_some_iff.1 ha
    exact Or.inr ⟨a, ts', rfl⟩

/-- Tokens end a product or begin with a scaling. -/
lemma endsProduct_or_scaling (ts : List Token) :
    EndsProduct ts ∨ ∃ (op : Scaling) (ts' : List Token),
      ts = .operator op.operator :: ts' :=
  head_ne_or_operator Scaling.operator ts

/-- Tokens that end a product end a sum or begin with a sign. -/
lemma EndsProduct.endsSum_or_sign {ts : List Token} (h : EndsProduct ts) :
    EndsSum ts ∨ ∃ (sign : Sign) (ts' : List Token),
      ts = .operator sign.operator :: ts' := by
  rcases head_ne_or_operator id ts with hs | ⟨op, ts, rfl⟩
  · exact Or.inl hs
  · cases op with
    | plus => exact Or.inr ⟨.plus, ts, rfl⟩
    | minus => exact Or.inr ⟨.minus, ts, rfl⟩
    | times => exact absurd rfl (h .times)
    | divide => exact absurd rfl (h .divide)

lemma endsProduct_sign (sign : Sign) (ts : List Token) :
    EndsProduct (.operator sign.operator :: ts) := by
  intro op h
  simp only [List.head?_cons, Option.some.injEq, Token.operator.injEq] at h
  exact sign.operator_ne op h

/-- Further products carry a sum on, but not its last product. -/
lemma Terms.endsProduct (terms : Terms) {r : List Token} (hr : EndsSum r) :
    EndsProduct (terms.tokens ++ r) := by
  cases terms with
  | done => simpa [Terms.tokens] using hr.endsProduct
  | step sign p rest =>
      rw [Terms.step_append]
      exact endsProduct_sign sign _

/-! ### Unambiguity -/

lemma operator_cons_inj {α : Type} {operator : α → Operator} (hinj : operator.Injective)
    {a a' : α} {ts ts' : List Token}
    (h : Token.operator (operator a) :: ts = .operator (operator a') :: ts') :
    a = a' ∧ ts = ts' := by
  obtain ⟨hop, hts⟩ := List.cons.inj h
  exact ⟨hinj (Token.operator.inj hop), hts⟩

mutual

theorem Operand.tokens_append_inj : ∀ (o o' : Operand) (r r' : List Token),
    o.tokens ++ r = o'.tokens ++ r' → o = o' ∧ r = r'
  | .number x, o', r, r', h => by
      cases o' <;> simp_all [Operand.tokens]
  | .signed sign o, o', r, r', h => by
      cases o' with
      | number => simp [Operand.tokens] at h
      | grouped => simp [Operand.tokens] at h
      | signed sign' o' =>
          rw [Operand.signed_append, Operand.signed_append] at h
          obtain ⟨rfl, ho⟩ := operator_cons_inj Sign.operator_injective h
          obtain ⟨rfl, hr⟩ := Operand.tokens_append_inj o o' r r' ho
          exact ⟨rfl, hr⟩
  | .grouped s, o', r, r', h => by
      cases o' with
      | number => simp [Operand.tokens] at h
      | signed => simp [Operand.tokens] at h
      | grouped s' =>
          rw [Operand.grouped_append, Operand.grouped_append] at h
          obtain ⟨rfl, hr⟩ := Sum.tokens_append_inj s s' _ _ (endsSum_paren _ _)
            (endsSum_paren _ _) (List.cons.inj h).2
          exact ⟨rfl, (List.cons.inj hr).2⟩

theorem Factors.tokens_append_inj : ∀ (fs fs' : Factors) (r r' : List Token),
    EndsProduct r → EndsProduct r' → fs.tokens ++ r = fs'.tokens ++ r' → fs = fs' ∧ r = r'
  | .done, fs', r, r', hr, _, h => by
      cases fs' with
      | done => exact ⟨rfl, h⟩
      | step op o rest => exact absurd h (hr.ne_scaling op _)
  | .step op o rest, fs', r, r', hr, hr', h => by
      cases fs' with
      | done => exact absurd h.symm (hr'.ne_scaling op _)
      | step op' o' rest' =>
          rw [Factors.step_append, Factors.step_append] at h
          obtain ⟨rfl, ho⟩ := operator_cons_inj Scaling.operator_injective h
          obtain ⟨rfl, hrest⟩ := Operand.tokens_append_inj o o' _ _ ho
          obtain ⟨rfl, hr⟩ := Factors.tokens_append_inj rest rest' r r' hr hr' hrest
          exact ⟨rfl, hr⟩

theorem Product.tokens_append_inj : ∀ (p p' : Product) (r r' : List Token),
    EndsProduct r → EndsProduct r' → p.tokens ++ r = p'.tokens ++ r' → p = p' ∧ r = r'
  | .of o rest, .of o' rest', r, r', hr, hr', h => by
      rw [Product.of_append, Product.of_append] at h
      obtain ⟨rfl, hrest⟩ := Operand.tokens_append_inj o o' _ _ h
      obtain ⟨rfl, hr⟩ := Factors.tokens_append_inj rest rest' r r' hr hr' hrest
      exact ⟨rfl, hr⟩

theorem Terms.tokens_append_inj : ∀ (terms terms' : Terms) (r r' : List Token),
    EndsSum r → EndsSum r' → terms.tokens ++ r = terms'.tokens ++ r' → terms = terms' ∧ r = r'
  | .done, terms', r, r', hr, _, h => by
      cases terms' with
      | done => exact ⟨rfl, h⟩
      | step sign p rest => exact absurd h (hr.ne_sign sign _)
  | .step sign p rest, terms', r, r', hr, hr', h => by
      cases terms' with
      | done => exact absurd h.symm (hr'.ne_sign sign _)
      | step sign' p' rest' =>
          rw [Terms.step_append, Terms.step_append] at h
          obtain ⟨rfl, hp⟩ := operator_cons_inj Sign.operator_injective h
          obtain ⟨rfl, hrest⟩ := Product.tokens_append_inj p p' _ _ (rest.endsProduct hr)
            (rest'.endsProduct hr') hp
          obtain ⟨rfl, hr⟩ := Terms.tokens_append_inj rest rest' r r' hr hr' hrest
          exact ⟨rfl, hr⟩

theorem Sum.tokens_append_inj : ∀ (s s' : Sum) (r r' : List Token),
    EndsSum r → EndsSum r' → s.tokens ++ r = s'.tokens ++ r' → s = s' ∧ r = r'
  | .of p rest, .of p' rest', r, r', hr, hr', h => by
      rw [Sum.of_append, Sum.of_append] at h
      obtain ⟨rfl, hrest⟩ := Product.tokens_append_inj p p' _ _ (rest.endsProduct hr)
        (rest'.endsProduct hr') h
      obtain ⟨rfl, hr⟩ := Terms.tokens_append_inj rest rest' r r' hr hr' hrest
      exact ⟨rfl, hr⟩

end

/-- **The grammar is unambiguous**: a list of tokens is spelled by one sum at most. -/
theorem Sum.tokens_injective {s s' : Sum} (h : s.tokens = s'.tokens) : s = s' :=
  (Sum.tokens_append_inj s s' [] [] endsSum_nil endsSum_nil (congrArg (· ++ []) h)).1

lemma Operand.tokens_ne_nil (o : Operand) : o.tokens ≠ [] := by
  cases o <;> simp [Operand.tokens]

lemma Sum.tokens_ne_nil (s : Sum) : s.tokens ≠ [] := by
  obtain ⟨⟨o, fs⟩, terms⟩ := s
  simp [Sum.tokens, Product.tokens, o.tokens_ne_nil]

end Grammar

end DeskCalculator
