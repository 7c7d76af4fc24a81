import DeskCalculator.Proofs.Decimal.Reading
import DeskCalculator.Proofs.Decimal.Whole
import DeskCalculator.Proofs.Expression.Meaning
import DeskCalculator.Proofs.Expression.Pieces

/-!
Calculating with whole numbers is exact up to `2^53`.

* `IntegerTree`: an expression over whole numbers as a tree, with its `value`, and `IsExact`, that
  nothing in it is greater than the limit and no division leaves anything over.
* `IsOperandText`, `IsProductText`, `IsSumText`: the texts of a tree, with parentheses wherever
  they are needed and anywhere else, and how deep they are nested.
* `Grammar.Factors.concat`, `Grammar.Terms.concat`: one more operand of a product, and one more
  product of a sum, as the trees lean to the left.
* `IsOperandText.exists_operand`, `IsProductText.exists_product`, `IsSumText.exists_sum`: a text
  of an exact tree has the tokens of a phrase, which means the value of the tree.
* `answer_of_isSumText`: so the answer to the text is that value.
-/

namespace DeskCalculator

open Grammar

-- the powers are never to be evaluated here
attribute [local irreducible] twoPow

/-! ### Trees -/

/-- An expression over whole numbers. -/
inductive IntegerTree where
  | literal (n : ℕ)
  | signed (sign : Sign) (t : IntegerTree)
  | scaled (op : Scaling) (s t : IntegerTree)
  | joined (sign : Sign) (s t : IntegerTree)

namespace IntegerTree

/-- The whole number that comes of it. -/
def value : IntegerTree → ℤ
  | literal n => n
  | signed .plus t => t.value
  | signed .minus t => -t.value
  | scaled .times s t => s.value * t.value
  | scaled .divide s t => s.value / t.value
  | joined .plus s t => s.value + t.value
  | joined .minus s t => s.value - t.value

/-- No literal and no value on the way is greater than `2^53`, and no division is by zero or leaves
anything over. -/
def IsExact : IntegerTree → Prop
  | literal n => n ≤ exactLimit
  | signed _ t => t.IsExact
  | scaled op s t =>
    s.IsExact ∧ t.IsExact ∧ (op = .divide → t.value ≠ 0 ∧ t.value ∣ s.value) ∧
      (scaled op s t).value.natAbs ≤ exactLimit
  | joined sign s t =>
    s.IsExact ∧ t.IsExact ∧ (joined sign s t).value.natAbs ≤ exactLimit

instance decidableIsExact : DecidablePred IsExact
  | literal n => inferInstanceAs (Decidable (n ≤ exactLimit))
  | signed _ t => decidableIsExact t
  | scaled op s t =>
    have := decidableIsExact s
    have := decidableIsExact t
    inferInstanceAs (Decidable (s.IsExact ∧ t.IsExact ∧
      (op = .divide → t.value ≠ 0 ∧ t.value ∣ s.value) ∧
      (scaled op s t).value.natAbs ≤ exactLimit))
  | joined sign s t =>
    have := decidableIsExact s
    have := decidableIsExact t
    inferInstanceAs (Decidable (s.IsExact ∧ t.IsExact ∧
      (joined sign s t).value.natAbs ≤ exactLimit))

lemma IsExact.natAbs_le {t : IntegerTree} (h : t.IsExact) : t.value.natAbs ≤ exactLimit := by
  induction t with
  | literal n => exact h
  | signed sign t ih =>
      cases sign with
      | plus => exact ih h
      | minus => exact (Int.natAbs_neg _).trans_le (ih h)
  | scaled op s t => exact h.2.2.2
  | joined sign s t => exact h.2.2

end IntegerTree

/-! ### Texts -/

mutual

/-- The characters are an operand that spells the tree, nested so deep: a literal, with any zeros
in front, or a sign and an operand, or a sum in parentheses. -/
inductive IsOperandText : IntegerTree → ℕ → List Char → Prop
  | literal {ds : List Char} (ne : ds ≠ []) (digits : ∀ c ∈ ds, c.isDigit = true) :
      IsOperandText (.literal (Nat.ofDigitChars 10 ds 0)) 1 ds
  | signed (sign : Sign) {t : IntegerTree} {n : ℕ} {cs : List Char} (h : IsOperandText t n cs) :
      IsOperandText (.signed sign t) (n + 1) (sign.operator.char :: cs)
  | grouped {t : IntegerTree} {n : ℕ} {cs : List Char} (h : IsSumText t n cs) :
      IsOperandText t (n + 1) ('(' :: (cs ++ [')']))

/-- The characters are a product that spells the tree: an operand, or a product, a scaling and an
operand. -/
inductive IsProductText : IntegerTree → ℕ → List Char → Prop
  | operand {t : IntegerTree} {n : ℕ} {cs : List Char} (h : IsOperandText t n cs) :
      IsProductText t n cs
  | scaled (op : Scaling) {s t : IntegerTree} {m n : ℕ} {cs ds : List Char}
      (hs : IsProductText s m cs) (ht : IsOperandText t n ds) :
      IsProductText (.scaled op s t) (max m n) (cs ++ op.operator.char :: ds)

/-- The characters are a sum that spells the tree: a product, or a sum, a sign and a product. -/
inductive IsSumText : IntegerTree → ℕ → List Char → Prop
  | product {t : IntegerTree} {n : ℕ} {cs : List Char} (h : IsProductText t n cs) :
      IsSumText t n cs
  | joined (sign : Sign) {s t : IntegerTree} {m n : ℕ} {cs ds : List Char}
      (hs : IsSumText s m cs) (ht : IsProductText t n ds) :
      IsSumText (.joined sign s t) (max m n) (cs ++ sign.operator.char :: ds)

end

/-! ### Phrases that lean to the left -/

namespace Grammar

/-- One more operand behind the others. -/
def Factors.concat : Factors → Scaling → Operand → Factors
  | .done, op, o => .step op o .done
  | .step op' o' rest, op, o => .step op' o' (rest.concat op o)

lemma Factors.tokens_concat (op : Scaling) (o : Operand) : ∀ fs : Factors,
    (fs.concat op o).tokens = fs.tokens ++ .operator op.operator :: o.tokens
  | .done => by simp [concat, tokens]
  | .step op' o' rest => by simp [concat, tokens, rest.tokens_concat op o]

lemma Factors.fold_concat (op : Scaling) (o : Operand) : ∀ (fs : Factors) (v : Binary64),
    (fs.concat op o).fold v = op.join (fs.fold v) o.value
  | .done, _ => rfl
  | .step op' o' rest, v => rest.fold_concat op o (op'.join v o'.value)

lemma Factors.nesting_concat (op : Scaling) (o : Operand) : ∀ fs : Factors,
    (fs.concat op o).nesting = max fs.nesting o.nesting
  | .done => by simp [concat, nesting]
  | .step op' o' rest => by simp [concat, nesting, rest.nesting_concat op o, max_assoc]

lemma Factors.defined_concat {op : Scaling} {o : Operand} (ho : o.Defined)
    (hop : op.Allows o.value) : ∀ {fs : Factors}, fs.Defined → (fs.concat op o).Defined
  | .done, _ => ⟨ho, hop, trivial⟩
  | .step _ _ _, h => ⟨h.1, h.2.1, Factors.defined_concat ho hop h.2.2⟩

/-- One more product behind the others. -/
def Terms.concat : Terms → Sign → Product → Terms
  | .done, sign, p => .step sign p .done
  | .step sign' p' rest, sign, p => .step sign' p' (rest.concat sign p)

lemma Terms.tokens_concat (sign : Sign) (p : Product) : ∀ terms : Terms,
    (terms.concat sign p).tokens = terms.tokens ++ .operator sign.operator :: p.tokens
  | .done => by simp [concat, tokens]
  | .step sign' p' rest => by simp [concat, tokens, rest.tokens_concat sign p]

lemma Terms.fold_concat (sign : Sign) (p : Product) : ∀ (terms : Terms) (v : Binary64),
    (terms.concat sign p).fold v = sign.join (terms.fold v) p.value
  | .done, _ => rfl
  | .step sign' p' rest, v => rest.fold_concat sign p (sign'.join v p'.value)

lemma Terms.nesting_concat (sign : Sign) (p : Product) : ∀ terms : Terms,
    (terms.concat sign p).nesting = max terms.nesting p.nesting
  | .done => by simp [concat, nesting]
  | .step sign' p' rest => by simp [concat, nesting, rest.nesting_concat sign p, max_assoc]

lemma Terms.defined_concat {sign : Sign} {p : Product} (hp : p.Defined) :
    ∀ {terms : Terms}, terms.Defined → (terms.concat sign p).Defined
  | .done, _ => ⟨hp, trivial⟩
  | .step _ _ _, h => ⟨h.1, Terms.defined_concat hp h.2⟩

end Grammar

/-! ### Phrases of a tree -/

/-- A scaling of whole numbers is exact. -/
lemma represents_scaled {op : Scaling} {s t : IntegerTree} (h : (IntegerTree.scaled op s t).IsExact)
    {x y : Binary64} (hx : x.Represents s.value) (hy : y.Represents t.value) :
    op.Allows y ∧ (op.join x y).Represents (IntegerTree.scaled op s t).value := by
  obtain ⟨-, -, hdivide, hlimit⟩ := h
  cases op with
  | times => exact ⟨fun h => (nomatch h), hx.mul hy hlimit⟩
  | divide =>
      obtain ⟨hne, hdvd⟩ := hdivide rfl
      exact ⟨fun _ => hy.isZero_eq_false hne, hx.div hy hne hdvd hlimit⟩

lemma represents_joined {sign : Sign} {s t : IntegerTree}
    (h : (IntegerTree.joined sign s t).IsExact) {x y : Binary64} (hx : x.Represents s.value)
    (hy : y.Represents t.value) :
    (sign.join x y).Represents (IntegerTree.joined sign s t).value := by
  obtain ⟨-, -, hlimit⟩ := h
  cases sign with
  | plus => exact hx.add hy hlimit
  | minus => exact hx.sub hy hlimit

mutual

/-- The text of an operand has the tokens of one that means the value of the tree. -/
theorem IsOperandText.exists_operand : ∀ {t : IntegerTree} {n : ℕ} {cs : List Char},
    IsOperandText t n cs → t.IsExact →
      ∃ o : Operand, tokens cs = .ok o.tokens ∧ o.nesting = n ∧ o.Defined ∧
        o.value.Represents t.value
  | _, _, _, @IsOperandText.literal ds ne digits, hexact => by
      have hrun : ∀ c ∈ ds, isNumeral c = true := fun c hc => isNumeral_of_isDigit (digits c hc)
      exact ⟨.number (.ofNat (Nat.ofDigitChars 10 ds 0)),
        tokens_run ne hrun (hasDigits_digits ne digits).readLiteral?, rfl, trivial,
        Binary64.represents_ofNat hexact⟩
  | _, _, _, .signed sign h, hexact => by
      obtain ⟨o, htokens, hnesting, hdefined, hvalue⟩ := h.exists_operand hexact
      refine ⟨.signed sign o, ?_, congrArg (· + 1) hnesting, hdefined, ?_⟩
      · exact tokens_cons (isNumeral_operator _) (tokens_operator _) htokens
      · cases sign with
        | plus => exact hvalue
        | minus => exact hvalue.neg
  | _, _, _, @IsOperandText.grouped _ _ cs h, hexact => by
      obtain ⟨s, htokens, hnesting, hdefined, hvalue⟩ := h.exists_sum hexact
      exact ⟨.grouped s, tokens_grouped htokens, congrArg (· + 1) hnesting, hdefined, hvalue⟩

theorem IsProductText.exists_product : ∀ {t : IntegerTree} {n : ℕ} {cs : List Char},
    IsProductText t n cs → t.IsExact →
      ∃ p : Product, tokens cs = .ok p.tokens ∧ p.nesting = n ∧ p.Defined ∧
        p.value.Represents t.value
  | _, _, _, .operand h, hexact => by
      obtain ⟨o, htokens, hnesting, hdefined, hvalue⟩ := h.exists_operand hexact
      refine ⟨.of o .done, ?_, ?_, ⟨hdefined, trivial⟩, hvalue⟩
      · rw [htokens, Product.tokens, Factors.tokens, List.append_nil]
      · rw [Product.nesting, Factors.nesting, hnesting, Nat.max_zero]
  | _, _, _, .scaled op hs ht, hexact => by
      obtain ⟨⟨o, fs⟩, hstokens, hsnesting, hsdefined, hsvalue⟩ := hs.exists_product hexact.1
      obtain ⟨o', httokens, htnesting, htdefined, htvalue⟩ := ht.exists_operand hexact.2.1
      obtain ⟨hallows, hvalue⟩ := represents_scaled hexact hsvalue htvalue
      refine ⟨.of o (fs.concat op o'), ?_, ?_,
        ⟨hsdefined.1, Factors.defined_concat htdefined hallows hsdefined.2⟩, ?_⟩
      · rw [Product.tokens, Factors.tokens_concat, ← List.append_assoc]
        exact tokens_around (isNumeral_operator _) (tokens_operator _) hstokens httokens
      · rw [Product.nesting, Factors.nesting_concat, ← max_assoc, ← hsnesting, ← htnesting]
        rfl
      · rw [Product.value, Factors.fold_concat]
        exact hvalue

theorem IsSumText.exists_sum : ∀ {t : IntegerTree} {n : ℕ} {cs : List Char},
    IsSumText t n cs → t.IsExact →
      ∃ s : Sum, tokens cs = .ok s.tokens ∧ s.nesting = n ∧ s.Defined ∧
        s.value.Represents t.value
  | _, _, _, .product h, hexact => by
      obtain ⟨p, htokens, hnesting, hdefined, hvalue⟩ := h.exists_product hexact
      refine ⟨.of p .done, ?_, ?_, ⟨hdefined, trivial⟩, hvalue⟩
      · rw [htokens, Sum.tokens, Terms.tokens, List.append_nil]
      · rw [Sum.nesting, Terms.nesting, hnesting, Nat.max_zero]
  | _, _, _, .joined sign hs ht, hexact => by
      obtain ⟨⟨p, terms⟩, hstokens, hsnesting, hsdefined, hsvalue⟩ := hs.exists_sum hexact.1
      obtain ⟨p', httokens, htnesting, htdefined, htvalue⟩ := ht.exists_product hexact.2.1
      refine ⟨.of p (terms.concat sign p'), ?_, ?_,
        ⟨hsdefined.1, Terms.defined_concat htdefined hsdefined.2⟩, ?_⟩
      · rw [Sum.tokens, Terms.tokens_concat, ← List.append_assoc]
        exact tokens_around (isNumeral_operator _) (tokens_operator _) hstokens httokens
      · rw [Sum.nesting, Terms.nesting_concat, ← max_assoc, ← hsnesting, ← htnesting]
        rfl
      · rw [Sum.value, Terms.fold_concat]
        exact represents_joined hexact hsvalue htvalue

end

/-- **Calculating with whole numbers is exact up to `2^53`.** Take a tree in which no literal and
no value on the way is greater, and no division is by zero or leaves anything over, and any text
of it that is nested no deeper than allowed, with any other characters between. The answer to the
text is the decimal numeral of the value of the tree. -/
theorem answer_of_isSumText {t : IntegerTree} {n : ℕ} {text : String}
    (h : IsSumText t n (strip text).toList) (hn : n ≤ maxLevels) (hexact : t.IsExact) :
    answer text = .ok (toString t.value) := by
  obtain ⟨s, htokens, rfl, hdefined, hvalue⟩ := h.exists_sum hexact
  have hs : value text = .ok s.value :=
    valueOfStripped_eq_ok_iff.2 ⟨_, htokens,
      valueWithin_eq_ok_iff.2 ⟨s, rfl, hn, hdefined, rfl, hvalue.isFinite⟩⟩
  rw [answer, hs]
  exact congrArg Except.ok (Binary64.numeral_of_represents hvalue hexact.natAbs_le)

/-- So it is at the limit itself, where a sum is divided by a negative literal with a zero in
front. -/
theorem answer_of_isSumText_exactLimit :
    answer "(9007199254740991 + 1) / -02" = .ok "-4503599627370496" := by
  have hliteral := @IsOperandText.literal "9007199254740991".toList (by decide)
    (List.all_eq_true.1 (by decide))
  have hone := @IsOperandText.literal "1".toList (by decide) (List.all_eq_true.1 (by decide))
  have htwo := @IsOperandText.literal "02".toList (by decide) (List.all_eq_true.1 (by decide))
  have hsum := IsSumText.joined .plus (.product (.operand hliteral)) (.operand hone)
  have hstrip : (strip "(9007199254740991 + 1) / -02").toList
      = '(' :: ("9007199254740991".toList ++ '+' :: "1".toList ++ [')'])
        ++ '/' :: '-' :: "02".toList := by decide
  have htext := IsSumText.product (.scaled .divide (.operand (.grouped hsum)) (.signed .minus htwo))
  change IsSumText _ _ ('(' :: ("9007199254740991".toList ++ '+' :: "1".toList ++ [')'])
    ++ '/' :: '-' :: "02".toList) at htext
  rw [← hstrip] at htext
  exact answer_of_isSumText htext (by decide) (by decide +kernel)

end DeskCalculator
