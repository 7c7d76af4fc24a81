import DeskCalculator.Proofs.Expression.Scan
import DeskCalculator.Proofs.Expression.Signed

/-!
How deep an expression may be nested.

A reader that fails on a phrase of the grammar fails for one of two causes: the phrase is nested
deeper than the levels allow, or it divides by zero. So the limit is a matter of `nesting` alone,
and operators that stand side by side add nothing to that.

* `Blames`: what a reader may fail for on a phrase. `BlamesOperands`: a reader of operands fails
  for nothing else. `BlamesOperands.factors`, `product`, `terms`, `sum`: so do the readers built on
  it. `blamesOperands`: the readers of operands are such, by induction on the levels.
* `valueWithin_tokens`, `nesting_of_nestedTooDeep`, `nestedTooDeep_of_nesting`: what becomes of the
  tokens of a sum.
* `Grammar.chain`: operands with operators between them, as a sum. Its nesting is that of its
  operands (`Grammar.nesting_chain_le_iff`).
* `Opener`, `wrappedText`: signs and parentheses around a literal, in any order.
* `nesting_limit`: 255 of them are allowed and 256 are not, and operators do not count.
-/

namespace DeskCalculator

open Grammar

/-! ### The causes of a failure -/

/-- A phrase of such a nesting is deeper than the levels, or some division in it has no
meaning. -/
def Blames (levels nesting : ℕ) (Defined : Prop) (r : Reason) : Prop :=
  (r = .nestedTooDeep ∧ levels < nesting) ∨ (r = .zeroDivisor ∧ ¬ Defined)

lemma Blames.mono {levels n m : ℕ} {P Q : Prop} {r : Reason} (h : Blames levels n P r)
    (hn : n ≤ m) (hQ : Q → P) : Blames levels m Q r := by
  rcases h with ⟨hr, hlt⟩ | ⟨hr, hP⟩
  · exact Or.inl ⟨hr, hlt.trans_le hn⟩
  · exact Or.inr ⟨hr, fun hq => hP (hQ hq)⟩

/-- On an operand, whatever stands behind it, the reader fails for nothing else. -/
def BlamesOperands (operand : Reader) (levels : ℕ) : Prop :=
  ∀ (o : Operand) (rest : List Token) (e : Rejection), operand (o.tokens ++ rest) = .error e →
    Blames levels o.nesting o.Defined e.reason

namespace BlamesOperands

variable {operand : Reader} {levels : ℕ}

lemma factors (hblames : BlamesOperands operand levels) (hreads : ReadsOperands operand levels)
    {budget : List Token} {v : Binary64} {fs : Factors} {rest : List Token} {e : Rejection}
    (hbudget : (fs.tokens ++ rest).length ≤ budget.length) (hrest : EndsProduct rest)
    (h : readFactors operand budget v (fs.tokens ++ rest) = .error e) :
    Blames levels fs.nesting fs.Defined e.reason := by
  induction budget generalizing v fs with
  | nil =>
      have hnil : fs.tokens ++ rest = [] := List.length_eq_zero_iff.1 (Nat.le_zero.1 hbudget)
      rw [hnil, readFactors_done operand [] v endsSum_nil.endsProduct] at h
      cases h
  | cons b budget ih =>
      cases fs with
      | done =>
          rw [Factors.tokens, List.nil_append, readFactors_done operand _ v hrest] at h
          cases h
      | step op o fs =>
          rw [Factors.step_append] at hbudget h
          rw [readFactors_step, bind_eq_error_iff] at h
          rcases h with h | ⟨⟨w, r⟩, hw, h⟩
          · exact (hblames o _ e h).mono (le_max_left _ _) fun hd => hd.1
          · obtain ⟨o', ho, -, -, rfl⟩ := (hreads _ _ _).1 hw
            obtain ⟨rfl, rfl⟩ := Operand.tokens_append_inj o o' _ _ ho
            dsimp only at h
            split at h
            case isTrue hop =>
              simp only [List.length_cons, List.length_append] at hbudget
              have hshort : (fs.tokens ++ rest).length ≤ budget.length := by
                rw [List.length_append]
                omega
              exact (ih hshort h).mono (le_max_right _ _) fun hd => hd.2.2
            case isFalse hop =>
              cases h
              exact Or.inr ⟨rfl, fun hd => hop hd.2.1⟩

lemma product (hblames : BlamesOperands operand levels) (hreads : ReadsOperands operand levels)
    {p : Product} {rest : List Token} {e : Rejection} (hrest : EndsProduct rest)
    (h : readProduct operand (p.tokens ++ rest) = .error e) :
    Blames levels p.nesting p.Defined e.reason := by
  obtain ⟨o, fs⟩ := p
  rw [Product.of_append, readProduct, bind_eq_error_iff] at h
  rcases h with h | ⟨⟨w, r⟩, hw, h⟩
  · exact (hblames o _ e h).mono (le_max_left _ _) fun hd => hd.1
  · obtain ⟨o', ho, -, -, rfl⟩ := (hreads _ _ _).1 hw
    obtain ⟨rfl, rfl⟩ := Operand.tokens_append_inj o o' _ _ ho
    exact (hblames.factors hreads le_rfl hrest h).mono (le_max_right _ _) fun hd => hd.2

lemma terms (hblames : BlamesOperands operand levels) (hreads : ReadsOperands operand levels)
    {budget : List Token} {v : Binary64} {ts : Terms} {rest : List Token} {e : Rejection}
    (hbudget : (ts.tokens ++ rest).length ≤ budget.length) (hrest : EndsSum rest)
    (h : readTerms operand budget v (ts.tokens ++ rest) = .error e) :
    Blames levels ts.nesting ts.Defined e.reason := by
  induction budget generalizing v ts with
  | nil =>
      have hnil : ts.tokens ++ rest = [] := List.length_eq_zero_iff.1 (Nat.le_zero.1 hbudget)
      rw [hnil, readTerms_done operand [] v fun sign => endsSum_nil sign.operator] at h
      cases h
  | cons b budget ih =>
      cases ts with
      | done =>
          rw [Terms.tokens, List.nil_append,
            readTerms_done operand _ v fun sign => hrest sign.operator] at h
          cases h
      | step sign p ts =>
          have hends := ts.endsProduct hrest
          rw [Terms.step_append] at hbudget h
          rw [readTerms_step, bind_eq_error_iff] at h
          rcases h with h | ⟨⟨w, r⟩, hw, h⟩
          · exact (hblames.product hreads hends h).mono (le_max_left _ _) fun hd => hd.1
          · obtain ⟨p', hp, hr, -, -, rfl⟩ := hreads.readProduct_iff.1 hw
            obtain ⟨rfl, rfl⟩ := Product.tokens_append_inj p p' _ _ hends hr hp
            simp only [List.length_cons, List.length_append] at hbudget
            have hshort : (ts.tokens ++ rest).length ≤ budget.length := by
              rw [List.length_append]
              omega
            exact (ih hshort h).mono (le_max_right _ _) fun hd => hd.2

lemma sum (hblames : BlamesOperands operand levels) (hreads : ReadsOperands operand levels)
    {s : Sum} {rest : List Token} {e : Rejection} (hrest : EndsSum rest)
    (h : readSum operand (s.tokens ++ rest) = .error e) :
    Blames levels s.nesting s.Defined e.reason := by
  obtain ⟨p, ts⟩ := s
  have hends := ts.endsProduct hrest
  rw [Sum.of_append, readSum, bind_eq_error_iff] at h
  rcases h with h | ⟨⟨w, r⟩, hw, h⟩
  · exact (hblames.product hreads hends h).mono (le_max_left _ _) fun hd => hd.1
  · obtain ⟨p', hp, hr, -, -, rfl⟩ := hreads.readProduct_iff.1 hw
    obtain ⟨rfl, rfl⟩ := Product.tokens_append_inj p p' _ _ hends hr hp
    exact (hblames.terms hreads le_rfl hrest h).mono (le_max_right _ _) fun hd => hd.2

end BlamesOperands

/-- The readers of operands fail for nothing else, whatever levels are left. -/
theorem blamesOperands (levels : ℕ) : BlamesOperands (readOperand levels) levels := by
  induction levels with
  | zero =>
      intro o rest e h
      have hpos : 0 < o.nesting := by cases o <;> simp [Operand.nesting]
      rw [readOperand] at h
      cases h
      exact Or.inl ⟨rfl, hpos⟩
  | succ levels ih =>
      intro o rest e h
      have hreads := readsOperands levels
      have hdeeper {n : ℕ} {P : Prop} (hb : Blames levels n P e.reason) :
          Blames (levels + 1) (n + 1) P e.reason := by
        rcases hb with ⟨hr, hlt⟩ | hzero
        · exact Or.inl ⟨hr, Nat.succ_lt_succ hlt⟩
        · exact Or.inr hzero
      cases o with
      | number x => cases h
      | signed sign o =>
          rw [Operand.signed_append, readOperand_sign, bind_eq_error_iff] at h
          rcases h with h | ⟨_, -, h⟩
          · exact hdeeper (ih o rest e h)
          · cases h
      | grouped s =>
          have hends := endsSum_paren .closing rest
          rw [Operand.grouped_append, readOperand, bind_eq_error_iff] at h
          rcases h with h | ⟨⟨w, r⟩, hw, h⟩
          · exact hdeeper (ih.sum hreads hends h)
          · -- behind the sum there stands nothing but its parenthesis
            obtain ⟨s', hs, hr, -⟩ := hreads.readSum_iff.1 hw
            obtain ⟨-, rfl⟩ := Sum.tokens_append_inj s s' _ _ hends hr hs
            cases h

/-! ### Whole sums -/

section Sums

variable {levels : ℕ} {s : Sum}

/-- The tokens of a sum that is nested no deeper than allowed and divides by no zero have its
value, if that is finite. -/
lemma valueWithin_tokens (hn : s.nesting ≤ levels) (hd : s.Defined) :
    valueWithin levels s.tokens = requireFinite s.value := by
  have hread : readSum (readOperand levels) s.tokens = .ok (s.value, []) :=
    (readsOperands levels).readSum_iff.2 ⟨s, (List.append_nil _).symm, endsSum_nil, hn, hd, rfl⟩
  simp only [valueWithin, hread]

lemma readSum_tokens_cases (levels : ℕ) (s : Sum) :
    (s.nesting ≤ levels ∧ s.Defined ∧ valueWithin levels s.tokens = requireFinite s.value) ∨
      ∃ e : Rejection, valueWithin levels s.tokens = .error e.reason ∧
        Blames levels s.nesting s.Defined e.reason := by
  cases hread : readSum (readOperand levels) s.tokens with
  | error e =>
      refine Or.inr ⟨e, valueWithin_of_error hread, ?_⟩
      rw [← List.append_nil s.tokens] at hread
      exact (blamesOperands levels).sum (readsOperands levels) endsSum_nil hread
  | ok x =>
      obtain ⟨v, rest⟩ := x
      obtain ⟨s', hs, hrest, hn, hd, -⟩ := (readsOperands levels).readSum_iff.1 hread
      rw [← List.append_nil s.tokens] at hs
      obtain ⟨rfl, -⟩ := Sum.tokens_append_inj s s' _ _ endsSum_nil hrest hs
      exact Or.inl ⟨hn, hd, valueWithin_tokens hn hd⟩

lemma nesting_of_nestedTooDeep (h : valueWithin levels s.tokens = .error .nestedTooDeep) :
    levels < s.nesting := by
  rcases readSum_tokens_cases levels s with ⟨-, -, hvalue⟩ | ⟨e, hvalue, hblame⟩
  · exact absurd (eq_notFinite_of_requireFinite (hvalue.symm.trans h)) (by decide)
  · obtain hreason : e.reason = .nestedTooDeep := Except.error.inj (hvalue.symm.trans h)
    rcases hblame with ⟨-, hlt⟩ | ⟨hzero, -⟩
    · exact hlt
    · cases hreason.symm.trans hzero

lemma nestedTooDeep_of_nesting (hn : levels < s.nesting) (hd : s.Defined) :
    valueWithin levels s.tokens = .error .nestedTooDeep := by
  rcases readSum_tokens_cases levels s with ⟨hle, -, -⟩ | ⟨e, hvalue, hblame⟩
  · omega
  · rcases hblame with ⟨hreason, -⟩ | ⟨-, hnot⟩
    · rw [hvalue, hreason]
    · exact absurd hd hnot

/-- A text with the tokens of a sum has what becomes of these. -/
lemma value_of_tokens_eq {text : String} (h : tokens (strip text).toList = .ok s.tokens) :
    value text = valueOfTokens s.tokens := by
  have hne : strip text ≠ "" := by
    intro hempty
    rw [hempty] at h
    exact s.tokens_ne_nil (Except.ok.inj h).symm
  rw [value_eq, if_neg hne, h]
  rfl

end Sums

/-! ### Operands side by side -/

namespace Grammar

/-- One more operand in front of a sum. -/
def Sum.prepend (o : Operand) : Operator → Sum → Sum
  | .plus, .of p ts => .of (.of o .done) (.step .plus p ts)
  | .minus, .of p ts => .of (.of o .done) (.step .minus p ts)
  | .times, .of (.of o' fs) ts => .of (.of o (.step .times o' fs)) ts
  | .divide, .of (.of o' fs) ts => .of (.of o (.step .divide o' fs)) ts

/-- An operand and any number of others behind it, each behind an operator, as a sum. -/
def chain (o : Operand) : List (Operator × Operand) → Sum
  | [] => o.alone
  | (op, o') :: rest => (chain o' rest).prepend o op

lemma Sum.tokens_prepend (o : Operand) (op : Operator) (s : Sum) :
    (s.prepend o op).tokens = o.tokens ++ .operator op :: s.tokens := by
  obtain ⟨⟨o', fs⟩, ts⟩ := s
  cases op <;>
    simp [prepend, Sum.tokens, Product.tokens, Terms.tokens, Factors.tokens, Sign.operator,
      Scaling.operator]

lemma Sum.nesting_prepend (o : Operand) (op : Operator) (s : Sum) :
    (s.prepend o op).nesting = max o.nesting s.nesting := by
  obtain ⟨⟨o', fs⟩, ts⟩ := s
  cases op <;>
    simp [prepend, Sum.nesting, Product.nesting, Terms.nesting, Factors.nesting, max_assoc]

lemma tokens_chain (o : Operand) (rest : List (Operator × Operand)) :
    (chain o rest).tokens
      = o.tokens ++ rest.flatMap fun p => .operator p.1 :: p.2.tokens := by
  induction rest generalizing o with
  | nil => simp [chain, Operand.tokens_alone]
  | cons p rest ih => rw [chain, Sum.tokens_prepend, ih, List.flatMap_cons, List.cons_append]

lemma nesting_chain_le_iff (o : Operand) (rest : List (Operator × Operand)) (levels : ℕ) :
    (chain o rest).nesting ≤ levels ↔
      ∀ o' ∈ o :: rest.map Prod.snd, o'.nesting ≤ levels := by
  induction rest generalizing o with
  | nil => simp [chain, Operand.nesting_alone]
  | cons p rest ih =>
      rw [chain, Sum.nesting_prepend, max_le_iff, ih]
      simp only [List.map_cons, List.forall_mem_cons]

end Grammar

/-! ### Signs and parentheses around a literal -/

/-- What may stand in front of an operand: a sign, or a parenthesis that is closed behind it. -/
inductive Opener where
  | sign (sign : Sign)
  | paren
deriving DecidableEq

namespace Opener

/-- The character of an opener. -/
def char : Opener → Char
  | sign s => s.operator.char
  | paren => '('

/-- An operand behind an opener. -/
def wrap : Opener → Operand → Operand
  | sign s, o => .signed s o
  | paren, o => .grouped o.alone

/-- What an opener makes of a value. -/
def apply : Opener → Binary64 → Binary64
  | sign s, x => s.apply x
  | paren, x => x

end Opener

/-- Openers in front of a text, and behind it as many closing parentheses as are needed. -/
def wrappedText (openers : List Opener) (cs : List Char) : List Char :=
  openers.map Opener.char ++ (cs ++ List.replicate (openers.count .paren) ')')

/-- Openers in front of an operand. -/
def wrapped (openers : List Opener) (o : Operand) : Operand := openers.foldr Opener.wrap o

/-- What openers make of a value, the innermost first. -/
def wrappedValue (openers : List Opener) (x : Binary64) : Binary64 :=
  openers.foldr Opener.apply x

lemma wrappedText_sign (sign : Sign) (openers : List Opener) (cs : List Char) :
    wrappedText (.sign sign :: openers) cs = sign.operator.char :: wrappedText openers cs := by
  simp [wrappedText, Opener.char]

lemma wrappedText_paren (openers : List Opener) (cs : List Char) :
    wrappedText (.paren :: openers) cs = '(' :: (wrappedText openers cs ++ [')']) := by
  simp [wrappedText, Opener.char, List.replicate_succ']

section Wrapped

variable (openers : List Opener)

/-- The tokens of a text behind openers are those of the operand behind them. -/
lemma tokens_wrappedText {cs : List Char} {o : Operand} (h : tokens cs = .ok o.tokens) :
    tokens (wrappedText openers cs) = .ok (wrapped openers o).tokens := by
  induction openers with
  | nil => simpa [wrappedText, wrapped] using h
  | cons opener openers ih =>
      cases opener with
      | sign sign =>
          rw [wrappedText_sign]
          exact tokens_cons (isNumeral_operator _) (tokens_operator _) ih
      | paren =>
          rw [wrappedText_paren, wrapped, List.foldr_cons, Opener.wrap, Operand.tokens,
            Operand.tokens_alone]
          exact tokens_grouped ih

lemma filter_wrappedText {cs : List Char} (h : ∀ c ∈ cs, inAlphabet c = true) :
    (wrappedText openers cs).filter inAlphabet = wrappedText openers cs := by
  rw [List.filter_eq_self]
  intro c hc
  simp only [wrappedText, List.mem_append, List.mem_map] at hc
  rcases hc with ⟨opener, -, rfl⟩ | hc | hc
  · cases opener with
    | sign sign => exact inAlphabet_operator sign.operator
    | paren => rfl
  · exact h c hc
  · rw [List.eq_of_mem_replicate hc]
    rfl

lemma nesting_wrapped (o : Operand) : (wrapped openers o).nesting = openers.length + o.nesting := by
  induction openers with
  | nil => simp [wrapped]
  | cons opener openers ih =>
      have hstep : (opener.wrap (wrapped openers o)).nesting = (wrapped openers o).nesting + 1 := by
        cases opener <;> simp [Opener.wrap, Operand.nesting, Operand.nesting_alone]
      change (opener.wrap (wrapped openers o)).nesting = _
      rw [hstep, ih, List.length_cons]
      omega

lemma defined_wrapped {o : Operand} (h : o.Defined) : (wrapped openers o).Defined := by
  induction openers with
  | nil => exact h
  | cons opener openers ih =>
      cases opener with
      | sign sign => exact ih
      | paren => exact ⟨⟨ih, trivial⟩, trivial⟩

/-- The value behind openers is what they make of it. -/
lemma value_wrapped (o : Operand) : (wrapped openers o).value = wrappedValue openers o.value := by
  induction openers with
  | nil => rfl
  | cons opener openers ih =>
      cases opener with
      | sign sign => exact congrArg sign.apply ih
      | paren => exact ih

lemma isFinite_wrappedValue (x : Binary64) : (wrappedValue openers x).isFinite = x.isFinite := by
  induction openers with
  | nil => rfl
  | cons opener openers ih =>
      rw [← ih]
      rcases opener with (- | -) | -
      · rfl
      · exact Binary64.isFinite_neg _
      · rfl

variable {run : List Char} {x : Binary64} (hrun : ∀ c ∈ run, isNumeral c = true)
  (hx : readLiteral? run = some x)

include hrun hx

/-- A literal behind openers has what becomes of its number behind them. -/
lemma value_wrappedText :
    value (.ofList (wrappedText openers run))
      = valueOfTokens (wrapped openers (.number x)).alone.tokens := by
  have hne : run ≠ [] := by
    rintro rfl
    cases hx
  refine value_of_tokens_eq ?_
  rw [strip, String.toList_ofList, String.toList_ofList,
    filter_wrappedText openers fun c hc => inAlphabet_of_isNumeral (hrun c hc),
    Operand.tokens_alone]
  exact tokens_wrappedText openers (tokens_run hne hrun hx)

lemma value_wrappedText_of_lt (hf : x.isFinite = true) (h : openers.length < maxLevels) :
    value (.ofList (wrappedText openers run)) = .ok (wrappedValue openers x) := by
  have hn : (wrapped openers (.number x)).alone.nesting ≤ maxLevels := by
    rw [Operand.nesting_alone, nesting_wrapped, Operand.nesting]
    omega
  have hvalue : (wrapped openers (.number x)).alone.value = wrappedValue openers x :=
    value_wrapped openers _
  rw [value_wrappedText openers hrun hx, valueOfTokens,
    valueWithin_tokens hn ⟨⟨defined_wrapped openers trivial, trivial⟩, trivial⟩, hvalue]
  exact requireFinite_eq_ok_iff.2 ⟨rfl, (isFinite_wrappedValue openers x).trans hf⟩

lemma value_wrappedText_of_le (h : maxLevels ≤ openers.length) :
    value (.ofList (wrappedText openers run)) = .error .nestedTooDeep := by
  rw [value_wrappedText openers hrun hx]
  refine nestedTooDeep_of_nesting ?_ ⟨⟨defined_wrapped openers trivial, trivial⟩, trivial⟩
  rw [Operand.nesting_alone, nesting_wrapped, Operand.nesting]
  omega

end Wrapped

/-! ### The limit -/

/-- **The limit of nesting.** A literal of a finite number with signs and parentheses around it, in
any order, has the number with these signs as its value when there are at most 255 of them, and is
rejected as nested too deeply when there are more. Operators do not count: a text of operands with
operators between them, however many, is rejected as nested too deeply only if one of the operands
is nested deeper than 256 levels, and then it is, if it divides by no zero. -/
theorem nesting_limit {openers : List Opener} {run : List Char} {x : Binary64}
    (hrun : ∀ c ∈ run, isNumeral c = true) (hx : readLiteral? run = some x)
    (hf : x.isFinite = true) :
    (openers.length ≤ 255 →
      value (.ofList (wrappedText openers run)) = .ok (wrappedValue openers x)) ∧
    (256 ≤ openers.length → value (.ofList (wrappedText openers run)) = .error .nestedTooDeep) ∧
    ∀ (text : String) (o : Operand) (rest : List (Operator × Operand)),
      tokens (strip text).toList
          = .ok (o.tokens ++ rest.flatMap fun p => .operator p.1 :: p.2.tokens) →
        ((∀ o' ∈ o :: rest.map Prod.snd, o'.nesting ≤ 256) →
          value text ≠ .error .nestedTooDeep) ∧
        ((∃ o' ∈ o :: rest.map Prod.snd, 256 < o'.nesting) → (chain o rest).Defined →
          value text = .error .nestedTooDeep) := by
  refine ⟨fun h => ?_, fun h => ?_, fun text o rest htokens => ?_⟩
  · exact value_wrappedText_of_lt openers hrun hx hf (Nat.lt_succ_of_le h)
  · exact value_wrappedText_of_le openers hrun hx h
  · rw [← tokens_chain] at htokens
    rw [value_of_tokens_eq htokens]
    refine ⟨fun hall h => ?_, fun ⟨o', ho', hdeep⟩ hd => ?_⟩
    · have hlt := nesting_of_nestedTooDeep h
      have hle := (nesting_chain_le_iff o rest 256).2 hall
      rw [maxLevels] at hlt
      omega
    · refine nestedTooDeep_of_nesting (Nat.lt_of_not_le fun hle => ?_) hd
      have hle' := (nesting_chain_le_iff o rest maxLevels).1 hle o' ho'
      rw [maxLevels] at hle'
      omega

/-- So a one has a value in 255 parentheses and behind 255 signs, but none in 256 parentheses, alone
or as a term of a sum; and three numbers with operators between them are not too deep. -/
theorem nesting_limit_of_one :
    value (.ofList (wrappedText (.replicate 255 .paren) ['1'])) = .ok (.ofNat 1) ∧
    value (.ofList (wrappedText (.replicate 255 (.sign .minus)) ['1'])) = .ok (-.ofNat 1) ∧
    value (.ofList (wrappedText (.replicate 256 .paren) ['1'])) = .error .nestedTooDeep ∧
    value "1+2*3" ≠ .error .nestedTooDeep ∧
    value (.ofList ('1' :: '+' :: wrappedText (.replicate 256 .paren) ['1']))
      = .error .nestedTooDeep := by
  have hrun : ∀ c ∈ ['1'], isNumeral c = true := List.all_eq_true.1 (by decide)
  have hone := fun openers : List Opener =>
    @nesting_limit openers ['1'] (.ofNat 1) hrun (by decide +kernel) (by decide +kernel)
  have htext := (hone []).2.2
  have hparens : wrappedValue (.replicate 255 .paren) (.ofNat 1) = .ofNat 1 := by decide +kernel
  have hsigns : wrappedValue (.replicate 255 (.sign .minus)) (.ofNat 1) = -.ofNat 1 := by
    decide +kernel
  have hread : tokens ['1'] = .ok (Operand.number (.ofNat 1)).tokens := by decide +kernel
  have htokens : tokens (strip (.ofList ('1' :: '+' ::
      wrappedText (.replicate 256 .paren) ['1']))).toList
        = .ok ((Operand.number (.ofNat 1)).tokens
          ++ [(.plus, wrapped (.replicate 256 .paren) (.number (.ofNat 1)))].flatMap
            fun p => .operator p.1 :: p.2.tokens) := by
    rw [strip, String.toList_ofList, String.toList_ofList, List.filter_cons_of_pos rfl,
      List.filter_cons_of_pos rfl,
      filter_wrappedText _ fun c hc => inAlphabet_of_isNumeral (hrun c hc), List.flatMap_singleton]
    exact @tokens_around ['1'] _ _ _ '+' _ rfl rfl hread (tokens_wrappedText _ hread)
  have hdeep : 256 < (wrapped (.replicate 256 .paren) (.number (.ofNat 1))).nesting := by
    rw [nesting_wrapped, List.length_replicate]
    exact Nat.lt_succ_self 256
  have hdefined : (wrapped (.replicate 256 .paren) (.number (.ofNat 1))).Defined :=
    defined_wrapped _ trivial
  generalize wrapped (.replicate 256 .paren) (.number (.ofNat 1)) = o at htokens hdeep hdefined
  refine ⟨?_, ?_, (hone _).2.1 List.length_replicate.ge, ?_, ?_⟩
  · rw [(hone _).1 List.length_replicate.le, hparens]
  · rw [(hone _).1 List.length_replicate.le, hsigns]
  · exact (htext "1+2*3" (.number (.ofNat 1))
      [(.plus, .number (.ofNat 2)), (.times, .number (.ofNat 3))] (by decide +kernel)).1 (by decide)
  · exact (htext _ _ _ htokens).2 ⟨o, List.mem_cons_of_mem _ List.mem_cons_self, hdeep⟩
      ⟨⟨trivial, trivial⟩, ⟨hdefined, trivial⟩, trivial⟩

/-- The number itself takes a level, so 256 parentheses, signs, or both, are one too many: not
every literal with so many around it has a value. -/
theorem wrapped_in_maxLevels_has_no_value :
    ¬ ∀ (openers : List Opener) (run : List Char) (x : Binary64),
      (∀ c ∈ run, isNumeral c = true) → readLiteral? run = some x → x.isFinite = true →
        openers.length ≤ maxLevels →
          ∃ v, value (.ofList (wrappedText openers run)) = .ok v := by
  intro h
  have hrun : ∀ c ∈ ['1'], isNumeral c = true := List.all_eq_true.1 (by decide)
  have hx : readLiteral? ['1'] = some (.ofNat 1) := by decide +kernel
  obtain ⟨v, hv⟩ := h (.replicate maxLevels .paren) ['1'] _ hrun hx (by decide +kernel) (by simp)
  rw [value_wrappedText_of_le _ hrun hx (by simp)] at hv
  cases hv

end DeskCalculator
