import DeskCalculator.Proofs.Expression.Grammar
import DeskCalculator.Proofs.Outcome

/-!
The value of a text is the meaning of its derivation.

The readers of an expression take tokens and compute at the same time. Each of them is
characterised by the phrases of the grammar: it succeeds exactly on what begins with a
phrase of its kind that is nested no deeper than its levels and divides by no zero, it
gives the value of that phrase, and it leaves what stands behind.

* `ReadsOperands`: this property of a reader of operands.
* `ReadsOperands.readFactors_iff`, `readProduct_iff`, `readTerms_iff`, `readSum_iff`: what
  it makes of the readers built on such a one, each by induction on the budget.
* `readsOperands`: the readers of operands have it, by induction on the levels.
* `value_eq_ok_iff_derivation`: the value of a text, by its derivation.
-/

namespace DeskCalculator

open Grammar

/-! ### The equations of the loops -/

/-- One more factor: the operand is read, and if it is no zero divisor it is taken in. -/
lemma readFactors_step (operand : Reader) (b : Token) (budget : List Token) (v : Binary64)
    (op : Scaling) (ts : List Token) :
    readFactors operand (b :: budget) v (.operator op.operator :: ts) = (do
      let (w, rest) ← operand ts
      if op.Allows w then readFactors operand budget (op.join v w) rest
      else .error ⟨.zeroDivisor, rest⟩) := by
  cases op with
  | times => simp [Scaling.operator, readFactors, Scaling.Allows, Scaling.join]
  | divide =>
      simp only [Scaling.operator, readFactors, Scaling.Allows, Scaling.join, forall_const]
      congr 1
      funext ⟨w, rest⟩
      cases w.isZero <;> rfl

/-- The loop over factors stops where the product ends. -/
lemma readFactors_done (operand : Reader) (budget : List Token) (v : Binary64)
    {ts : List Token} (h : EndsProduct ts) : readFactors operand budget v ts = .ok (v, ts) := by
  have h1 := h .times
  have h2 := h .divide
  unfold readFactors
  split <;> simp_all [Scaling.operator]

/-- One more term: the product is read and taken in. -/
lemma readTerms_step (operand : Reader) (b : Token) (budget : List Token) (v : Binary64)
    (sign : Sign) (ts : List Token) :
    readTerms operand (b :: budget) v (.operator sign.operator :: ts) = (do
      let (w, rest) ← readProduct operand ts
      readTerms operand budget (sign.join v w) rest) := by
  cases sign <;> rfl

/-- The loop over terms stops where there is no sign. -/
lemma readTerms_done (operand : Reader) (budget : List Token) (v : Binary64)
    {ts : List Token} (h : ∀ sign : Sign, ts.head? ≠ some (.operator sign.operator)) :
    readTerms operand budget v ts = .ok (v, ts) := by
  have h1 := h .plus
  have h2 := h .minus
  unfold readTerms
  split <;> simp_all [Sign.operator]

/-! ### Readers built on a reader of operands -/

/-- The reader reads exactly the operands nested at most so deep that divide by no zero, and
gives their values. -/
def ReadsOperands (operand : Reader) (levels : ℕ) : Prop :=
  ∀ (ts : List Token) (v : Binary64) (rest : List Token), operand ts = .ok (v, rest) ↔
    ∃ o : Operand, ts = o.tokens ++ rest ∧ o.nesting ≤ levels ∧ o.Defined ∧ o.value = v

namespace ReadsOperands

variable {operand : Reader} {levels : ℕ}

/-- Where a product ends there is no factor to be read. -/
lemma readFactors_iff_of_ends (levels : ℕ) {budget : List Token} {v w : Binary64}
    {ts rest : List Token} (hts : EndsProduct ts) :
    readFactors operand budget v ts = .ok (w, rest) ↔
      ∃ fs : Factors, ts = fs.tokens ++ rest ∧ EndsProduct rest ∧ fs.nesting ≤ levels ∧
        fs.Defined ∧ fs.fold v = w := by
  rw [readFactors_done operand budget v hts]
  constructor
  · rintro ⟨⟩
    exact ⟨.done, rfl, hts, Nat.zero_le _, trivial, rfl⟩
  · rintro ⟨fs, rfl, -, -, -, rfl⟩
    cases fs with
    | done => rfl
    | step op o fs => exact absurd rfl (hts op)

/-- The loop over factors reads exactly the factors, as long as its budget covers the
tokens. -/
lemma readFactors_iff (hop : ReadsOperands operand levels) {budget : List Token}
    {v w : Binary64} {ts rest : List Token} (hb : ts.length ≤ budget.length) :
    readFactors operand budget v ts = .ok (w, rest) ↔
      ∃ fs : Factors, ts = fs.tokens ++ rest ∧ EndsProduct rest ∧ fs.nesting ≤ levels ∧
        fs.Defined ∧ fs.fold v = w := by
  induction budget generalizing v ts with
  | nil =>
      obtain rfl : ts = [] := List.length_eq_zero_iff.1 (Nat.le_zero.1 hb)
      exact readFactors_iff_of_ends levels endsSum_nil.endsProduct
  | cons b budget ih =>
      rcases endsProduct_or_scaling ts with hts | ⟨op, ts, rfl⟩
      · exact readFactors_iff_of_ends levels hts
      rw [readFactors_step, bind_eq_ok_iff]
      simp only [List.length_cons, Nat.add_le_add_iff_right] at hb
      constructor
      · rintro ⟨⟨u, r⟩, hu, h⟩
        obtain ⟨o, rfl, hn, hd, rfl⟩ := (hop ts u r).1 hu
        rw [List.length_append] at hb
        dsimp only at h
        split at h
        case isTrue ha =>
          obtain ⟨fs, rfl, hr, hns, hds, hw⟩ := (ih (by omega)).1 h
          exact ⟨.step op o fs, (Factors.step_append op o fs rest).symm, hr, max_le hn hns,
            ⟨hd, ha, hds⟩, hw⟩
        case isFalse ha => cases h
      · rintro ⟨fs, hts, hr, hns, hds, hw⟩
        cases fs with
        | done => exact absurd hts.symm (hr.ne_scaling op ts)
        | step op' o fs =>
            rw [Factors.step_append] at hts
            obtain ⟨rfl, rfl⟩ := operator_cons_inj Scaling.operator_injective hts
            obtain ⟨hd, ha, hds⟩ := hds
            refine ⟨(o.value, fs.tokens ++ rest),
              (hop _ _ _).2 ⟨o, rfl, le_of_max_le_left hns, hd, rfl⟩, ?_⟩
            rw [List.length_append] at hb
            dsimp only
            rw [if_pos ha, ih (by omega)]
            exact ⟨fs, rfl, hr, le_of_max_le_right hns, hds, hw⟩

/-- The reader of products reads exactly the products. -/
lemma readProduct_iff (hop : ReadsOperands operand levels) {w : Binary64}
    {ts rest : List Token} :
    readProduct operand ts = .ok (w, rest) ↔
      ∃ p : Product, ts = p.tokens ++ rest ∧ EndsProduct rest ∧ p.nesting ≤ levels ∧
        p.Defined ∧ p.value = w := by
  rw [readProduct, bind_eq_ok_iff]
  constructor
  · rintro ⟨⟨u, r⟩, hu, h⟩
    obtain ⟨o, rfl, hn, hd, rfl⟩ := (hop ts u r).1 hu
    obtain ⟨fs, rfl, hr, hns, hds, hw⟩ := (hop.readFactors_iff le_rfl).1 h
    exact ⟨.of o fs, (Product.of_append o fs rest).symm, hr, max_le hn hns, ⟨hd, hds⟩, hw⟩
  · rintro ⟨⟨o, fs⟩, rfl, hr, hn, ⟨hd, hds⟩, hw⟩
    refine ⟨(o.value, fs.tokens ++ rest),
      (hop _ _ _).2 ⟨o, Product.of_append o fs rest, le_of_max_le_left hn, hd, rfl⟩, ?_⟩
    exact (hop.readFactors_iff le_rfl).2 ⟨fs, rfl, hr, le_of_max_le_right hn, hds, hw⟩

/-- Where a sum ends there is no term to be read. -/
lemma readTerms_iff_of_ends (levels : ℕ) {budget : List Token} {v w : Binary64}
    {ts rest : List Token} (hts : EndsSum ts) :
    readTerms operand budget v ts = .ok (w, rest) ↔
      ∃ terms : Terms, ts = terms.tokens ++ rest ∧ EndsSum rest ∧ terms.nesting ≤ levels ∧
        terms.Defined ∧ terms.fold v = w := by
  rw [readTerms_done operand budget v fun sign => hts sign.operator]
  constructor
  · rintro ⟨⟩
    exact ⟨.done, rfl, hts, Nat.zero_le _, trivial, rfl⟩
  · rintro ⟨terms, rfl, -, -, -, rfl⟩
    cases terms with
    | done => rfl
    | step sign p terms => exact absurd rfl (hts sign.operator)

/-- Behind a product, the loop over terms reads exactly the terms, as long as its budget
covers the tokens. -/
lemma readTerms_iff (hop : ReadsOperands operand levels) {budget : List Token}
    {v w : Binary64} {ts rest : List Token} (hb : ts.length ≤ budget.length)
    (hts : EndsProduct ts) :
    readTerms operand budget v ts = .ok (w, rest) ↔
      ∃ terms : Terms, ts = terms.tokens ++ rest ∧ EndsSum rest ∧ terms.nesting ≤ levels ∧
        terms.Defined ∧ terms.fold v = w := by
  induction budget generalizing v ts with
  | nil =>
      obtain rfl : ts = [] := List.length_eq_zero_iff.1 (Nat.le_zero.1 hb)
      exact readTerms_iff_of_ends levels endsSum_nil
  | cons b budget ih =>
      rcases hts.endsSum_or_sign with hts | ⟨sign, ts, rfl⟩
      · exact readTerms_iff_of_ends levels hts
      rw [readTerms_step, bind_eq_ok_iff]
      simp only [List.length_cons, Nat.add_le_add_iff_right] at hb
      constructor
      · rintro ⟨⟨u, r⟩, hu, h⟩
        obtain ⟨p, rfl, hr, hn, hd, rfl⟩ := hop.readProduct_iff.1 hu
        rw [List.length_append] at hb
        obtain ⟨terms, rfl, hr, hns, hds, hw⟩ := (ih (by omega) hr).1 h
        exact ⟨.step sign p terms, (Terms.step_append sign p terms rest).symm, hr, max_le hn hns,
          ⟨hd, hds⟩, hw⟩
      · rintro ⟨terms, hts, hr, hns, hds, hw⟩
        cases terms with
        | done => exact absurd hts.symm (hr.ne_sign sign ts)
        | step sign' p terms =>
            rw [Terms.step_append] at hts
            obtain ⟨rfl, rfl⟩ := operator_cons_inj Sign.operator_injective hts
            refine ⟨(p.value, terms.tokens ++ rest), hop.readProduct_iff.2
              ⟨p, rfl, terms.endsProduct hr, le_of_max_le_left hns, hds.1, rfl⟩, ?_⟩
            rw [List.length_append] at hb
            rw [ih (by omega) (terms.endsProduct hr)]
            exact ⟨terms, rfl, hr, le_of_max_le_right hns, hds.2, hw⟩

/-- The reader of sums reads exactly the sums. -/
lemma readSum_iff (hop : ReadsOperands operand levels) {w : Binary64}
    {ts rest : List Token} :
    readSum operand ts = .ok (w, rest) ↔
      ∃ s : Sum, ts = s.tokens ++ rest ∧ EndsSum rest ∧ s.nesting ≤ levels ∧
        s.Defined ∧ s.value = w := by
  rw [readSum, bind_eq_ok_iff]
  constructor
  · rintro ⟨⟨u, r⟩, hu, h⟩
    obtain ⟨p, rfl, hr, hn, hd, rfl⟩ := hop.readProduct_iff.1 hu
    obtain ⟨terms, rfl, hr, hns, hds, hw⟩ := (hop.readTerms_iff le_rfl hr).1 h
    exact ⟨.of p terms, (Sum.of_append p terms rest).symm, hr, max_le hn hns, ⟨hd, hds⟩, hw⟩
  · rintro ⟨⟨p, terms⟩, rfl, hr, hn, ⟨hd, hds⟩, hw⟩
    refine ⟨(p.value, terms.tokens ++ rest), hop.readProduct_iff.2
      ⟨p, Sum.of_append p terms rest, terms.endsProduct hr, le_of_max_le_left hn, hd, rfl⟩, ?_⟩
    exact (hop.readTerms_iff le_rfl (terms.endsProduct hr)).2
      ⟨terms, rfl, hr, le_of_max_le_right hn, hds, hw⟩

end ReadsOperands

/-! ### The readers of operands -/

/-- A sign takes a level and leaves the rest of the operand to the reader with one less. -/
lemma readOperand_sign (levels : ℕ) (sign : Sign) (ts : List Token) :
    readOperand (levels + 1) (.operator sign.operator :: ts) = (do
      let (v, rest) ← readOperand levels ts
      .ok (sign.apply v, rest)) := by
  cases sign with
  | minus => rfl
  | plus =>
      change readOperand levels ts = _
      cases readOperand levels ts <;> rfl

/-- The reader of operands with some levels left reads exactly the operands that are
nested no deeper. -/
theorem readsOperands (levels : ℕ) : ReadsOperands (readOperand levels) levels := by
  induction levels with
  | zero =>
      intro ts v rest
      constructor
      · rintro ⟨⟩
      · rintro ⟨o, -, hn, -⟩
        cases o <;> simp [Operand.nesting] at hn
  | succ levels ih =>
      intro ts v rest
      constructor
      · intro h
        rcases ts with _ | ⟨x | op | p, ts⟩
        · cases h
        · obtain ⟨rfl, rfl⟩ : x = v ∧ ts = rest := by simpa [readOperand] using h
          exact ⟨.number x, rfl, Nat.le_add_left 1 levels, trivial, rfl⟩
        · obtain ⟨sign, rfl⟩ : ∃ sign : Sign, op = sign.operator := by
            cases op with
            | plus => exact ⟨.plus, rfl⟩
            | minus => exact ⟨.minus, rfl⟩
            | times => cases h
            | divide => cases h
          rw [readOperand_sign, bind_eq_ok_iff] at h
          obtain ⟨⟨u, r⟩, hu, h⟩ := h
          obtain ⟨rfl, rfl⟩ : sign.apply u = v ∧ r = rest := by simpa using h
          obtain ⟨o, rfl, hn, hd, rfl⟩ := (ih ts u r).1 hu
          exact ⟨.signed sign o, rfl, Nat.succ_le_succ hn, hd, rfl⟩
        · cases p with
          | closing => cases h
          | opening =>
              rw [readOperand, bind_eq_ok_iff] at h
              obtain ⟨⟨u, r⟩, hu, h⟩ := h
              obtain ⟨s, rfl, -, hn, hd, rfl⟩ := ih.readSum_iff.1 hu
              dsimp only at h
              split at h
              · cases h
                exact ⟨.grouped s, (Operand.grouped_append s rest).symm, Nat.succ_le_succ hn, hd,
                  rfl⟩
              · cases h
              · cases h
      · rintro ⟨o, rfl, hn, hd, rfl⟩
        cases o with
        | number x => rfl
        | signed sign o =>
            rw [Operand.signed_append, readOperand_sign, bind_eq_ok_iff]
            exact ⟨_, (ih _ _ _).2 ⟨o, rfl, Nat.le_of_succ_le_succ hn, hd, rfl⟩, rfl⟩
        | grouped s =>
            have hs : readSum (readOperand levels) (s.tokens ++ .paren .closing :: rest)
                = .ok (s.value, .paren .closing :: rest) :=
              ih.readSum_iff.2 ⟨s, rfl, endsSum_paren _ _, Nat.le_of_succ_le_succ hn, hd, rfl⟩
            rw [Operand.grouped_append, readOperand, hs]
            rfl

/-! ### Whole expressions -/

lemma requireFinite_eq_ok_iff {x v : Binary64} :
    requireFinite x = .ok v ↔ x = v ∧ v.isFinite = true := by
  unfold requireFinite
  split
  case isTrue h =>
    constructor
    · rintro ⟨⟩
      exact ⟨rfl, h⟩
    · rintro ⟨rfl, -⟩
      rfl
  case isFalse h =>
    constructor
    · rintro ⟨⟩
    · rintro ⟨rfl, hv⟩
      exact absurd hv h

/-- Tokens have a value when they are those of a sum that is nested no deeper than allowed,
divides by no zero and has a finite value. -/
lemma valueWithin_eq_ok_iff {levels : ℕ} {ts : List Token} {v : Binary64} :
    valueWithin levels ts = .ok v ↔
      ∃ s : Sum, s.tokens = ts ∧ s.nesting ≤ levels ∧ s.Defined ∧ s.value = v ∧
        v.isFinite = true := by
  constructor
  · intro h
    unfold valueWithin at h
    split at h
    case h_2 u hu =>
      obtain ⟨s, rfl, -, hn, hd, rfl⟩ := (readsOperands levels).readSum_iff.1 hu
      obtain ⟨rfl, hf⟩ := requireFinite_eq_ok_iff.1 h
      exact ⟨s, (List.append_nil _).symm, hn, hd, rfl, hf⟩
    all_goals cases h
  · rintro ⟨s, rfl, hn, hd, rfl, hf⟩
    have hs : readSum (readOperand levels) s.tokens = .ok (s.value, []) :=
      (readsOperands levels).readSum_iff.2
        ⟨s, (List.append_nil _).symm, endsSum_nil, hn, hd, rfl⟩
    simp only [valueWithin, hs]
    exact requireFinite_eq_ok_iff.2 ⟨rfl, hf⟩

/-- A text over the alphabet has the value of its tokens. Without characters there are no
tokens, and these are not those of a sum. -/
lemma valueOfStripped_eq_ok_iff {cs : List Char} {v : Binary64} :
    valueOfStripped cs = .ok v ↔ ∃ ts, tokens cs = .ok ts ∧ valueOfTokens ts = .ok v := by
  cases cs with
  | cons c cs =>
      rw [← bind_eq_ok_iff]
      rfl
  | nil =>
      constructor
      · rintro ⟨⟩
      · rintro ⟨ts, ⟨⟩, h⟩
        obtain ⟨s, hs, -⟩ := valueWithin_eq_ok_iff.1 h
        exact absurd hs s.tokens_ne_nil

lemma isFinite_of_value {text : String} {v : Binary64} (h : value text = .ok v) :
    v.isFinite = true := by
  obtain ⟨ts, -, hts⟩ := valueOfStripped_eq_ok_iff.1 h
  obtain ⟨s, -, -, -, -, hf⟩ := valueWithin_eq_ok_iff.1 hts
  exact hf

/-- **The value of a text is the meaning of its derivation**: tokens have at most one
derivation as a sum, and a text has the value `v` exactly when its tokens have one that is
nested at most 256 deep, divides by no zero, and folds to the finite double `v`. -/
theorem value_eq_ok_iff_derivation :
    Function.Injective Sum.tokens ∧
    ∀ (text : String) (v : Binary64), value text = .ok v ↔
      ∃ ts : List Token, tokens (strip text).toList = .ok ts ∧
        ∃ s : Sum, s.tokens = ts ∧ s.nesting ≤ 256 ∧ s.Defined ∧ s.value = v ∧
          v.isFinite = true := by
  refine ⟨fun s s' h => Sum.tokens_injective h, fun text v => ?_⟩
  rw [value, valueOfStripped_eq_ok_iff]
  simp only [valueOfTokens, valueWithin_eq_ok_iff, maxLevels]

end DeskCalculator
