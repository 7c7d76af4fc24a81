import DeskCalculator.Proofs.Expression.Meaning
import DeskCalculator.Proofs.Expression.Pieces

/-!
The fault of a text is the first one in reading order.

Which tokens may follow one another is told by an automaton with one counter, for the open
parentheses, and one flag, whether an operand is expected. It knows nothing of values,
precedence or levels.

* `Scan`, `Scan.step`, `Scan.finish`: the automaton; `scan`: its verdict on a whole list.
* `Follows`: a reading agrees with a run of the automaton. What is read drives it from one
  state to another, and a syntactic fault is its verdict. A fault of values, a zero divisor
  or too deep a nesting, only says that the automaton finds none in what was taken before.
* `Follows.cons`, `Follows.bind`: how this is passed on, token by token and from one part
  to the next.
* `follows_readOperand`: the readers of operands agree with it, by induction on the levels,
  and `follows_readFactors`, `follows_readTerms`, `follows_readSum` those built on them.
* `value_fault_is_first`: the fault of a text.
-/

namespace DeskCalculator

open Grammar

/-! ### The automaton -/

/-- How many parentheses are open and whether an operand is expected. -/
structure Scan where
  opened : ℕ
  expecting : Bool
deriving DecidableEq

namespace Scan

/-- What the automaton begins with. -/
def start : Scan := ⟨0, true⟩

/-- One token. -/
def step : Scan → Token → Except Reason Scan
  | ⟨d, true⟩, .number _ => .ok ⟨d, false⟩
  | ⟨d, true⟩, .operator .plus => .ok ⟨d, true⟩
  | ⟨d, true⟩, .operator .minus => .ok ⟨d, true⟩
  | ⟨_, true⟩, .operator .times => .error .misplacedToken
  | ⟨_, true⟩, .operator .divide => .error .misplacedToken
  | ⟨d, true⟩, .paren .opening => .ok ⟨d + 1, true⟩
  | ⟨_, true⟩, .paren .closing => .error .unbalanced
  | ⟨_, false⟩, .number _ => .error .misplacedToken
  | ⟨d, false⟩, .operator _ => .ok ⟨d, true⟩
  | ⟨_, false⟩, .paren .opening => .error .misplacedToken
  | ⟨0, false⟩, .paren .closing => .error .unbalanced
  | ⟨d + 1, false⟩, .paren .closing => .ok ⟨d, false⟩

/-- The end of the tokens. -/
def finish : Scan → Except Reason Unit
  | ⟨_, true⟩ => .error .endsEarly
  | ⟨0, false⟩ => .ok ()
  | ⟨_ + 1, false⟩ => .error .unbalanced

/-- One token after the other. -/
def run (s : Scan) (ts : List Token) : Except Reason Scan := ts.foldlM step s

/-- One token after the other up to the end. -/
def verdict (s : Scan) (ts : List Token) : Except Reason Unit := s.run ts >>= finish

lemma verdict_append {s s' : Scan} {taken : List Token} (h : s.run taken = .ok s')
    (rest : List Token) : s.verdict (taken ++ rest) = s'.verdict rest := by
  unfold run at h
  rw [verdict, run, List.foldlM_append, h]
  rfl

lemma run_append {s s' : Scan} {taken : List Token} (h : s.run taken = .ok s')
    (rest : List Token) : s.run (taken ++ rest) = s'.run rest := by
  unfold run at h
  rw [run, List.foldlM_append, h]
  rfl

lemma run_cons {s s' : Scan} {t : Token} (h : s.step t = .ok s') (ts : List Token) :
    s.run (t :: ts) = s'.run ts := by
  rw [run, List.foldlM_cons, h]
  rfl

end Scan

/-- The faults that lie in the order of the tokens. -/
def Reason.IsSyntactic (r : Reason) : Prop :=
  r = .misplacedToken ∨ r = .endsEarly ∨ r = .unbalanced

instance (r : Reason) : Decidable r.IsSyntactic := inferInstanceAs (Decidable (_ ∨ _ ∨ _))

namespace Scan

/-- A token is refused for the order of the tokens. -/
lemma isSyntactic_of_step {s : Scan} {t : Token} {r : Reason} (h : s.step t = .error r) :
    r.IsSyntactic := by
  unfold step at h
  split at h <;> cases h <;> decide

/-- The end is refused for the order of the tokens. -/
lemma isSyntactic_of_finish {s : Scan} {r : Reason} (h : s.finish = .error r) :
    r.IsSyntactic := by
  unfold finish at h
  split at h <;> cases h <;> decide

/-- The automaton finds no other faults. -/
lemma isSyntactic_of_verdict {s : Scan} {ts : List Token} {r : Reason}
    (h : s.verdict ts = .error r) : r.IsSyntactic := by
  induction ts generalizing s with
  | nil => exact isSyntactic_of_finish h
  | cons t ts ih =>
      cases hstep : s.step t with
      | error r' =>
          rw [verdict, run, List.foldlM_cons, hstep] at h
          cases h
          exact isSyntactic_of_step hstep
      | ok s' =>
          rw [verdict, run_cons hstep] at h
          exact ih h

end Scan

/-- The verdict of the automaton on tokens. -/
def scan (ts : List Token) : Except Reason Unit := Scan.start.verdict ts

/-! ### Agreement of a reading with a run -/

/-- The faults that lie in the values or the levels and not in the order of the tokens. -/
def Reason.Preempts (r : Reason) : Prop := r = .zeroDivisor ∨ r = .nestedTooDeep

instance (r : Reason) : Decidable r.Preempts := inferInstanceAs (Decidable (_ ∨ _))

/-- A fault of the order of the tokens is no fault of values or levels. -/
lemma Reason.IsSyntactic.not_preempts {r : Reason} (h : r.IsSyntactic) : ¬ r.Preempts := by
  rcases h with rfl | rfl | rfl <;> decide

/-- A reading of tokens agrees with the automaton in the state `s`: it ends in the state
`s'` behind what was read, its verdict is the syntactic fault, and before a fault of another
kind it has found none. -/
def Follows (s s' : Scan) (ts : List Token) : Reading → Prop
  | .ok (_, rest) => ∃ taken, ts = taken ++ rest ∧ s.run taken = .ok s'
  | .error ⟨reason, rest⟩ =>
    if reason.Preempts then ∃ taken s₁, ts = taken ++ rest ∧ s.run taken = .ok s₁
    else s.verdict ts = .error reason

namespace Follows

variable {s s₁ s' : Scan} {ts : List Token}

lemma refl (v : Binary64) : Follows s s ts (.ok (v, ts)) := ⟨[], rfl, rfl⟩

/-- A fault of values or levels is met where the reading stands. -/
lemma preempted {r : Reason} (hr : r.Preempts) : Follows s s' ts (.error ⟨r, ts⟩) := by
  rw [Follows, if_pos hr]
  exact ⟨[], s, rfl, rfl⟩

lemma faulted {r : Reason} {rest : List Token} (hr : ¬ r.Preempts)
    (h : s.verdict ts = .error r) : Follows s s' ts (.error ⟨r, rest⟩) := by
  rwa [Follows, if_neg hr]

lemma append (taken : List Token) (h : s.run taken = .ok s₁) {x : Reading}
    (hx : Follows s₁ s' ts x) : Follows s s' (taken ++ ts) x := by
  rcases x with ⟨reason, rest⟩ | ⟨v, rest⟩
  · by_cases hr : reason.Preempts
    · rw [Follows, if_pos hr] at hx ⊢
      obtain ⟨more, s₂, rfl, hs₂⟩ := hx
      exact ⟨taken ++ more, s₂, (List.append_assoc _ _ _).symm, (Scan.run_append h _).trans hs₂⟩
    · rw [Follows, if_neg hr] at hx ⊢
      rw [Scan.verdict_append h, hx]
  · obtain ⟨more, rfl, hs'⟩ := hx
    exact ⟨taken ++ more, (List.append_assoc _ _ _).symm, (Scan.run_append h _).trans hs'⟩

lemma cons (next : Scan) {t : Token} (h : s.step t = .ok next) {x : Reading}
    (hx : Follows next s' ts x) : Follows s s' (t :: ts) x :=
  append [t] ((Scan.run_cons h []).trans rfl) hx

/-- Reading goes on behind a first part. -/
lemma bind {x : Reading} (hx : Follows s s₁ ts x) {f : Binary64 × List Token → Reading}
    (hf : ∀ v rest, x = .ok (v, rest) → Follows s₁ s' rest (f (v, rest))) :
    Follows s s' ts (x >>= f) := by
  rcases x with ⟨reason, rest⟩ | ⟨v, rest⟩
  · by_cases hr : reason.Preempts
    · rw [error_bind, Follows, if_pos hr]
      rwa [Follows, if_pos hr] at hx
    · rw [error_bind, Follows, if_neg hr]
      rwa [Follows, if_neg hr] at hx
  · obtain ⟨taken, rfl, hs₁⟩ := hx
    exact append taken hs₁ (hf v rest rfl)

end Follows

/-! ### The readers agree with the automaton -/

/-- Where an operand is expected, a reader reads one as the automaton does. -/
def FollowsOperands (operand : Reader) : Prop :=
  ∀ (d : ℕ) (ts : List Token), Follows ⟨d, true⟩ ⟨d, false⟩ ts (operand ts)

namespace FollowsOperands

variable {operand : Reader}

/-- Behind an operand, the loop over factors ends behind another one. -/
lemma follows_readFactors (hop : FollowsOperands operand) (d : ℕ) (budget : List Token)
    (v : Binary64) (ts : List Token) :
    Follows ⟨d, false⟩ ⟨d, false⟩ ts (readFactors operand budget v ts) := by
  induction budget generalizing v ts with
  | nil => exact Follows.refl v
  | cons b budget ih =>
      rcases endsProduct_or_scaling ts with hts | ⟨op, ts, rfl⟩
      · rw [readFactors_done operand _ v hts]
        exact Follows.refl v
      · rw [readFactors_step]
        refine Follows.cons ⟨d, true⟩ rfl ((hop d ts).bind fun w rest _ => ?_)
        dsimp only
        split
        · exact ih _ rest
        · exact Follows.preempted (Or.inl rfl)

/-- A product is read as the automaton does. -/
lemma follows_readProduct (hop : FollowsOperands operand) (d : ℕ) (ts : List Token) :
    Follows ⟨d, true⟩ ⟨d, false⟩ ts (readProduct operand ts) :=
  (hop d ts).bind fun v rest _ => hop.follows_readFactors d rest v rest

/-- Behind a product, the loop over terms ends behind another one. -/
lemma follows_readTerms (hop : FollowsOperands operand) (d : ℕ) (budget : List Token)
    (v : Binary64) (ts : List Token) :
    Follows ⟨d, false⟩ ⟨d, false⟩ ts (readTerms operand budget v ts) := by
  induction budget generalizing v ts with
  | nil => exact Follows.refl v
  | cons b budget ih =>
      rcases head_ne_or_operator Sign.operator ts with hts | ⟨sign, ts, rfl⟩
      · rw [readTerms_done operand _ v hts]
        exact Follows.refl v
      · rw [readTerms_step]
        refine Follows.cons ⟨d, true⟩ rfl
          ((hop.follows_readProduct d ts).bind fun w rest _ => ?_)
        exact ih _ rest

/-- A sum is read as the automaton does. -/
lemma follows_readSum (hop : FollowsOperands operand) (d : ℕ) (ts : List Token) :
    Follows ⟨d, true⟩ ⟨d, false⟩ ts (readSum operand ts) :=
  (hop.follows_readProduct d ts).bind fun v rest _ => hop.follows_readTerms d rest v rest

end FollowsOperands

/-- Operands are read as the automaton does, whatever levels are left. -/
theorem follows_readOperand (levels : ℕ) : FollowsOperands (readOperand levels) := by
  induction levels with
  | zero => exact fun d ts => Follows.preempted (Or.inr rfl)
  | succ levels ih =>
      intro d ts
      rcases ts with _ | ⟨x | op | p, ts⟩
      · exact Follows.faulted (by decide) rfl
      · exact Follows.cons ⟨d, false⟩ rfl (Follows.refl x)
      · cases op with
        | plus => exact Follows.cons ⟨d, true⟩ rfl (ih d ts)
        | minus =>
            exact Follows.cons ⟨d, true⟩ rfl
              ((ih d ts).bind fun v rest _ => Follows.refl (-v))
        | times => exact Follows.faulted (by decide) rfl
        | divide => exact Follows.faulted (by decide) rfl
      · cases p with
        | closing => exact Follows.faulted (by decide) rfl
        | opening =>
            refine Follows.cons ⟨d + 1, true⟩ rfl
              ((ih.follows_readSum (d + 1) ts).bind fun v rest hread => ?_)
            obtain ⟨-, -, hrest, -⟩ := (readsOperands levels).readSum_iff.1 hread
            rcases rest with _ | ⟨x | op | p, rest⟩
            · exact Follows.faulted (by decide) rfl
            · exact Follows.faulted (by decide) rfl
            · exact absurd rfl (hrest op)
            · cases p with
              | opening => exact Follows.faulted (by decide) rfl
              | closing => exact Follows.cons ⟨d, false⟩ rfl (Follows.refl v)

/-! ### The fault of a text -/

/-- A rejection by the reader is the fault. -/
lemma valueWithin_of_error {levels : ℕ} {ts : List Token} {e : Rejection}
    (h : readSum (readOperand levels) ts = .error e) :
    valueWithin levels ts = .error e.reason := by
  rw [valueWithin, h]

/-- Behind a sum that has been read, the automaton and the judgement of what is left over
agree: they accept no more tokens and find the same fault in any others. -/
lemma leftover_agrees {levels : ℕ} {ts rest : List Token} {v : Binary64}
    (h : readSum (readOperand levels) ts = .ok (v, rest)) (hrest : EndsSum rest) :
    (rest = [] ∧ Scan.verdict ⟨0, false⟩ rest = .ok () ∧
      valueWithin levels ts = requireFinite v) ∨
    ∃ r : Reason, Scan.verdict ⟨0, false⟩ rest = .error r ∧
      valueWithin levels ts = .error r := by
  rw [valueWithin, h]
  rcases rest with _ | ⟨x | op | p, rest⟩
  · exact Or.inl ⟨rfl, rfl, rfl⟩
  · exact Or.inr ⟨.misplacedToken, rfl, rfl⟩
  · exact absurd rfl (hrest op)
  · cases p with
    | opening => exact Or.inr ⟨.misplacedToken, rfl, rfl⟩
    | closing => exact Or.inr ⟨.unbalanced, rfl, rfl⟩

/-- The outcome of reading tokens and the verdict of the automaton: both accept, or both find
the same fault, or the values or levels stop the reading before the automaton finds one. -/
lemma valueWithin_cases (levels : ℕ) (ts : List Token) :
    (scan ts = .ok () ∧
      ∃ s : Sum, s.tokens = ts ∧ valueWithin levels ts = requireFinite s.value) ∨
    (∃ r : Reason, r.IsSyntactic ∧ scan ts = .error r ∧ valueWithin levels ts = .error r) ∨
    ∃ (r : Reason) (taken rest : List Token) (s : Scan), r.Preempts ∧
      valueWithin levels ts = .error r ∧ ts = taken ++ rest ∧
      readSum (readOperand levels) ts = .error ⟨r, rest⟩ ∧ Scan.start.run taken = .ok s := by
  have hfollows := (follows_readOperand levels).follows_readSum 0 ts
  cases hread : readSum (readOperand levels) ts with
  | error e =>
      have hval := valueWithin_of_error hread
      rw [hread] at hfollows
      by_cases hr : e.reason.Preempts
      · rw [Follows, if_pos hr] at hfollows
        obtain ⟨taken, s, hts, hs⟩ := hfollows
        exact Or.inr (Or.inr ⟨e.reason, taken, e.rest, s, hr, hval, hts, rfl, hs⟩)
      · rw [Follows, if_neg hr] at hfollows
        exact Or.inr (Or.inl
          ⟨e.reason, Scan.isSyntactic_of_verdict hfollows, hfollows, hval⟩)
  | ok x =>
      obtain ⟨v, rest⟩ := x
      rw [hread] at hfollows
      obtain ⟨taken, rfl, hrun⟩ := hfollows
      obtain ⟨s, hs, hrest, -, -, rfl⟩ := (readsOperands levels).readSum_iff.1 hread
      obtain rfl := List.append_cancel_right hs
      have hscan : scan (s.tokens ++ rest) = Scan.verdict ⟨0, false⟩ rest :=
        Scan.verdict_append hrun rest
      rcases leftover_agrees hread hrest with ⟨rfl, hok, hval⟩ | ⟨r, herr, hval⟩
      · exact Or.inl ⟨hscan.trans hok, s, (List.append_nil _).symm, hval⟩
      · exact Or.inr (Or.inl
          ⟨r, Scan.isSyntactic_of_verdict herr, hscan.trans herr, hval⟩)

/-- A finite double is required, and nothing else. -/
lemma eq_notFinite_of_requireFinite {x : Binary64} {r : Reason}
    (h : requireFinite x = .error r) : r = .notFinite := by
  unfold requireFinite at h
  split at h <;> cases h
  rfl

/-- Tokens have no value for their order, for their values or levels, or because the value
is not finite. -/
lemma reason_of_valueWithin {levels : ℕ} {ts : List Token} {r : Reason}
    (h : valueWithin levels ts = .error r) : r.IsSyntactic ∨ r.Preempts ∨ r = .notFinite := by
  rcases valueWithin_cases levels ts with ⟨-, s, -, hval⟩ | ⟨r', hr, -, hval⟩ |
    ⟨r', -, -, -, hr, hval, -⟩
  · exact Or.inr (Or.inr (eq_notFinite_of_requireFinite (hval.symm.trans h)))
  · obtain rfl := Except.error.inj (hval.symm.trans h)
    exact Or.inl hr
  · obtain rfl := Except.error.inj (hval.symm.trans h)
    exact Or.inr (Or.inl hr)

/-- When neither the values nor the levels stop the reading of some tokens, the automaton
decides: what it accepts has the value of its derivation, if that is finite, and all other
faults are its faults. -/
lemma valueWithin_iff_scan {levels : ℕ} {ts : List Token}
    (hpre : ∀ r, valueWithin levels ts = .error r → ¬ r.Preempts) :
    (scan ts = .ok () ↔
      ∃ s : Sum, s.tokens = ts ∧ valueWithin levels ts = requireFinite s.value) ∧
    ∀ r, r ≠ .notFinite → (valueWithin levels ts = .error r ↔ scan ts = .error r) := by
  rcases valueWithin_cases levels ts with ⟨hscan, s, hs, hval⟩ | ⟨r, hr, hscan, hval⟩ |
    ⟨r, -, -, -, hr, hval, -⟩
  · refine ⟨⟨fun _ => ⟨s, hs, hval⟩, fun _ => hscan⟩, fun r hr => ⟨fun h => ?_, fun h => ?_⟩⟩
    · exact absurd (eq_notFinite_of_requireFinite (hval.symm.trans h)) hr
    · cases hscan.symm.trans h
  · rw [hscan, hval]
    refine ⟨⟨fun h => ?_, ?_⟩, fun r' _ => ⟨fun h => ?_, fun h => ?_⟩⟩
    · cases h
    · rintro ⟨s, -, h⟩
      obtain rfl := eq_notFinite_of_requireFinite h.symm
      exact absurd hr (by decide)
    · rw [Except.error.inj h]
    · rw [Except.error.inj h]
  · exact absurd hr (hpre r hval)

/-- When a zero divisor or too deep a nesting stops the reading of some tokens, the automaton
has found no fault in what was taken before. -/
lemma scan_of_preempted {levels : ℕ} {ts : List Token} {r : Reason} (hr : r.Preempts)
    (h : valueWithin levels ts = .error r) :
    ∃ taken rest s, ts = taken ++ rest ∧
      readSum (readOperand levels) ts = .error ⟨r, rest⟩ ∧ Scan.start.run taken = .ok s := by
  rcases valueWithin_cases levels ts with ⟨-, s, -, hval⟩ | ⟨r', hr', -, hval⟩ |
    ⟨r', taken, rest, s, -, hval, hrun⟩
  · obtain rfl := eq_notFinite_of_requireFinite (hval.symm.trans h)
    exact absurd hr (by decide)
  · obtain rfl := Except.error.inj (hval.symm.trans h)
    exact absurd hr hr'.not_preempts
  · obtain rfl := Except.error.inj (hval.symm.trans h)
    exact ⟨taken, rest, s, hrun⟩

/-- A text of which nothing is left is empty, and any other has the value of its tokens. -/
lemma value_eq (text : String) :
    value text = if strip text = "" then .error .empty
      else tokens (strip text).toList >>= valueOfTokens := by
  unfold value valueOfStripped
  by_cases h : strip text = ""
  · rw [if_pos h, h]
    rfl
  · have hne : (strip text).toList.isEmpty = false := by simpa using h
    rw [if_neg h, hne]
    rfl

lemma inAlphabet_of_mem_strip {text : String} {c : Char} (h : c ∈ (strip text).toList) :
    inAlphabet c = true := by
  rw [strip, String.toList_ofList] at h
  exact List.of_mem_filter h

lemma valueOfTokens_ne {ts : List Token} {r : Reason} (hr : r = .empty ∨ r = .badNumber) :
    valueOfTokens ts ≠ .error r := by
  intro h
  have hcases := reason_of_valueWithin h
  rcases hr with rfl | rfl <;> exact absurd hcases (by decide)

/-- A text is empty when nothing is left of it; with something left it fails for its runs or
for its tokens. -/
lemma value_eq_error_empty_iff {text : String} :
    value text = .error .empty ↔ strip text = "" := by
  constructor
  · intro h
    by_contra hne
    rw [value_eq, if_neg hne] at h
    rcases bind_eq_error_iff.1 h with ht | ⟨ts, -, hts⟩
    · cases ((tokens_eq_error_iff fun c => inAlphabet_of_mem_strip).1 ht).1
    · exact valueOfTokens_ne (Or.inl rfl) hts
  · intro h
    rw [value_eq, if_pos h]

/-- **The fault of a text is the first one in reading order.** It is `empty` when nothing is
left of the text, and else `badNumber` when a maximal run of digits and points is no literal.
Otherwise the text has tokens. Unless a zero divisor or too deep a nesting is reported, the
automaton decides: it accepts exactly when the text has the value of its derivation, if that
is finite, and all other faults are its faults. And a zero divisor or too deep a nesting is
reported only where the automaton has found no fault yet. -/
theorem value_fault_is_first (text : String) :
    (value text = .error .empty ↔ strip text = "") ∧
    (strip text ≠ "" → (value text = .error .badNumber ↔
      ∃ run, IsMaximalRun run (strip text).toList ∧ isLiteral run = false)) ∧
    (strip text ≠ "" →
      (∀ run, IsMaximalRun run (strip text).toList → isLiteral run = true) →
      ∃ ts, tokens (strip text).toList = .ok ts ∧
        (value text ≠ .error .zeroDivisor → value text ≠ .error .nestedTooDeep →
          (scan ts = .ok () ↔
            ∃ s : Sum, s.tokens = ts ∧ value text = requireFinite s.value) ∧
          ∀ r, r ≠ .notFinite → (value text = .error r ↔ scan ts = .error r)) ∧
        ∀ r, r.Preempts → value text = .error r →
          ∃ taken rest s, ts = taken ++ rest ∧
            readSum (readOperand maxLevels) ts = .error ⟨r, rest⟩ ∧
            Scan.start.run taken = .ok s) := by
  have htokens : ∀ r, tokens (strip text).toList = .error r ↔
      r = .badNumber ∧ ∃ run, IsMaximalRun run (strip text).toList ∧ isLiteral run = false :=
    fun r => tokens_eq_error_iff fun c => inAlphabet_of_mem_strip
  have hvalue := value_eq text
  refine ⟨value_eq_error_empty_iff, fun hne => ?_, fun hne hlit => ?_⟩
  · rw [hvalue, if_neg hne, bind_eq_error_iff]
    constructor
    · rintro (ht | ⟨ts, -, hts⟩)
      · exact ((htokens _).1 ht).2
      · exact absurd hts (valueOfTokens_ne (Or.inr rfl))
    · exact fun h => Or.inl ((htokens _).2 ⟨rfl, h⟩)
  · obtain ⟨ts, hts⟩ : ∃ ts, tokens (strip text).toList = .ok ts := by
      cases h : tokens (strip text).toList with
      | ok ts => exact ⟨ts, rfl⟩
      | error r =>
          obtain ⟨-, run, hrun, hbad⟩ := (htokens r).1 h
          cases (hlit run hrun).symm.trans hbad
    rw [if_neg hne, hts, ok_bind] at hvalue
    refine ⟨ts, hts, fun hz hn => ?_, fun r hr h => scan_of_preempted hr (hvalue.symm.trans h)⟩
    rw [hvalue] at hz hn ⊢
    refine valueWithin_iff_scan ?_
    rintro r h (rfl | rfl)
    · exact hz h
    · exact hn h

end DeskCalculator
