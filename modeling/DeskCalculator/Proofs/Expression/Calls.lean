import DeskCalculator.Proofs.Expression.Machine
import DeskCalculator.Proofs.Expression.Meaning

/-!
The calls that the reading of an expression takes: they get on, give back what they take, and end.

The machine that reads step by step does what the readers do.

* `Ends`: the machine brings a call to its end, with a given reading. `Ends.bind`: a call that waits
  for a part ends when the part does and it then goes on to its end.
* `operandsEnd`, by induction on the levels that are left, and `ends_call`: every call ends with
  what its reader reads.
* `call_returns`: the result, by this and by what every run keeps.
-/

namespace DeskCalculator

open Grammar

namespace Machine

/-! ### Calls that end -/

/-- The reading of a part that ends at the cursor with this result. -/
def Cursor.reading (s : Cursor) : Except Reason Binary64 → Reading
  | .ok v => .ok (v, s.rest)
  | .error reason => .error ⟨reason, s.rest⟩

/-- The reader of a part where so many levels are taken. A whole expression is a sum that is read
where none is. -/
def Call.reader (depth : ℕ) : Call → Reader
  | .sum => readSum (readOperand (maxLevels - depth))
  | .product => readProduct (readOperand (maxLevels - depth))
  | .operand => readOperand (maxLevels - depth)
  | .primary => readOperand (maxLevels - depth + 1)

/-- The machine gets from one state to another. -/
def Reaches (c c' : Config) : Prop := ∃ n, run n c = some c'

/-- A state that steps to one from which the machine gets on. -/
lemma Reaches.head {c c' c'' : Config} (h : step c = some c') (h' : Reaches c' c'') :
    Reaches c c'' := by
  obtain ⟨n, hn⟩ := h'
  exact ⟨n + 1, by rw [run, h, Option.bind_some, hn]⟩

lemma Reaches.trans {c c' c'' : Config} (h : Reaches c c') (h' : Reaches c' c'') :
    Reaches c c'' := by
  obtain ⟨m, hm⟩ := h
  obtain ⟨n, hn⟩ := h'
  exact ⟨m + n, by rw [run_add, hm, Option.bind_some, hn]⟩

/-- Whatever calls are under way, the machine brings the given latest ones to their end, with the
reading, at the depth it has now. -/
def Ends (frames : List Frame) (control : Control) (s : Cursor) (reading : Reading) : Prop :=
  ∃ (r : Except Reason Binary64) (s' : Cursor),
    s'.tokens = s.tokens ∧ s'.depth = s.depth ∧ s'.reading r = reading ∧
    ∀ calls, Reaches ⟨control, s, frames ++ calls⟩ ⟨.back r, s', calls⟩

namespace Ends

variable {frames : List Frame} {control : Control} {s : Cursor} {x : Reading}

/-- A call that returns in one step has ended. -/
lemma of_back (r : Except Reason Binary64) (s' : Cursor) (htokens : s'.tokens = s.tokens)
    (hdepth : s'.depth = s.depth) (hreading : s'.reading r = x)
    (hstep : ∀ calls, step ⟨control, s, frames ++ calls⟩ = some ⟨.back r, s', calls⟩) :
    Ends frames control s x :=
  ⟨r, s', htokens, hdepth, hreading, fun calls => ⟨1, by rw [run, hstep, Option.bind_some, run]⟩⟩

/-- A call ends when what it does after one step does. -/
lemma of_step (frames' : List Frame) (control' : Control) (s' : Cursor)
    (htokens : s'.tokens = s.tokens) (hdepth : s'.depth = s.depth)
    (hstep : ∀ calls, step ⟨control, s, frames ++ calls⟩ = some ⟨control', s', frames' ++ calls⟩)
    (h : Ends frames' control' s' x) : Ends frames control s x := by
  obtain ⟨r, s'', htokens', hdepth', hreading, hreaches⟩ := h
  exact ⟨r, s'', htokens'.trans htokens, hdepth'.trans hdepth, hreading,
    fun calls => (hreaches calls).head (hstep calls)⟩

/-- A call that waits for a part ends when the part does and the call then ends with its value. -/
lemma bind {frame : Frame} {f : Binary64 × List Token → Reading} (hframe : frame ≠ .level)
    (hx : Ends [] control s x)
    (hf : ∀ (v : Binary64) (s' : Cursor), s'.tokens = s.tokens → s'.depth = s.depth →
      x = .ok (v, s'.rest) → Ends [frame] (.back (.ok v)) s' (f (v, s'.rest))) :
    Ends [frame] control s (x >>= f) := by
  obtain ⟨r, s', htokens, hdepth, rfl, hreaches⟩ := hx
  -- the part ends with the waiting call on top of all others, which goes on from there
  suffices h : Ends [frame] (.back r) s' (s'.reading r >>= f) by
    obtain ⟨r', s'', htokens', hdepth', hreading, hreaches'⟩ := h
    exact ⟨r', s'', htokens'.trans htokens, hdepth'.trans hdepth, hreading,
      fun calls => (hreaches (frame :: calls)).trans (hreaches' calls)⟩
  cases r with
  | ok v => exact hf v s' htokens hdepth rfl
  | error reason =>
      exact .of_back (.error reason) s' rfl rfl rfl (Frame.take_error hframe reason s')

end Ends

/-! ### The readers of the parts -/

/-- Where so many levels are left, the calls of operands end as their reader does. -/
def OperandsEnd (levels : ℕ) : Prop :=
  ∀ s : Cursor, s.depth + levels = maxLevels →
    Ends [] (.call .operand) s (readOperand levels s.rest)

namespace OperandsEnd

/-- The loop of a product is over where the product is. -/
lemma factors_of_ends (operand : Reader) (budget : List Token) (v : Binary64) {s : Cursor}
    (hs : EndsProduct s.rest) : Ends [] (.factors v) s (readFactors operand budget v s.rest) := by
  rw [readFactors_done operand budget v hs]
  rw [EndsProduct, ← s.peek_eq_head?] at hs
  exact .of_back (.ok v) s rfl rfl rfl fun calls => congrArg some (goOnProduct_done hs v calls)

variable {levels : ℕ} (hop : OperandsEnd levels)
include hop

/-- The loop of a product ends as its reader does. -/
lemma factors {budget : List Token} {v : Binary64} {s : Cursor} (hs : s.depth + levels = maxLevels)
    (hb : s.rest.length ≤ budget.length) :
    Ends [] (.factors v) s (readFactors (readOperand levels) budget v s.rest) := by
  induction budget generalizing v s with
  | nil =>
      have hrest : s.rest = [] := List.length_eq_zero_iff.1 (Nat.le_zero.1 hb)
      exact factors_of_ends _ _ _ (hrest ▸ endsSum_nil.endsProduct)
  | cons b budget ih =>
      rcases endsProduct_or_scaling s.rest with hrest | ⟨op, ts, hrest⟩
      · exact factors_of_ends _ _ _ hrest
      obtain ⟨hpeek, rfl⟩ := Cursor.of_rest hrest
      rw [hrest, List.length_cons, List.length_cons, Nat.add_le_add_iff_right] at hb
      rw [hrest, readFactors_step]
      refine .of_step [.nextOperand v op] (.call .operand) s.next rfl rfl
        (fun calls => congrArg some (goOnProduct_scaling hpeek v calls)) ?_
      refine .bind (by simp) (hop s.next hs) fun w s' htokens hdepth hread => ?_
      -- the budget has lost one element, and the tokens at least the scaling
      obtain ⟨o, ho, -⟩ := (readsOperands levels _ _ _).1 hread
      have hb' : s'.rest.length ≤ budget.length := by
        rw [ho, List.length_append] at hb
        omega
      dsimp only
      split
      case isTrue hallows =>
          refine .of_step [] (.factors (op.join v w)) s' rfl rfl (fun calls => ?_)
            (ih (hdepth.symm ▸ hs) hb')
          exact if_pos hallows
      case isFalse hallows =>
          exact .of_back (.error .zeroDivisor) s' rfl rfl rfl fun calls => if_neg hallows

lemma product {s : Cursor} (hs : s.depth + levels = maxLevels) :
    Ends [] (.call .product) s (readProduct (readOperand levels) s.rest) := by
  refine .of_step [.firstOperand] (.call .operand) s rfl rfl (fun _ => rfl) ?_
  refine .bind (by simp) (hop s hs) fun v s' htokens hdepth _ => ?_
  exact .of_step [] (.factors v) s' rfl rfl (fun _ => rfl) (hop.factors (hdepth.symm ▸ hs) le_rfl)

omit hop in
/-- The loop of a sum is over where there is no sign. -/
lemma terms_of_ends (operand : Reader) (budget : List Token) (v : Binary64) {s : Cursor}
    (hs : ∀ sign : Sign, s.rest.head? ≠ some (.operator sign.operator)) :
    Ends [] (.terms v) s (readTerms operand budget v s.rest) := by
  rw [readTerms_done operand budget v hs]
  rw [← s.peek_eq_head?] at hs
  exact .of_back (.ok v) s rfl rfl rfl fun calls => congrArg some (goOnSum_done hs v calls)

/-- The loop of a sum ends as its reader does. -/
lemma terms {budget : List Token} {v : Binary64} {s : Cursor} (hs : s.depth + levels = maxLevels)
    (hb : s.rest.length ≤ budget.length) :
    Ends [] (.terms v) s (readTerms (readOperand levels) budget v s.rest) := by
  induction budget generalizing v s with
  | nil =>
      have hrest : s.rest = [] := List.length_eq_zero_iff.1 (Nat.le_zero.1 hb)
      exact terms_of_ends _ _ _ (hrest ▸ nofun)
  | cons b budget ih =>
      rcases head_ne_or_operator Sign.operator s.rest with hrest | ⟨sign, ts, hrest⟩
      · exact terms_of_ends _ _ _ hrest
      obtain ⟨hpeek, rfl⟩ := Cursor.of_rest hrest
      rw [hrest, List.length_cons, List.length_cons, Nat.add_le_add_iff_right] at hb
      rw [hrest, readTerms_step]
      refine .of_step [.nextProduct v sign] (.call .product) s.next rfl rfl
        (fun calls => congrArg some (goOnSum_sign hpeek v calls)) ?_
      refine .bind (by simp) (hop.product hs) fun w s' htokens hdepth hread => ?_
      obtain ⟨p, hp, -⟩ := (readsOperands levels).readProduct_iff.1 hread
      have hb' : s'.rest.length ≤ budget.length := by
        rw [hp, List.length_append] at hb
        omega
      exact .of_step [] (.terms (sign.join v w)) s' rfl rfl (fun _ => rfl)
        (ih (hdepth.symm ▸ hs) hb')

lemma sum {s : Cursor} (hs : s.depth + levels = maxLevels) :
    Ends [] (.call .sum) s (readSum (readOperand levels) s.rest) := by
  refine .of_step [.firstProduct] (.call .product) s rfl rfl (fun _ => rfl) ?_
  refine .bind (by simp) (hop.product hs) fun v s' htokens hdepth _ => ?_
  exact .of_step [] (.terms v) s' rfl rfl (fun _ => rfl) (hop.terms (hdepth.symm ▸ hs) le_rfl)

/-- What stands behind a sign ends as its reader does. -/
lemma signed {s : Cursor} (hs : s.depth + levels = maxLevels) (sign : Sign) {ts : List Token}
    (h : s.rest = .operator sign.operator :: ts) :
    Ends [] (.call .primary) s (readOperand (levels + 1) s.rest) := by
  obtain ⟨hpeek, rfl⟩ := Cursor.of_rest h
  rw [h, readOperand_sign]
  refine .of_step [.signed sign] (.call .operand) s.next rfl rfl (fun calls => ?_) ?_
  · cases sign <;> simp only [step, beginPrimary, hpeek, Sign.operator] <;> rfl
  · exact .bind (by simp) (hop s.next hs) fun v s' _ _ _ =>
      .of_back (.ok (sign.apply v)) s' rfl rfl rfl fun _ => rfl

/-- What stands in parentheses ends as its reader does. -/
lemma grouped {s : Cursor} (hs : s.depth + levels = maxLevels) {ts : List Token}
    (h : s.rest = .paren .opening :: ts) :
    Ends [] (.call .primary) s (readOperand (levels + 1) s.rest) := by
  obtain ⟨hpeek, rfl⟩ := Cursor.of_rest h
  rw [h, readOperand]
  refine .of_step [.grouped] (.call .sum) s.next rfl rfl (fun calls => ?_) ?_
  · simp only [step, beginPrimary, hpeek]
    rfl
  refine .bind (by simp) (hop.sum hs) fun v s' _ _ _ => ?_
  dsimp only
  split
  case h_1 ts' hrest =>
      obtain ⟨hpeek, rfl⟩ := Cursor.of_rest hrest
      refine .of_back (.ok v) s'.next rfl rfl rfl fun calls => ?_
      simp only [step, Frame.take, List.singleton_append, hpeek]
  case h_2 hrest =>
      have hpeek : s'.peek = none := by rw [s'.peek_eq_head?, hrest, List.head?_nil]
      refine .of_back (.error .unbalanced) s' rfl rfl ?_ fun calls => ?_
      · rw [Cursor.reading, hrest]
      · simp only [step, Frame.take, List.singleton_append, hpeek]
  case h_3 t ts' hne hrest =>
      obtain ⟨hpeek, rfl⟩ := Cursor.of_rest hrest
      refine .of_back (.error .misplacedToken) s'.next rfl rfl rfl fun calls => ?_
      simp only [step, Frame.take, List.singleton_append, hpeek]

omit hop in
lemma single (r : Except Reason Binary64) {s : Cursor} {t : Token} {ts : List Token}
    (h : s.rest = t :: ts)
    (hbegin : s.peek = some t → ∀ calls, beginPrimary s calls = ⟨.back r, s.next, calls⟩) :
    Ends [] (.call .primary) s (s.next.reading r) :=
  .of_back r s.next rfl rfl rfl fun calls => congrArg some (hbegin (Cursor.of_rest h).1 calls)

/-- A `primary` ends as the reader of operands with one more level does. -/
lemma primary {s : Cursor} (hs : s.depth + levels = maxLevels) :
    Ends [] (.call .primary) s (readOperand (levels + 1) s.rest) := by
  match h : s.rest with
  | [] =>
      have hpeek : s.peek = none := by rw [s.peek_eq_head?, h, List.head?_nil]
      refine .of_back (.error .endsEarly) s rfl rfl ?_ fun calls => ?_
      · rw [Cursor.reading, h, readOperand]
      · simp only [step, beginPrimary, List.nil_append, hpeek]
  | .operator .plus :: ts => exact h ▸ hop.signed hs .plus h
  | .operator .minus :: ts => exact h ▸ hop.signed hs .minus h
  | .paren .opening :: ts => exact h ▸ hop.grouped hs h
  | .number v :: ts =>
      obtain ⟨-, rfl⟩ := Cursor.of_rest h
      exact single (.ok v) h fun hpeek _ => by simp only [beginPrimary, hpeek]
  | .operator .times :: ts | .operator .divide :: ts =>
      obtain ⟨-, rfl⟩ := Cursor.of_rest h
      exact single (.error .misplacedToken) h fun hpeek _ => by simp only [beginPrimary, hpeek]
  | .paren .closing :: ts =>
      obtain ⟨-, rfl⟩ := Cursor.of_rest h
      exact single (.error .unbalanced) h fun hpeek _ => by simp only [beginPrimary, hpeek]

lemma succ : OperandsEnd (levels + 1) := by
  intro s hs
  -- one step down to the `primary`, and one step up again behind it, whatever it returns
  have hdepth : s.down.depth + levels = maxLevels := by
    rw [← hs, Cursor.down, Nat.add_assoc, Nat.add_comm 1]
  obtain ⟨r, s', htokens, hdepth', hreading, hreaches⟩ := hop.primary hdepth
  refine ⟨r, s'.up, htokens, ?_, ?_, fun calls => ?_⟩
  · rw [Cursor.up, hdepth', Cursor.down, Nat.add_sub_cancel]
  · rw [← show s.down.rest = s.rest from rfl, ← hreading]
    cases r <;> rfl
  · refine .head ?_ ((hreaches (.level :: calls)).trans (.head ?_ ⟨0, rfl⟩))
    · exact if_neg (by omega)
    · refine if_neg ?_
      rw [hdepth']
      exact Nat.succ_ne_zero _

end OperandsEnd

/-- However many levels are left, the calls of operands end as their reader does. -/
theorem operandsEnd (levels : ℕ) : OperandsEnd levels := by
  induction levels with
  | zero =>
      intro s hs
      refine .of_back (.error .nestedTooDeep) s rfl rfl ?_ fun calls => ?_
      · rw [readOperand, Cursor.reading]
      · exact if_pos (by omega)
  | succ levels ih => exact ih.succ

/-- Every call ends as its reader does. -/
theorem ends_call (call : Call) {s : Cursor} (hs : s.depth ≤ maxLevels) :
    Ends [] (.call call) s (call.reader s.depth s.rest) := by
  have hlevels : s.depth + (maxLevels - s.depth) = maxLevels := Nat.add_sub_cancel' hs
  have hop := operandsEnd (maxLevels - s.depth)
  cases call with
  | sum => exact hop.sum hlevels
  | product => exact hop.product hlevels
  | operand => exact hop s hlevels
  | primary => exact hop.primary hlevels

/-! ### Calls that return -/

lemma length_lt_of_eq_append {ts front rest : List Token} (h : ts = front ++ rest)
    (hfront : front ≠ []) : rest.length < ts.length := by
  have := List.length_pos_of_ne_nil hfront
  rw [h, List.length_append]
  omega

lemma rest_length_lt (call : Call) {depth : ℕ} {ts rest : List Token} {v : Binary64}
    (h : call.reader depth ts = .ok (v, rest)) : rest.length < ts.length := by
  cases call with
  | sum =>
      obtain ⟨s, hs, -⟩ := (readsOperands _).readSum_iff.1 h
      exact length_lt_of_eq_append hs s.tokens_ne_nil
  | product =>
      obtain ⟨⟨o, fs⟩, hp, -⟩ := (readsOperands _).readProduct_iff.1 h
      rw [Product.of_append] at hp
      have := length_lt_of_eq_append hp o.tokens_ne_nil
      rw [List.length_append] at this
      omega
  | operand | primary =>
      obtain ⟨o, ho, -⟩ := (readsOperands _ _ _ _).1 h
      exact length_lt_of_eq_append ho o.tokens_ne_nil

/-- **Calls get on, give back what they take, and end.** A part is read from any place in any
tokens, whatever levels are taken and whatever calls are under way.

* The call returns, after ten steps for each token that is left and nine more at most, with what its
  reader reads. It has not gone back nor beyond the end, a value is read from one token at least,
  and behind a value and an error alike as many levels are taken as before the call. None is given
  back that is not taken, for the machine would not go on.
* At every step no more than 256 levels are taken, and as many more than before the call as there
  are more active calls of operands. So these are 256 at most, where those that were under way
  before the call had their levels too.
* One more may then have been entered, 257 in all, which finds no level and is left in the next
  step, with nothing taken. -/
theorem call_returns (call : Call) (s : Cursor) (calls : List Frame)
    (hpos : s.pos ≤ s.tokens.length) (hdepth : s.depth ≤ maxLevels) :
    (∃ n r s', run n ⟨.call call, s, calls⟩ = some ⟨.back r, s', calls⟩ ∧
      n ≤ 10 * (s.tokens.length - s.pos) + 9 ∧
      s'.reading r = call.reader s.depth s.rest ∧
      s'.tokens = s.tokens ∧ s.pos ≤ s'.pos ∧ s'.pos ≤ s.tokens.length ∧ s'.depth = s.depth ∧
      ∀ v, r = .ok v → s.pos < s'.pos) ∧
    ∀ n c, run n ⟨.call call, s, calls⟩ = some c →
      c.cursor.depth ≤ 256 ∧ s.pos ≤ c.cursor.pos ∧ c.cursor.pos ≤ s.tokens.length ∧
      c.cursor.depth + active calls = s.depth + active c.calls ∧
      (active calls ≤ s.depth →
        active c.calls ≤ 256 ∧ c.entered ≤ 257 ∧
        (c.entered = 257 →
          step c = some ⟨.back (.error .nestedTooDeep), c.cursor, c.calls⟩)) := by
  refine ⟨?_, fun n c h => ?_⟩
  · obtain ⟨r, s', htokens, hdepth', hreading, hreaches⟩ := ends_call call hdepth
    obtain ⟨n, hn⟩ := hreaches calls
    obtain ⟨hkeeps, hbudget⟩ := keeps_of_run hn
    refine ⟨n, r, s', hn, ?_, hreading, htokens, hkeeps.pos_le, hkeeps.pos_le_length hpos,
      hdepth', ?_⟩
    · have hweight : (Control.call call).weight ≤ 9 := by cases call <;> decide
      simp only [Config.budget, weight_mk, List.nil_append] at hbudget
      omega
    · rintro v rfl
      have hlt := rest_length_lt call hreading.symm
      simp only [Cursor.rest, List.length_drop, htokens] at hlt
      omega
  · obtain ⟨hkeeps, -⟩ := keeps_of_run h
    have hlevels : c.cursor.depth + active calls = s.depth + active c.calls := hkeeps.levels
    have hle : c.cursor.depth ≤ 256 := hkeeps.depth_le hdepth
    refine ⟨hle, hkeeps.pos_le, hkeeps.pos_le_length hpos, hlevels, fun hcalls => ?_⟩
    have hactive : active c.calls ≤ 256 := by omega
    have hentering : c.control.entering ≤ 1 := c.control.entering_le_one
    refine ⟨hactive, Nat.add_le_add hactive hentering, fun hentered => ?_⟩
    rw [Config.entered] at hentered
    have hfull : maxLevels ≤ c.cursor.depth := by
      rw [show maxLevels = 256 from rfl]
      omega
    exact step_of_entering (by omega) hfull

/-- With one level left a number is read, but not behind a sign. The level is given back. -/
theorem call_returns_at_last_level :
    ∃ n s', run n ⟨.call .operand, ⟨[.operator .minus, .number (.ofNat 1)], 0, 255⟩, []⟩ =
        some ⟨.back (.error .nestedTooDeep), s', []⟩ ∧
      s'.rest = [.number (.ofNat 1)] ∧ s'.depth = 255 := by
  obtain ⟨⟨n, r, s', hrun, -, hreading, -, -, -, hdepth, -⟩, -⟩ :=
    call_returns .operand ⟨[.operator .minus, .number (.ofNat 1)], 0, 255⟩ []
      (by decide) (by decide)
  cases r with
  | ok v => cases hreading
  | error reason =>
      obtain ⟨rfl, hrest⟩ := Rejection.mk.inj (Except.error.inj hreading)
      exact ⟨n, s', hrun, hrest, hdepth⟩

end Machine

end DeskCalculator
