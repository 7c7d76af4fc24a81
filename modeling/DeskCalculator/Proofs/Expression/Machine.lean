import DeskCalculator.Proofs.Expression.Grammar

/-!
The reading of an expression, one step after the other.

The readers of an expression are functions of tokens and levels. The same reading is done here by a
machine, which has the tokens, a position in them, a depth and the calls under way. An operand takes
a level when it is begun and gives it back when it is over, whatever the outcome.

* `Cursor`, `Call`, `Frame`, `Control`, `Config`: a state of the machine.
* `step`, `run`: what it does.
* `active`, `Config.entered`: the calls of operands that have a level, and those that are entered.
* `Moves`: the four things that one step can do to a cursor; `moves_of_step`: they are all.
* `Keeps`, `keeps_of_run`: what every run keeps, and that none is longer than its budget.
-/

namespace DeskCalculator

open Grammar

namespace Machine

/-! ### States -/

/-- A place in a list of tokens, and the levels of nesting that are taken. -/
structure Cursor where
  tokens : List Token
  pos : ℕ
  depth : ℕ
deriving DecidableEq

namespace Cursor

/-- The tokens not yet taken. -/
def rest (s : Cursor) : List Token := s.tokens.drop s.pos

/-- The token to be taken next. -/
def peek (s : Cursor) : Option Token := s.tokens[s.pos]?

/-- The cursor behind the next token. -/
def next (s : Cursor) : Cursor := { s with pos := s.pos + 1 }

/-- The cursor one level down. -/
def down (s : Cursor) : Cursor := { s with depth := s.depth + 1 }

/-- The cursor one level up again. -/
def up (s : Cursor) : Cursor := { s with depth := s.depth - 1 }

lemma pos_lt_of_peek {s : Cursor} {t : Token} (h : s.peek = some t) :
    s.pos < s.tokens.length :=
  (List.getElem?_eq_some_iff.1 h).1

/-- The next token is the first of those not yet taken. -/
lemma peek_eq_head? (s : Cursor) : s.peek = s.rest.head? := List.head?_drop.symm

lemma next_rest (s : Cursor) : s.next.rest = s.rest.tail := List.tail_drop.symm

lemma of_rest {s : Cursor} {t : Token} {ts : List Token} (h : s.rest = t :: ts) :
    s.peek = some t ∧ s.next.rest = ts := by
  rw [peek_eq_head?, next_rest, h]
  exact ⟨rfl, rfl⟩

end Cursor

/-- A part of an expression to be read: an operand is a `primary` for which a level is taken. -/
inductive Call where
  | sum | product | operand | primary
deriving DecidableEq

/-- A call under way, by what it is to do with the result it waits for: a sum or a product with its
first part or with a further one, an operand that has taken its level, and a `primary` with what
stands behind a sign or inside parentheses. -/
inductive Frame where
  | firstProduct
  | nextProduct (v : Binary64) (sign : Sign)
  | firstOperand
  | nextOperand (v : Binary64) (op : Scaling)
  | level
  | signed (sign : Sign)
  | grouped
deriving DecidableEq

/-- What is done next: a call is begun, the loop of a sum or of a product goes on with the value so
far, or a call returns. -/
inductive Control where
  | call (call : Call)
  | terms (v : Binary64)
  | factors (v : Binary64)
  | back (result : Except Reason Binary64)

/-- A state of the machine, with the calls under way, the latest one first. -/
structure Config where
  control : Control
  cursor : Cursor
  calls : List Frame

/-! ### Steps -/

/-- A `primary` is begun: it takes the next token. -/
def beginPrimary (s : Cursor) (calls : List Frame) : Config :=
  match s.peek with
  | none => ⟨.back (.error .endsEarly), s, calls⟩
  | some (.number v) => ⟨.back (.ok v), s.next, calls⟩
  | some (.operator .plus) => ⟨.call .operand, s.next, .signed .plus :: calls⟩
  | some (.operator .minus) => ⟨.call .operand, s.next, .signed .minus :: calls⟩
  | some (.operator _) => ⟨.back (.error .misplacedToken), s.next, calls⟩
  | some (.paren .opening) => ⟨.call .sum, s.next, .grouped :: calls⟩
  | some (.paren .closing) => ⟨.back (.error .unbalanced), s.next, calls⟩

/-- The loop of a sum: a sign asks for a further product. -/
def goOnSum (v : Binary64) (s : Cursor) (calls : List Frame) : Config :=
  match s.peek with
  | some (.operator .plus) => ⟨.call .product, s.next, .nextProduct v .plus :: calls⟩
  | some (.operator .minus) => ⟨.call .product, s.next, .nextProduct v .minus :: calls⟩
  | _ => ⟨.back (.ok v), s, calls⟩

/-- The loop of a product: a scaling asks for a further operand. -/
def goOnProduct (v : Binary64) (s : Cursor) (calls : List Frame) : Config :=
  match s.peek with
  | some (.operator .times) => ⟨.call .operand, s.next, .nextOperand v .times :: calls⟩
  | some (.operator .divide) => ⟨.call .operand, s.next, .nextOperand v .divide :: calls⟩
  | _ => ⟨.back (.ok v), s, calls⟩

/-- A call under way gets the result it waited for. An operand gives its level back, which it can
only do where one is taken; any other call passes an error on, and goes on with a value. -/
def Frame.take : Frame → Except Reason Binary64 → Cursor → List Frame → Option Config
  | .level, r, s, calls => if s.depth = 0 then none else some ⟨.back r, s.up, calls⟩
  | _, .error reason, s, calls => some ⟨.back (.error reason), s, calls⟩
  | .firstProduct, .ok v, s, calls => some ⟨.terms v, s, calls⟩
  | .nextProduct u sign, .ok v, s, calls => some ⟨.terms (sign.join u v), s, calls⟩
  | .firstOperand, .ok v, s, calls => some ⟨.factors v, s, calls⟩
  | .nextOperand u op, .ok v, s, calls =>
    if op.Allows v then some ⟨.factors (op.join u v), s, calls⟩
    else some ⟨.back (.error .zeroDivisor), s, calls⟩
  | .signed sign, .ok v, s, calls => some ⟨.back (.ok (sign.apply v)), s, calls⟩
  | .grouped, .ok v, s, calls =>
    match s.peek with
    | some (.paren .closing) => some ⟨.back (.ok v), s.next, calls⟩
    | none => some ⟨.back (.error .unbalanced), s, calls⟩
    | some _ => some ⟨.back (.error .misplacedToken), s.next, calls⟩

/-- One step. There is none when the last call has returned. -/
def step : Config → Option Config
  | ⟨.call .sum, s, calls⟩ => some ⟨.call .product, s, .firstProduct :: calls⟩
  | ⟨.call .product, s, calls⟩ => some ⟨.call .operand, s, .firstOperand :: calls⟩
  | ⟨.call .operand, s, calls⟩ =>
    if maxLevels ≤ s.depth then some ⟨.back (.error .nestedTooDeep), s, calls⟩
    else some ⟨.call .primary, s.down, .level :: calls⟩
  | ⟨.call .primary, s, calls⟩ => some (beginPrimary s calls)
  | ⟨.terms v, s, calls⟩ => some (goOnSum v s calls)
  | ⟨.factors v, s, calls⟩ => some (goOnProduct v s calls)
  | ⟨.back r, s, frame :: calls⟩ => frame.take r s calls
  | ⟨.back _, _, []⟩ => none

/-- So many steps. -/
def run : ℕ → Config → Option Config
  | 0, c => some c
  | n + 1, c => (step c).bind (run n)

/-- Steps can be taken one after the other. -/
lemma run_add (m n : ℕ) (c : Config) : run (m + n) c = (run m c).bind (run n) := by
  induction m generalizing c with
  | zero => rw [Nat.zero_add, run, Option.bind_some]
  | succ m ih =>
      rw [Nat.succ_add, run, run, Option.bind_assoc]
      exact congrArg _ (funext ih)

/-! ### The loops -/

/-- The loop of a sum goes on behind a sign. -/
lemma goOnSum_sign {s : Cursor} {sign : Sign} (h : s.peek = some (.operator sign.operator))
    (v : Binary64) (calls : List Frame) :
    goOnSum v s calls = ⟨.call .product, s.next, .nextProduct v sign :: calls⟩ := by
  cases sign <;> simp only [goOnSum, h, Sign.operator]

lemma goOnSum_done {s : Cursor} (h : ∀ sign : Sign, s.peek ≠ some (.operator sign.operator))
    (v : Binary64) (calls : List Frame) : goOnSum v s calls = ⟨.back (.ok v), s, calls⟩ := by
  unfold goOnSum
  split
  case h_1 hpeek => exact absurd hpeek (h .plus)
  case h_2 hpeek => exact absurd hpeek (h .minus)
  case h_3 => rfl

/-- The loop of a product goes on behind a scaling. -/
lemma goOnProduct_scaling {s : Cursor} {op : Scaling} (h : s.peek = some (.operator op.operator))
    (v : Binary64) (calls : List Frame) :
    goOnProduct v s calls = ⟨.call .operand, s.next, .nextOperand v op :: calls⟩ := by
  cases op <;> simp only [goOnProduct, h, Scaling.operator]

lemma goOnProduct_done {s : Cursor} (h : ∀ op : Scaling, s.peek ≠ some (.operator op.operator))
    (v : Binary64) (calls : List Frame) : goOnProduct v s calls = ⟨.back (.ok v), s, calls⟩ := by
  unfold goOnProduct
  split
  case h_1 hpeek => exact absurd hpeek (h .times)
  case h_2 hpeek => exact absurd hpeek (h .divide)
  case h_3 => rfl

/-! ### What one step does -/

/-- The calls of operands that are active: they have taken their level and not yet given it back. -/
def active (calls : List Frame) : ℕ := calls.count .level

/-- The call of an operand that is entered next, and is yet to look for a level. -/
def Control.entering : Control → ℕ
  | .call .operand => 1
  | _ => 0

lemma Control.entering_le_one (control : Control) : control.entering ≤ 1 := by
  unfold entering
  split <;> decide

/-- The calls of operands that are entered: those that are active, and the one that is yet to look
for a level. -/
def Config.entered (c : Config) : ℕ := active c.calls + c.control.entering

/-- A call that is entered where no level is left returns at once, and takes nothing. -/
lemma step_of_entering {c : Config} (hentering : c.control.entering ≠ 0)
    (hdepth : maxLevels ≤ c.cursor.depth) :
    step c = some ⟨.back (.error .nestedTooDeep), c.cursor, c.calls⟩ := by
  obtain ⟨control, s, calls⟩ := c
  unfold Control.entering at hentering
  split at hentering
  case h_1 hcontrol =>
      obtain rfl : control = .call .operand := hcontrol
      exact if_pos hdepth
  case h_2 => exact absurd rfl hentering

/-- The steps that what is done next may take before it takes a token. -/
def Control.weight : Control → ℕ
  | .call .sum => 9
  | .call .product => 6
  | .call .operand => 3
  | .call .primary | .terms _ | .factors _ => 1
  | .back _ => 0

/-- The steps that a call under way may take before it takes a token. -/
def Frame.weight : Frame → ℕ
  | .firstProduct | .nextProduct _ _ | .firstOperand | .nextOperand _ _ => 2
  | .level | .signed _ | .grouped => 1

/-- The steps that may be taken before a token is. -/
def Config.weight (c : Config) : ℕ := c.control.weight + (c.calls.map Frame.weight).sum

/-- What one step can do to the cursor: it leaves it alone, takes a token, takes a level for an
operand or gives one back. Each time there is less left to be done before the next token is taken,
but for a token, which is followed by ten more steps at most. -/
inductive Moves (c c' : Config) : Prop
  | stay (cursor : c'.cursor = c.cursor) (calls : active c'.calls = active c.calls)
      (weight : c'.weight < c.weight)
  | take (t : Token) (peek : c.cursor.peek = some t) (cursor : c'.cursor = c.cursor.next)
      (calls : active c'.calls = active c.calls) (weight : c'.weight < c.weight + 10)
  | down (depth : c.cursor.depth < maxLevels) (cursor : c'.cursor = c.cursor.down)
      (calls : active c'.calls = active c.calls + 1) (weight : c'.weight < c.weight)
  | up (depth : c.cursor.depth ≠ 0) (cursor : c'.cursor = c.cursor.up)
      (calls : active c'.calls + 1 = active c.calls) (weight : c'.weight < c.weight)

section

variable {s : Cursor} {calls : List Frame} {c : Config}

@[simp] lemma weight_mk {control : Control} :
    (Config.mk control s calls).weight = control.weight + (calls.map Frame.weight).sum := rfl

attribute [local simp] active Control.weight Frame.weight

/-- A `primary` takes a token, if there is one. -/
lemma moves_beginPrimary : Moves ⟨.call .primary, s, calls⟩ (beginPrimary s calls) := by
  unfold beginPrimary
  split
  case h_1 => exact .stay rfl rfl (by simp)
  all_goals
      rename_i hpeek
      exact .take _ hpeek rfl (by simp) (by simp; omega)

/-- The loop of a sum takes a sign, if there is one. -/
lemma moves_goOnSum (v : Binary64) : Moves ⟨.terms v, s, calls⟩ (goOnSum v s calls) := by
  unfold goOnSum
  split
  case h_1 hpeek | h_2 hpeek => exact .take _ hpeek rfl (by simp) (by simp; omega)
  case h_3 => exact .stay rfl rfl (by simp)

/-- The loop of a product takes a scaling, if there is one. -/
lemma moves_goOnProduct (v : Binary64) : Moves ⟨.factors v, s, calls⟩ (goOnProduct v s calls) := by
  unfold goOnProduct
  split
  case h_1 hpeek | h_2 hpeek => exact .take _ hpeek rfl (by simp) (by simp; omega)
  case h_3 => exact .stay rfl rfl (by simp)

/-- Every call but that of an operand passes an error on. -/
lemma Frame.take_error {frame : Frame} (hframe : frame ≠ .level) (reason : Reason) (s : Cursor)
    (calls : List Frame) :
    frame.take (.error reason) s calls = some ⟨.back (.error reason), s, calls⟩ := by
  cases frame <;> first | rfl | exact absurd rfl hframe

lemma moves_take_level {r : Except Reason Binary64} (h : Frame.level.take r s calls = some c) :
    Moves ⟨.back r, s, .level :: calls⟩ c := by
  rw [Frame.take] at h
  split at h
  case isTrue => cases h
  case isFalse hdepth =>
      cases h
      exact .up hdepth rfl (by simp) (by simp)

lemma moves_take {frame : Frame} (hframe : frame ≠ .level) {r : Except Reason Binary64}
    (h : frame.take r s calls = some c) : Moves ⟨.back r, s, frame :: calls⟩ c := by
  have hactive : active (frame :: calls) = active calls := List.count_cons_of_ne hframe
  cases r with
  | error reason =>
      rw [Frame.take_error hframe] at h
      cases h
      exact .stay rfl hactive.symm (by cases frame <;> simp)
  | ok v =>
      cases frame with
      | level => exact absurd rfl hframe
      | firstProduct | nextProduct | firstOperand | signed =>
          cases h
          exact .stay rfl hactive.symm (by simp)
      | nextOperand u op =>
          rw [Frame.take] at h
          split at h <;> cases h <;> exact .stay rfl hactive.symm (by simp)
      | grouped =>
          rw [Frame.take] at h
          split at h
          case h_1 hpeek | h_3 hpeek =>
              cases h
              exact .take _ hpeek rfl hactive.symm (by simp; omega)
          case h_2 =>
              cases h
              exact .stay rfl hactive.symm (by simp)

/-- One step moves the cursor in one of four ways. -/
lemma moves_of_step {c c' : Config} (h : step c = some c') : Moves c c' := by
  obtain ⟨control, s, calls⟩ := c
  cases control with
  | call call =>
      cases call with
      | sum | product =>
          cases h
          exact .stay rfl (by simp) (by simp; omega)
      | operand =>
          rw [step] at h
          split at h
          case isTrue =>
              cases h
              exact .stay rfl rfl (by simp)
          case isFalse hdepth =>
              cases h
              exact .down (Nat.lt_of_not_le hdepth) rfl (by simp) (by simp; omega)
      | primary =>
          cases h
          exact moves_beginPrimary
  | terms v =>
      cases h
      exact moves_goOnSum v
  | factors v =>
      cases h
      exact moves_goOnProduct v
  | back r =>
      cases calls with
      | nil => cases h
      | cons frame calls =>
          by_cases hframe : frame = .level
          · subst hframe
            exact moves_take_level h
          · exact moves_take hframe h

end

/-! ### What every step keeps -/

/-- What steps from one state to another keep: the tokens, what has been taken of them, the bounds
of the position and of the depth, and the levels that are taken for other than active calls. -/
structure Keeps (c c' : Config) : Prop where
  tokens : c'.cursor.tokens = c.cursor.tokens
  pos_le : c.cursor.pos ≤ c'.cursor.pos
  pos_le_length : c.cursor.pos ≤ c.cursor.tokens.length → c'.cursor.pos ≤ c.cursor.tokens.length
  depth_le : c.cursor.depth ≤ maxLevels → c'.cursor.depth ≤ maxLevels
  levels : c'.cursor.depth + active c.calls = c.cursor.depth + active c'.calls

lemma Keeps.refl (c : Config) : Keeps c c := ⟨rfl, le_rfl, id, id, rfl⟩

lemma Keeps.trans {c c' c'' : Config} (h : Keeps c c') (h' : Keeps c' c'') : Keeps c c'' where
  tokens := h'.tokens.trans h.tokens
  pos_le := h.pos_le.trans h'.pos_le
  pos_le_length hc := by
    have := h'.pos_le_length
    rw [h.tokens] at this
    exact this (h.pos_le_length hc)
  depth_le hc := h'.depth_le (h.depth_le hc)
  levels := by
    have := h.levels
    have := h'.levels
    omega

/-- The most steps that may be left: ten for each token not yet taken, and those that take none. -/
def Config.budget (c : Config) : ℕ := 10 * (c.cursor.tokens.length - c.cursor.pos) + c.weight

lemma Moves.keeps {c c' : Config} (h : Moves c c') : Keeps c c' := by
  cases h with
  | stay cursor calls =>
      constructor <;> simp only [cursor, calls] <;> omega
  | take t peek cursor calls =>
      have := Cursor.pos_lt_of_peek peek
      constructor <;> simp only [cursor, calls, Cursor.next] <;> omega
  | down depth cursor calls =>
      constructor <;> simp only [cursor, calls, Cursor.down] <;> omega
  | up depth cursor calls =>
      constructor <;> simp only [cursor, Cursor.up] <;> omega

/-- One step uses up some of the budget. -/
lemma Moves.budget_lt {c c' : Config} (h : Moves c c') : c'.budget < c.budget := by
  -- the weight drops by itself, but for a token, which takes ten with it when it goes
  unfold Config.budget
  cases h with
  | stay cursor _ weight =>
      rw [cursor]
      omega
  | take t peek cursor _ weight =>
      have := Cursor.pos_lt_of_peek peek
      simp only [cursor, Cursor.next]
      omega
  | down _ cursor _ weight =>
      simp only [cursor, Cursor.down]
      omega
  | up _ cursor _ weight =>
      simp only [cursor, Cursor.up]
      omega

/-- Every run keeps what its steps keep, and has no more of them than its budget allows. -/
lemma keeps_of_run {n : ℕ} {c c' : Config} (h : run n c = some c') :
    Keeps c c' ∧ n + c'.budget ≤ c.budget := by
  induction n generalizing c with
  | zero =>
      cases h
      exact ⟨.refl _, by rw [Nat.zero_add]⟩
  | succ n ih =>
      obtain ⟨d, hd, h⟩ := Option.bind_eq_some_iff.1 h
      have hmoves := moves_of_step hd
      obtain ⟨hkeeps, hbudget⟩ := ih h
      have hlt := hmoves.budget_lt
      exact ⟨hmoves.keeps.trans hkeeps, by omega⟩

end Machine

end DeskCalculator
