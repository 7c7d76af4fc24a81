import DeskCalculator.Expression.Token

/-!
The value of an expression.

```
sum     = product (('+' | '-') product)*
product = operand (('*' | '/') operand)*
operand = ('+' | '-') operand | number | '(' sum ')'
```

Values are computed while the tokens are read, from left to right, so the first
fault in reading order is the one reported. Operands may be nested `maxLevels`
deep: every sign and every parenthesis takes one level, and so does the number at
the bottom. The reader of an operand with `n` levels left reads what stands inside
parentheses with `n - 1`; a sum or product is read with a reader of its operands.

* `Rejection`: a cause and the tokens not yet taken when it was met.
* `readOperand`, `readProduct`, `readSum`: the readers.
* `valueOfTokens`: the value of a whole list of tokens.
* `value`, `answer`: the value of a text, and its numeral.
-/

namespace DeskCalculator

/-! ### Reading tokens -/

/-- A cause and the tokens not yet taken when it was met. -/
structure Rejection where
  reason : Reason
  rest : List Token
deriving DecidableEq

/-- A value and the tokens behind it, or a rejection. -/
abbrev Reading := Except Rejection (Binary64 × List Token)

/-- A reader of one part of an expression. -/
abbrev Reader := List Token → Reading

/-- The factors behind a first one, each taken into the value as soon as it is read. Each of
them uses up a token, so there are no more than elements of `budget`. -/
def readFactors (operand : Reader) : (budget : List Token) → Binary64 → Reader
  | _ :: budget, v, .operator .times :: ts => do
    let (w, rest) ← operand ts
    readFactors operand budget (v * w) rest
  | _ :: budget, v, .operator .divide :: ts => do
    let (w, rest) ← operand ts
    if w.isZero then .error ⟨.zeroDivisor, rest⟩
    else readFactors operand budget (v / w) rest
  | _, v, ts => .ok (v, ts)

/-- A product: one operand or more. -/
def readProduct (operand : Reader) : Reader := fun ts => do
  let (v, rest) ← operand ts
  readFactors operand rest v rest

/-- The terms behind a first one, each taken into the value as soon as it is read. Each of
them uses up a token, so there are no more than elements of `budget`. -/
def readTerms (operand : Reader) : (budget : List Token) → Binary64 → Reader
  | _ :: budget, v, .operator .plus :: ts => do
    let (w, rest) ← readProduct operand ts
    readTerms operand budget (v + w) rest
  | _ :: budget, v, .operator .minus :: ts => do
    let (w, rest) ← readProduct operand ts
    readTerms operand budget (v - w) rest
  | _, v, ts => .ok (v, ts)

/-- A sum: one product or more. -/
def readSum (operand : Reader) : Reader := fun ts => do
  let (v, rest) ← readProduct operand ts
  readTerms operand rest v rest

/-- An operand with so many levels left for nesting. -/
def readOperand : (levels : Nat) → Reader
  | 0, ts => .error ⟨.nestedTooDeep, ts⟩
  | _ + 1, [] => .error ⟨.endsEarly, []⟩
  | _ + 1, .number v :: ts => .ok (v, ts)
  | levels + 1, .operator .minus :: ts => do
    let (v, rest) ← readOperand levels ts
    .ok (-v, rest)
  | levels + 1, .operator .plus :: ts => readOperand levels ts
  | _ + 1, .operator .times :: ts => .error ⟨.misplacedToken, ts⟩
  | _ + 1, .operator .divide :: ts => .error ⟨.misplacedToken, ts⟩
  | _ + 1, .paren .closing :: ts => .error ⟨.unbalanced, ts⟩
  | levels + 1, .paren .opening :: ts => do
    let (v, rest) ← readSum (readOperand levels) ts
    match rest with
    | .paren .closing :: rest => .ok (v, rest)
    | [] => .error ⟨.unbalanced, []⟩
    | _ :: rest => .error ⟨.misplacedToken, rest⟩

/-! ### Whole expressions -/

/-- The levels of nesting an expression may have. -/
def maxLevels : Nat := 256

/-- A double that is no infinity and no NaN. -/
def requireFinite (x : Binary64) : Except Reason Binary64 :=
  if x.isFinite then .ok x else .error .notFinite

/-- The value of tokens that form one sum, nested at most so deep. -/
def valueWithin (levels : Nat) (ts : List Token) : Except Reason Binary64 :=
  match readSum (readOperand levels) ts with
  | .error r => .error r.reason
  | .ok (v, []) => requireFinite v
  | .ok (_, .paren .closing :: _) => .error .unbalanced
  | .ok (_, _ :: _) => .error .misplacedToken

/-- The value of tokens that form one sum. -/
def valueOfTokens (ts : List Token) : Except Reason Binary64 := valueWithin maxLevels ts

/-- The value of a text over the alphabet. -/
def valueOfStripped (cs : List Char) : Except Reason Binary64 := do
  if cs.isEmpty then .error .empty
  let ts ← tokens cs
  valueOfTokens ts

/-- The value of a text, whatever stands between the characters of the alphabet. -/
def value (text : String) : Except Reason Binary64 := valueOfStripped (strip text).toList

/-- The numeral of the value of a text. -/
def answer (text : String) : Except Reason String := (·.numeral) <$> value text

end DeskCalculator
