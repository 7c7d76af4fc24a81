import DeskCalculator.Expression.Value

/-!
Transforms of the value of a whole expression, and how calculations are noted.

* `Transform`: square root, square and percentage.
* `Transform.answer`: the numeral of a transformed value and the note of it.
* `noteOf`, `Transform.note`: the notes of calculations.
-/

namespace DeskCalculator

/-- The note of an expression and its result. -/
def noteOf (expression result : String) : String := expression ++ " = " ++ result

/-- A transform of a value. -/
inductive Transform where
  | squareRoot
  | square
  | percentage
deriving DecidableEq

namespace Transform

/-- The label of a transform. -/
def label : Transform → String
  | squareRoot => "√"
  | square => "x²"
  | percentage => "%"

/-- The note of a transform of an expression and its result. -/
def note (t : Transform) (expression result : String) : String :=
  match t with
  | squareRoot => "√(" ++ expression ++ ") = " ++ result
  | square => "(" ++ expression ++ ")² = " ++ result
  | percentage => "(" ++ expression ++ ")% = " ++ result

/-- The transformed value; nothing below zero has a root. -/
def transformed (t : Transform) (x : Binary64) : Except Reason Binary64 :=
  match t with
  | squareRoot => if x.isBelowZero then .error .rootOfNegative else .ok x.sqrt
  | square => .ok (x * x)
  | percentage => .ok (x / .ofNat 100)

/-- The numeral of the transformed value of a text, and the note of it. -/
def answer (t : Transform) (text : String) : Except Reason (String × String) := do
  let x ← value text
  let y ← t.transformed x
  let y ← requireFinite y
  .ok (y.numeral, t.note text y.numeral)

end Transform

end DeskCalculator
