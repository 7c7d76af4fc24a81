import DeskCalculator.Decimal.Numeral
import DeskCalculator.Expression.Alphabet

/-!
The tokens of an expression.

A text over the alphabet is cut into pieces: a maximal run of digits and points is
one piece, and every other character is a piece by itself. A run has to be a
literal; nothing else can go wrong in a text over the alphabet.

* `Reason`: why a calculation is refused, with its wording.
* `pieces`: the cut.
* `flatten_pieces`: nothing is lost or moved by it.
* `Token.ofPiece`, `tokens`: the tokens of the pieces.
-/

namespace DeskCalculator

/-! ### Refusals -/

/-- The cause of a refusal. -/
inductive Reason where
  | empty
  | badNumber
  | misplacedToken
  | endsEarly
  | unbalanced
  | zeroDivisor
  | rootOfNegative
  | notFinite
  | nestedTooDeep
deriving DecidableEq

/-- The wording of a cause. -/
def Reason.text : Reason → String
  | empty => "empty expression"
  | badNumber => "invalid number literal"
  | misplacedToken => "unexpected token"
  | endsEarly => "unexpected end of expression"
  | unbalanced => "unbalanced parentheses"
  | zeroDivisor => "division by zero"
  | rootOfNegative => "square root of a negative number"
  | notFinite => "result is not a finite number"
  | nestedTooDeep => "expression nested too deeply"

/-! ### Pieces -/

/-- Puts a character before pieces: it joins a run of digits and points if it is one of
these itself, and else is a piece of its own. -/
def attach (c : Char) : List (List Char) → List (List Char)
  | (d :: run) :: rest =>
    if isNumeral c && isNumeral d then (c :: d :: run) :: rest else [c] :: (d :: run) :: rest
  | rest => [c] :: rest

/-- The pieces of a text. -/
def pieces (cs : List Char) : List (List Char) := cs.foldr attach []

/-- A character put before pieces is put before their text. -/
theorem flatten_attach (c : Char) (ps : List (List Char)) :
    (attach c ps).flatten = c :: ps.flatten := by
  unfold attach
  split
  · split <;> simp
  · simp

/-- The pieces of a text make it up, in order. -/
theorem flatten_pieces (cs : List Char) : (pieces cs).flatten = cs := by
  induction cs with
  | nil => rfl
  | cons c cs ih =>
    rw [pieces, List.foldr_cons, flatten_attach]
    exact congrArg _ ih

/-! ### Tokens -/

/-- A number, an operator or a parenthesis. -/
inductive Token where
  | number (value : Binary64)
  | operator (op : Operator)
  | paren (paren : Paren)
deriving DecidableEq

/-- The token of a piece that is one character and no numeral. -/
def Token.ofChar? (c : Char) : Option Token :=
  (Operator.ofChar? c).map .operator <|> (Paren.ofChar? c).map .paren

/-- The token of a piece. -/
def Token.ofPiece : List Char → Except Reason Token
  | [] => .error .misplacedToken
  | c :: cs =>
    if isNumeral c then
      match readLiteral? (c :: cs) with
      | some x => .ok (.number x)
      | none => .error .badNumber
    else
      match Token.ofChar? c with
      | some t => .ok t
      | none => .error .misplacedToken

/-- The tokens of a text, or the cause why its first bad piece is none. -/
def tokens (cs : List Char) : Except Reason (List Token) := (pieces cs).mapM Token.ofPiece

end DeskCalculator
