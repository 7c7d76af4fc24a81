import DeskCalculator.Expression.Alphabet
import DeskCalculator.Text.Character

/-!
The entry line: the expression being typed and the result last shown.

Digits, points and parentheses are appended as they come; whether they make sense is
for the evaluation to judge. Operators are kept apart: one typed after another
replaces it, and at the beginning only a minus is taken, as a sign. A shown result
becomes the expression, so that the next keys carry on from it.

* `EntryLine`: the expression, the shown result, and whether they have just become one.
* `typeNumeral`, `typeParen`, `typeOperator`, `takeBack`, `reset`: editing.
* `withResult`, `withError`: the outcome of an evaluation.
* `typeNumeral?`, `typeParen?`, `typeOperator?`: the same for any character; the first
  two refuse a character of another kind.
-/

namespace DeskCalculator

/-! ### The line -/

/-- Whether the line is being edited or holds a result just shown. -/
inductive Phase where
  | typing
  | answered
deriving DecidableEq

/-- The expression being typed and the result last shown. -/
structure EntryLine where
  expression : String
  shown : String
  phase : Phase
deriving DecidableEq

/-- A digit or the point. -/
structure NumeralChar where
  char : Char
  isNumeral : isNumeral char = true
deriving DecidableEq

/-- The text without its last character. -/
def dropLastChar (text : String) : String := .ofList text.toList.dropLast

/-- The last character is an operator. -/
def endsInOperator (text : String) : Bool := text.toList.getLast?.any isOperatorChar

namespace EntryLine

/-- What is shown when there is nothing to show. -/
def nothingShown : String := "0"

/-- What is shown after a calculation has failed. -/
def errorShown : String := "Error"

/-- The line to begin with. -/
def blank : EntryLine := ⟨"", nothingShown, .typing⟩

/-- Nothing has been typed. -/
def isBlank (line : EntryLine) : Bool := line.expression.isEmpty

/-- The expression as it is displayed. -/
def displayed (line : EntryLine) : String :=
  if line.isBlank then nothingShown else line.expression

/-! ### Editing -/

/-- Appends a character, whatever stands before it. -/
def append (line : EntryLine) (c : Char) : EntryLine :=
  { line with expression := line.expression.push c, phase := .typing }

/-- Types a digit or the point. -/
def typeNumeral (line : EntryLine) (m : NumeralChar) : EntryLine := line.append m.char

/-- Types a parenthesis. -/
def typeParen (line : EntryLine) (p : Paren) : EntryLine := line.append p.char

/-- At the beginning of a line only a minus is an operator to be taken. -/
def accepts (line : EntryLine) (op : Operator) : Bool := !line.isBlank || op == .minus

/-- The expression without the operator it may end in. -/
def withoutOperator (expression : String) : String :=
  if endsInOperator expression then dropLastChar expression else expression

/-- Types an operator, in the place of the one the expression may end in. -/
def typeOperator (line : EntryLine) (op : Operator) : EntryLine :=
  if line.accepts op then
    { line with
      expression := (withoutOperator line.expression).push op.char
      phase := .typing }
  else line

/-- Takes back the last character. -/
def takeBack (line : EntryLine) : EntryLine :=
  { line with expression := dropLastChar line.expression, phase := .typing }

/-- Begins anew. -/
def reset (_ : EntryLine) : EntryLine := blank

/-! ### Outcomes -/

/-- Shows a result, which becomes the expression. -/
def withResult (_ : EntryLine) (result : String) : EntryLine := ⟨result, result, .answered⟩

/-- Shows that a calculation has failed; the expression stays, to be mended. -/
def withError (line : EntryLine) : EntryLine :=
  { line with shown := errorShown, phase := .typing }

/-! ### Any character -/

/-- A character that is not of the kind it was typed as. -/
inductive Misuse where
  | notNumeral (c : Char)
  | notParen (c : Char)
deriving DecidableEq

/-- The wording of a misuse. -/
def Misuse.message : Misuse → String
  | notNumeral c => "not a digit or dot: " ++ quoteChar c
  | notParen c => "not a parenthesis: " ++ quoteChar c

/-- Types a character as a digit or point. -/
def typeNumeral? (line : EntryLine) (c : Char) : Except Misuse EntryLine :=
  if h : isNumeral c = true then .ok (line.typeNumeral ⟨c, h⟩) else .error (.notNumeral c)

/-- Types a character as a parenthesis. -/
def typeParen? (line : EntryLine) (c : Char) : Except Misuse EntryLine :=
  match Paren.ofChar? c with
  | some p => .ok (line.typeParen p)
  | none => .error (.notParen c)

/-- Types a character as an operator and tells whether it was taken. -/
def typeOperator? (line : EntryLine) (c : Char) : EntryLine × Bool :=
  match Operator.ofChar? c with
  | some op => (line.typeOperator op, line.accepts op)
  | none => (line, false)

end EntryLine

end DeskCalculator
