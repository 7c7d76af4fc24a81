/-!
The characters an expression is made of.

Digits and the point make up numbers, four characters are operators, two are
parentheses, and everything else is stripped before an expression is read.

* `Operator`, `Paren`: the operators and parentheses, each with its character.
* `isNumeral`, `inAlphabet`: the classes of characters.
* `strip`, `hasForeign`: what is left of a text, and whether anything is dropped.
-/

namespace DeskCalculator

/-! ### Operators and parentheses -/

/-- The four binary operators; plus and minus are signs too. -/
inductive Operator where
  | plus | minus | times | divide
deriving DecidableEq

namespace Operator

/-- The character of an operator. -/
def char : Operator → Char
  | plus => '+'
  | minus => '-'
  | times => '*'
  | divide => '/'

/-- The operators in the order they are listed in. -/
def all : List Operator := [plus, minus, times, divide]

/-- The operator a character stands for. -/
def ofChar? (c : Char) : Option Operator := all.find? (·.char == c)

/-- An operator is read from its own character. -/
theorem ofChar?_char (o : Operator) : ofChar? o.char = some o := by cases o <;> rfl

theorem char_of_ofChar? {c : Char} {o : Operator} (h : ofChar? c = some o) : o.char = c := by
  have := List.find?_some h
  simpa using this

end Operator

/-- The two parentheses. -/
inductive Paren where
  | opening | closing
deriving DecidableEq

namespace Paren

/-- The character of a parenthesis. -/
def char : Paren → Char
  | opening => '('
  | closing => ')'

/-- The parenthesis a character stands for. -/
def ofChar? (c : Char) : Option Paren := [opening, closing].find? (·.char == c)

/-- A parenthesis is read from its own character. -/
theorem ofChar?_char (p : Paren) : ofChar? p.char = some p := by cases p <;> rfl

theorem char_of_ofChar? {c : Char} {p : Paren} (h : ofChar? c = some p) : p.char = c := by
  have := List.find?_some h
  simpa using this

end Paren

/-! ### Classes of characters -/

/-- A character of a number: a digit or the point. -/
def isNumeral (c : Char) : Bool := c.isDigit || c == '.'

/-- One of the four operator characters. -/
def isOperatorChar (c : Char) : Bool := (Operator.ofChar? c).isSome

/-- One of the two parenthesis characters. -/
def isParenChar (c : Char) : Bool := (Paren.ofChar? c).isSome

/-- A character that an expression may contain. -/
def inAlphabet (c : Char) : Bool := isNumeral c || isOperatorChar c || isParenChar c

/-- The characters of a text that belong to the alphabet, in order. -/
def strip (text : String) : String := .ofList (text.toList.filter inAlphabet)

/-- Some character of the text is outside the alphabet. -/
def hasForeign (text : String) : Bool := text.toList.any (!inAlphabet ·)

end DeskCalculator
