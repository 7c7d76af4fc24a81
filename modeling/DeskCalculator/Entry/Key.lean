import DeskCalculator.Entry.Line
import DeskCalculator.Expression.Transform
import DeskCalculator.Text.Split

/-!
The keys of the calculator and how they are spelled.

A key has a character, a name, or both. In a line of keys, blanks separate words; a
word that spells a key is that key, and any other is read character by character.

* `Key`: the keys.
* `Key.ofChar?`, `Key.ofName?`, `Key.ofText`: their spellings.
* `keysOfLine`: the keys of a line.
-/

namespace DeskCalculator

/-- A key of the calculator. -/
inductive Key where
  | numeral (m : NumeralChar)
  | paren (p : Paren)
  | operator (op : Operator)
  | takeBack
  | reset
  | equals
  | transform (t : Transform)
  | togglePanel
  | wipeHistory
  | copy
deriving DecidableEq

/-- A text that spells no key. -/
structure UnknownKey where
  text : String
deriving DecidableEq

/-- The wording for a text that spells no key. -/
def UnknownKey.message (u : UnknownKey) : String := "unknown key: " ++ u.text

namespace Key

/-! ### Spellings -/

/-- The digits, the point, the parentheses and the operators. -/
def ofAlphabet? (c : Char) : Option Key :=
  if h : isNumeral c = true then some (.numeral ⟨c, h⟩)
  else (Paren.ofChar? c).map .paren <|> (Operator.ofChar? c).map .operator

/-- The keys with a character outside the alphabet. -/
def signs : List (Char × Key) :=
  [('×', .operator .times), ('÷', .operator .divide), ('=', .equals), ('C', .reset), ('c', .reset),
   ('⌫', .takeBack), ('√', .transform .squareRoot), ('²', .transform .square),
   ('%', .transform .percentage), ('📊', .togglePanel)]

/-- The key with the given character. -/
def ofChar? (c : Char) : Option Key := ofAlphabet? c <|> signs.lookup c

/-- The keys with a name, in lower case. -/
def names : List (String × Key) :=
  [("x²", .transform .square), ("sq", .transform .square), ("square", .transform .square),
   ("sqrt", .transform .squareRoot),
   ("pct", .transform .percentage), ("percent", .transform .percentage),
   ("del", .takeBack), ("delete", .takeBack), ("backspace", .takeBack),
   ("clear", .reset), ("h", .togglePanel), ("history", .togglePanel),
   ("clear-history", .wipeHistory), ("copy", .copy)]

/-- The key with the given name; the case of the letters `A` to `Z` does not matter. -/
def ofName? (name : String) : Option Key :=
  names.lookup (.ofList (name.toList.map Char.toLower))

/-- The key spelled by a text of one character. -/
def ofSingle? (text : String) : Option Key :=
  match text.toList with
  | [c] => ofChar? c
  | _ => none

/-- The key spelled by a text: its character or its name. -/
def ofText (text : String) : Except UnknownKey Key :=
  match ofSingle? text <|> ofName? text with
  | some k => .ok k
  | none => .error ⟨text⟩

/-! ### Lines -/

/-- The keys of a word: one if it spells a key, and else one for each character. -/
def ofWord (word : String) : Except UnknownKey (List Key) :=
  match ofText word with
  | .ok k => .ok [k]
  | .error _ =>
    match word.toList.mapM ofChar? with
    | some ks => .ok ks
    | none => .error ⟨word⟩

end Key

/-- The keys of a line, or its first word that spells none. -/
def keysOfLine (line : String) : Except UnknownKey (List Key) :=
  List.flatten <$> (words line).mapM Key.ofWord

end DeskCalculator
