import DeskCalculator.Text.Character

/-!
Quoted strings of a settings file, in the notation of TOML.

There are four kinds. Between double quotes a backslash begins an escape, between
single quotes every character stands for itself. Three quotes at each end allow line
ends inside; a line end right after the opening quotes does not count, and a backslash
before a line end takes out all blanks and line ends up to the next character.

* `takeQuoted?`: the characters between the quotes and the text behind them.
* `Mode`, `readNext`, `contents?`: the string that they stand for.
* `quoted?`: both, for the kind that a text begins with.
-/

namespace DeskCalculator

namespace Quoted

/-! ### Between the quotes -/

/-- A kind of quoted string. -/
structure Kind where
  quote : Char
  escapes : Bool
  multiline : Bool
deriving DecidableEq

/-- The kind of quoted string that a text begins with, and the text behind its opening
quotes. -/
def open? : List Char → Option (Kind × List Char)
  | '"' :: '"' :: '"' :: cs => some (⟨'"', true, true⟩, cs)
  | '\'' :: '\'' :: '\'' :: cs => some (⟨'\'', false, true⟩, cs)
  | '"' :: cs => some (⟨'"', true, false⟩, cs)
  | '\'' :: cs => some (⟨'\'', false, false⟩, cs)
  | _ => none

/-- At most two characters that are quotes, and what comes behind. -/
def takeExtra (quote : Char) : List Char → List Char × List Char
  | c :: d :: cs =>
    if c = quote then (if d = quote then ([c, d], cs) else ([c], d :: cs)) else ([], c :: d :: cs)
  | [c] => if c = quote then ([c], []) else ([], [c])
  | [] => ([], [])

/-- The next two characters are quotes. -/
def startsWithTwo (quote : Char) : List Char → Bool
  | c :: d :: _ => c == quote && d == quote
  | _ => false

/-- The characters up to the closing quotes, and the text behind these. Of more than three
quotes at the end of a string over several lines, the first ones belong to it. -/
def takeQuoted? (k : Kind) : List Char → Option (List Char × List Char)
  | [] => none
  | [c] => if c = k.quote ∧ k.multiline = false then some ([], []) else none
  | c :: d :: cs =>
    if c = '\\' ∧ k.escapes then
      (takeQuoted? k cs).map fun (inside, rest) => (c :: d :: inside, rest)
    else if c = k.quote ∧ k.multiline = false then some ([], d :: cs)
    else if c = k.quote ∧ startsWithTwo k.quote (d :: cs) then
      some (takeExtra k.quote (cs.drop 1))
    else (takeQuoted? k (d :: cs)).map fun (inside, rest) => (c :: inside, rest)

/-! ### What they stand for -/

/-- Where in a string the next character stands: among others, behind a backslash, in the
number of an escape, behind a carriage return, or in what a backslash before a line end takes
out, before that line end or behind it. -/
inductive Mode where
  | plain
  | escape
  | number (value left : Nat)
  | carriage
  | blanks
  | skipped
  | skippedCarriage
deriving DecidableEq

/-- A character that can be written down: the tab, or no control. -/
def isWritable (c : Char) : Bool := c == '\t' || (0x20 ≤ c.toNat && c.toNat != 0x7f)

/-- The escapes of one letter. -/
def letterEscapes : List (Char × Char) :=
  [('b', '\x08'), ('t', '\t'), ('n', '\n'), ('f', '\x0c'), ('r', '\r'), ('e', '\x1b'), ('"', '"'),
   ('\\', '\\')]

/-- The escapes by number, with the count of their digits. -/
def numberEscapes : List (Char × Nat) := [('x', 2), ('u', 4), ('U', 8)]

/-- The character with a number, if there is one. -/
def charOfNumber? (n : Nat) : Option Char :=
  if n.isValidChar then some (Char.ofNat n) else none

/-- A character among others. -/
def readPlain (k : Kind) (c : Char) : Option (List Char × Mode) :=
  if c = '\\' ∧ k.escapes then some ([], .escape)
  else if c = '\n' ∧ k.multiline then some ([c], .plain)
  else if c = '\r' ∧ k.multiline then some ([c], .carriage)
  else if isWritable c then some ([c], .plain)
  else none

/-- A character behind a backslash. -/
def readEscape (k : Kind) (c : Char) : Option (List Char × Mode) :=
  match letterEscapes.lookup c, numberEscapes.lookup c with
  | some d, _ => some ([d], .plain)
  | none, some digits => some ([], .number 0 digits)
  | none, none =>
    if k.multiline = false then none
    else if c = ' ' ∨ c = '\t' then some ([], .blanks)
    else if c = '\n' then some ([], .skipped)
    else if c = '\r' then some ([], .skippedCarriage)
    else none

/-- What the next character adds to a string. -/
def readNext (k : Kind) : Mode → Char → Option (List Char × Mode)
  | .plain, c => readPlain k c
  | .escape, c => readEscape k c
  | .number value left, c =>
    (hexValue? c).bind fun d =>
      let value := value * 16 + d
      if left ≤ 1 then (charOfNumber? value).map fun e => ([e], .plain)
      else some ([], .number value (left - 1))
  | .carriage, c => if c = '\n' then some ([c], .plain) else none
  | .blanks, c =>
    if c = ' ' ∨ c = '\t' then some ([], .blanks)
    else if c = '\n' then some ([], .skipped)
    else if c = '\r' then some ([], .skippedCarriage)
    else none
  | .skipped, c =>
    if c = ' ' ∨ c = '\t' ∨ c = '\n' then some ([], .skipped)
    else if c = '\r' then some ([], .skippedCarriage)
    else readPlain k c
  | .skippedCarriage, c => if c = '\n' then some ([], .skipped) else none

/-- The string that characters stand for, read in a mode. -/
def readFrom (k : Kind) : Mode → List Char → Option (List Char)
  | m, [] => if m = .plain ∨ m = .skipped then some [] else none
  | m, c :: cs =>
    (readNext k m c).bind fun (out, m) => (readFrom k m cs).map (out ++ ·)

/-- Without the line end right behind opening quotes. -/
def dropFirstLineEnd : List Char → List Char
  | '\n' :: cs => cs
  | '\r' :: '\n' :: cs => cs
  | cs => cs

/-- The string that the characters between quotes stand for. -/
def contents? (k : Kind) (inside : List Char) : Option String :=
  (readFrom k .plain (if k.multiline then dropFirstLineEnd inside else inside)).map .ofList

end Quoted

/-- The string that a text begins with, its kind, and the text behind it. -/
def quoted? (cs : List Char) : Option (String × Quoted.Kind × List Char) := do
  let (k, cs) ← Quoted.open? cs
  let (inside, rest) ← Quoted.takeQuoted? k cs
  let text ← Quoted.contents? k inside
  some (text, k, rest)

end DeskCalculator
