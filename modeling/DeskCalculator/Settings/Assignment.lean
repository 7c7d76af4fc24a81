import DeskCalculator.Settings.Quoted

/-!
A settings file, in the notation of TOML, as far as it can hold settings: lines that
assign a string to a name, empty lines and comments.

* `Assignment`: a name and its string.
* `assignments?`: those of a file, if all of it is made of such lines.
-/

namespace DeskCalculator

/-- A name and the string assigned to it. -/
structure Assignment where
  name : String
  text : String
deriving DecidableEq

namespace Assignment

/-- A blank within a line. -/
def isSpace (c : Char) : Bool := c == ' ' || c == '\t'

/-- A character of a name without quotes. -/
def isBare (c : Char) : Bool := c.isAlphanum || c == '_' || c == '-'

/-- The text behind a comment at the beginning of it; none if the comment holds a control. -/
def dropComment? : List Char → Option (List Char)
  | '#' :: cs =>
    let isLineEnd := fun c => c == '\n' || c == '\r'
    if (cs.takeWhile (!isLineEnd ·)).all Quoted.isWritable then some (cs.dropWhile (!isLineEnd ·))
    else none
  | cs => some cs

/-- The text behind a line end, if there is one or the text is over. -/
def dropLineEnd? : List Char → Option (List Char)
  | [] => some []
  | '\n' :: cs => some cs
  | '\r' :: '\n' :: cs => some cs
  | _ => none

/-- The text behind the rest of a line that has nothing more to say. -/
def dropRest? (cs : List Char) : Option (List Char) :=
  (dropComment? (cs.dropWhile isSpace)).bind dropLineEnd?

/-- The name that a text begins with: quoted within one line, or bare. -/
def name? (cs : List Char) : Option (String × List Char) :=
  match quoted? cs with
  | some (name, k, rest) => if k.multiline then none else some (name, rest)
  | none =>
    match cs.takeWhile isBare with
    | [] => none
    | name => some (.ofList name, cs.dropWhile isBare)

/-- The text behind an equals sign with blanks around it. -/
def dropEquals? (cs : List Char) : Option (List Char) :=
  match cs.dropWhile isSpace with
  | '=' :: cs => some (cs.dropWhile isSpace)
  | _ => none

/-- The assignment that a text begins with, and the text behind its line. -/
def next? (cs : List Char) : Option (Assignment × List Char) := do
  let (name, cs) ← name? (cs.dropWhile isSpace)
  let cs ← dropEquals? cs
  let (text, _, cs) ← quoted? cs
  let rest ← dropRest? cs
  some (⟨name, text⟩, rest)

/-- The assignments of a text of at most `fuel` lines. -/
def all? : (fuel : Nat) → List Char → Option (List Assignment)
  | _, [] => some []
  | 0, _ => none
  | fuel + 1, cs =>
    match dropRest? cs with
    | some rest => all? fuel rest
    | none => (next? cs).bind fun (a, rest) => (all? fuel rest).map (a :: ·)

end Assignment

/-- The text behind a byte order mark, if it begins with one. -/
def dropByteOrderMark : List Char → List Char
  | '\ufeff' :: cs => cs
  | cs => cs

/-- The assignments of a file. -/
def assignments? (text : String) : Option (List Assignment) :=
  let cs := dropByteOrderMark text.toList
  Assignment.all? cs.length cs

end DeskCalculator
