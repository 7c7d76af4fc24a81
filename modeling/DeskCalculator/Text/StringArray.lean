import DeskCalculator.Text.Character

/-!
Lists of texts in the notation of JSON arrays of strings.

Written, such an array has no blanks, and only what has to be escaped is. Read,
blanks may stand around the brackets, strings and commas, any escape of JSON may
stand for a character, and escaped surrogates have to come in pairs.

* `encode`: the array of some texts.
* `Stage`, `advance`: reading, one character at a time.
* `decode?`: the texts of an array, if all of what is read is one.
-/

namespace DeskCalculator

namespace StringArray

/-! ### Writing -/

/-- The characters with an escape of one letter, and the letters. -/
def shortEscapes : List (Char × Char) :=
  [('"', '"'), ('\\', '\\'), ('\x08', 'b'), ('\x0c', 'f'), ('\n', 'n'), ('\r', 'r'), ('\t', 't')]

/-- A character inside a string. -/
def encodeChar (c : Char) : List Char :=
  match shortEscapes.lookup c with
  | some letter => ['\\', letter]
  | none =>
    if c.toNat < 0x20 then
      ['\\', 'u', '0', '0', hexDigit (c.toNat / 16), hexDigit (c.toNat % 16)]
    else [c]

/-- A string. -/
def encodeString (text : String) : List Char :=
  '"' :: text.toList.flatMap encodeChar ++ ['"']

/-- Strings with commas between them. -/
def encodeItems : List String → List Char
  | [] => []
  | [text] => encodeString text
  | text :: texts => encodeString text ++ ',' :: encodeItems texts

/-- The array of some texts. -/
def encode (texts : List String) : String := .ofList ('[' :: encodeItems texts ++ [']'])

/-! ### Reading -/

/-- The blanks between the parts of an array. -/
def isGap (c : Char) : Bool := c == ' ' || c == '\n' || c == '\r' || c == '\t'

/-- The characters that the letters of short escapes stand for when read. -/
def escapeLetters : List (Char × Char) :=
  [('"', '"'), ('\\', '\\'), ('/', '/'), ('b', '\x08'), ('f', '\x0c'), ('n', '\n'), ('r', '\r'),
   ('t', '\t')]

/-- A part of a string: a character, or the unit of 16 bits that an escape gives. -/
inductive Piece where
  | char (c : Char)
  | unit (n : Nat)
deriving DecidableEq

/-- The first of a pair of surrogates. -/
def isHigh (n : Nat) : Bool := 0xd800 ≤ n && n < 0xdc00

/-- The second of a pair of surrogates. -/
def isLow (n : Nat) : Bool := 0xdc00 ≤ n && n < 0xe000

/-- The character of a pair of surrogates. -/
def pairChar (high low : Nat) : Char :=
  Char.ofNat (0x10000 + (high - 0xd800) * 0x400 + (low - 0xdc00))

/-- The characters of the parts of a string; a surrogate has to be one of a pair. -/
def joinPieces? : List Piece → Option (List Char)
  | [] => some []
  | .char c :: ps => (joinPieces? ps).map (c :: ·)
  | .unit high :: .unit low :: ps =>
    if isHigh high then
      if isLow low then (joinPieces? ps).map (pairChar high low :: ·) else none
    else if isLow high then none
    else (joinPieces? (.unit low :: ps)).map (Char.ofNat high :: ·)
  | .unit n :: ps =>
    if isHigh n || isLow n then none else (joinPieces? ps).map (Char.ofNat n :: ·)

/-- How far an array has been read. The parts of an unfinished string come last one first,
as do the texts read before. -/
inductive Stage where
  | start
  | opened
  | afterItem (items : List String)
  | afterComma (items : List String)
  | inString (items : List String) (pieces : List Piece)
  | inEscape (items : List String) (pieces : List Piece)
  | inNumber (items : List String) (pieces : List Piece) (value digits : Nat)
  | closed (items : List String)

/-- Reading the next character; none when no array goes on like that. -/
def advance : Stage → Char → Option Stage
  | .start, c => if c = '[' then some .opened else if isGap c then some .start else none
  | .opened, c =>
    if c = '"' then some (.inString [] [])
    else if c = ']' then some (.closed [])
    else if isGap c then some .opened else none
  | .afterItem items, c =>
    if c = ',' then some (.afterComma items)
    else if c = ']' then some (.closed items)
    else if isGap c then some (.afterItem items) else none
  | .afterComma items, c =>
    if c = '"' then some (.inString items [])
    else if isGap c then some (.afterComma items) else none
  | .inString items ps, c =>
    if c = '"' then (joinPieces? ps.reverse).map fun cs => .afterItem (.ofList cs :: items)
    else if c = '\\' then some (.inEscape items ps)
    else if c.toNat < 0x20 then none
    else some (.inString items (.char c :: ps))
  | .inEscape items ps, c =>
    if c = 'u' then some (.inNumber items ps 0 0)
    else (escapeLetters.lookup c).map fun d => .inString items (.char d :: ps)
  | .inNumber items ps value digits, c =>
    (hexValue? c).map fun d =>
      if digits = 3 then .inString items (.unit (value * 16 + d) :: ps)
      else .inNumber items ps (value * 16 + d) (digits + 1)
  | .closed items, c => if isGap c then some (.closed items) else none

/-- The texts of an array that has been read to its end. -/
def finish? : Stage → Option (List String)
  | .closed items => some items.reverse
  | _ => none

/-- The texts of an array. -/
def decode? (text : String) : Option (List String) :=
  (text.toList.foldlM advance .start).bind finish?

end StringArray

end DeskCalculator
