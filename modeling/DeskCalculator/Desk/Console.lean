import DeskCalculator.Desk.Basic
import DeskCalculator.Text.Split

/-!
The calculator in a terminal, line by line.

Every line is a line of keys, and after each one the calculator is shown again with a
prompt. A word to leave by ends the conversation, as does the end of the input.

* `inputLines`: the lines of an input; a line need not be a text.
* `Desk.enter`: what one line does, and what is shown for it.
* `Desk.converse`: a conversation.
-/

namespace DeskCalculator

/-! ### Input -/

/-- The bytes of a line without the carriage return that may end it. -/
def dropCarriageReturn (bytes : List UInt8) : List UInt8 :=
  if bytes.getLast? == some 13 then bytes.dropLast else bytes

/-- The parts of an input between its line ends; nothing behind the last line end is no
part. -/
def lineParts (bytes : List UInt8) : List (List UInt8) :=
  let parts := splitWhere (· == 10) bytes
  if parts.getLast? == some [] then parts.dropLast else parts

/-- The lines of an input, each of them a text or not. -/
def inputLines (input : ByteArray) : List (Option String) :=
  (lineParts input.data.toList).map fun part =>
    String.fromUTF8? ⟨(dropCarriageReturn part).toArray⟩

/-! ### Conversations -/

/-- What is shown in the beginning. -/
def greeting : String :=
  "Type keys (e.g. `12+3=`, `sqrt`, `x²`, `%`, `del`, `C`, `history`, `copy`); `q` quits.\n"

/-- What is shown before a line is typed. -/
def prompt : String := "> "

/-- The words to leave by. -/
def leavingWords : List String := ["q", "quit", "exit"]

/-- A line that ends the conversation. -/
def isLeaving (line : String) : Bool := leavingWords.contains (trim line)

namespace Desk

variable {σ : Type} [Storage σ]

/-- The calculator as it is shown, and the prompt. -/
def frame (desk : Desk σ) : String := desk.display.text ++ prompt

/-- What a line of keys does, and what is shown for it. A line with a word that spells no
key does nothing. -/
def enter (desk : Desk σ) (line : String) : Desk σ × String :=
  match keysOfLine (trim line) with
  | .ok ks =>
    let (desk, messages) := desk.pressAll ks
    (desk, String.join (messages.map Message.line) ++ desk.frame)
  | .error u => (desk, "! " ++ u.message ++ "\n" ++ desk.frame)

/-- A calculator after some lines, what has been shown for them, and whether all lines that
were read were texts. -/
structure Conversation (σ : Type) where
  desk : Desk σ
  shown : String
  readable : Bool

/-- A conversation, up to a word to leave by or a line that is no text. -/
def converseFrom (desk : Desk σ) : List (Option String) → Conversation σ
  | [] => ⟨desk, "", true⟩
  | none :: _ => ⟨desk, "", false⟩
  | some line :: lines =>
    if isLeaving line then ⟨desk, "", true⟩
    else
      let (desk, shown) := desk.enter line
      let c := desk.converseFrom lines
      { c with shown := shown ++ c.shown }

/-- A conversation from its beginning. -/
def converse (desk : Desk σ) (input : ByteArray) : Conversation σ :=
  let c := desk.converseFrom (inputLines input)
  { c with shown := greeting ++ desk.frame ++ c.shown }

end Desk

end DeskCalculator
