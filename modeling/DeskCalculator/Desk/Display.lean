import DeskCalculator.Entry.Line

/-!
What a calculator shows and says.

* `Display`: an expression, a result and, if it is to be seen, the history.
* `panelText`: the history panel, a heading and a line for each note.
* `Display.text`: the panel, if it is to be seen, and the two lines below it.
* `Message`: what there is to say, said once.
* `Clipboard`: what comes of putting texts on the clipboard, which is not the calculator's own.
* `copyShown`: the message for the result that is copied, or why it is not.
-/

namespace DeskCalculator

/-! ### Displays -/

/-- What there is to show. -/
structure Display where
  expression : String
  result : String
  notes : List String
  panelShown : Bool
deriving DecidableEq

/-- The line of a note. -/
def panelLine (note : String) : String := "  " ++ note ++ "\n"

/-- The lines below the heading of the history panel. -/
def panelLines (notes : List String) : List String :=
  if notes.isEmpty then ["  No calculations yet\n"] else notes.map panelLine

/-- The history panel. -/
def panelText (notes : List String) : String :=
  "Calculation History\n" ++ String.join (panelLines notes)

/-- The calculator as it is shown. -/
def Display.text (d : Display) : String :=
  (if d.panelShown then panelText d.notes else "") ++
  "  " ++ d.expression ++ "\n= " ++ d.result ++ "\n"

/-! ### Messages -/

/-- A message to the user. -/
inductive Message where
  | wiped
  | wipeFailed (why : String)
  | saveFailed (why : String)
  | copied (text : String)
  | copyFailed (why : String)
deriving DecidableEq

namespace Message

/-- The message tells of something that failed. -/
def isError : Message → Bool
  | wiped => false
  | wipeFailed _ => true
  | saveFailed _ => true
  | copied _ => false
  | copyFailed _ => true

/-- The wording of a message. -/
def text : Message → String
  | wiped => "History cleared!"
  | wipeFailed why => "Failed to clear history: " ++ why
  | saveFailed why => "Failed to save history: " ++ why
  | copied text => "Copied " ++ text ++ " to clipboard"
  | copyFailed why => why

/-- The line of a message, with a mark that tells failures apart. -/
def line (m : Message) : String := (if m.isError then "! " else "* ") ++ m.text ++ "\n"

end Message

/-! ### The clipboard -/

/-- What comes of putting a text on the clipboard: it is there, or there is no clipboard to be
had, or the clipboard does not take it. -/
inductive Copying where
  | done
  | noClipboard
  | refused
deriving DecidableEq

/-- The message that tells what came of copying a text. -/
def Copying.message (text : String) : Copying → Message
  | done => .copied text
  | noClipboard => .copyFailed "Failed to access clipboard"
  | refused => .copyFailed "Failed to copy to clipboard"

/-- The clipboard belongs to the surroundings, and nothing in a calculator decides what comes of
its use. So that is given beforehand: one outcome for each time the key to copy is pressed from
now on, in order, and no clipboard behind them. -/
structure Clipboard where
  outcomes : List Copying
deriving DecidableEq

namespace Clipboard

/-- There is never a clipboard, as in a bare terminal. -/
def absent : Clipboard := ⟨[]⟩

/-- What comes of putting a text there now. -/
def outcome (c : Clipboard) : Copying := c.outcomes.headD .noClipboard

/-- The clipboard when the key to copy has been pressed. -/
def next (c : Clipboard) : Clipboard := ⟨c.outcomes.tail⟩

end Clipboard

/-- What comes of copying the result shown. After a failure there is none to copy, whatever
would come of it. -/
def copyShown (line : EntryLine) (outcome : Copying) : Message :=
  if line.shown = EntryLine.errorShown then
    .copyFailed "Nothing to copy: the last evaluation failed"
  else outcome.message line.shown

end DeskCalculator
