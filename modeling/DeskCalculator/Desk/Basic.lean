import DeskCalculator.Desk.Display
import DeskCalculator.Entry.Key
import DeskCalculator.Logbook

/-!
The calculator at work: keys act on the entry line, the logbook and the panel.

A successful calculation shows its result and is entered in the logbook; a failed one
shows that it failed and leaves everything else alone.

* `Desk`: the state of a calculator, with the storage of its logbook and the clipboard.
* `Desk.calculate`, `Desk.transform`, `Desk.wipeHistory`: what the larger keys do.
* `Desk.press`, `Desk.pressAll`: what each key does, and what several do.
* `noteOnce`: a calculation without a calculator, entered in a logbook.
-/

namespace DeskCalculator

/-- The state of a calculator, with the storage and the clipboard that it finds. -/
structure Desk (σ : Type) where
  line : EntryLine
  book : Logbook
  storage : σ
  panelShown : Bool
  clipboard : Clipboard

/-- The message of a note that could not be stored. -/
def saveMessage? : Except StorageFailure Unit → Option Message
  | .ok () => none
  | .error e => some (.saveFailed e.message)

namespace Desk

variable {σ : Type} [Storage σ]

/-- A new calculator with the logbook stored under a key. -/
def start (key : String) (storage : σ) (clipboard : Clipboard := .absent) : Desk σ :=
  { line := .blank, book := .stored key storage, storage, panelShown := false, clipboard }

/-- What a calculator shows. -/
def display (desk : Desk σ) : Display :=
  { expression := desk.line.displayed
    result := desk.line.shown
    notes := desk.book.notes
    panelShown := desk.panelShown }

/-! ### Calculations -/

/-- Shows a result and enters the note of it. -/
def succeed (desk : Desk σ) (result note : String) : Desk σ × Option Message :=
  let (book, saved, storage) := desk.book.enter desk.storage note
  ({ desk with line := desk.line.withResult result, book, storage }, saveMessage? saved)

/-- Shows that a calculation failed. -/
def fail (desk : Desk σ) : Desk σ := { desk with line := desk.line.withError }

/-- Calculates the value of the expression, if there is one. -/
def calculate (desk : Desk σ) : Desk σ × Option Message :=
  if desk.line.isBlank then (desk, none)
  else
    match answer desk.line.expression with
    | .ok result => desk.succeed result (noteOf desk.line.expression result)
    | .error _ => (desk.fail, none)

/-- Transforms the value of the expression. -/
def transform (desk : Desk σ) (t : Transform) : Desk σ × Option Message :=
  match t.answer desk.line.expression with
  | .ok (result, note) => desk.succeed result note
  | .error _ => (desk.fail, none)

/-- Wipes the logbook. -/
def wipeHistory (desk : Desk σ) : Desk σ × Message :=
  match desk.book.wipe desk.storage with
  | (book, .ok (), storage) => ({ desk with book, storage }, .wiped)
  | (book, .error e, storage) => ({ desk with book, storage }, .wipeFailed e.message)

/-! ### Keys -/

/-- The calculator after an edit of its line. -/
def edit (desk : Desk σ) (change : EntryLine → EntryLine) : Desk σ × Option Message :=
  ({ desk with line := change desk.line }, none)

/-- What a key does. -/
def press (desk : Desk σ) : Key → Desk σ × Option Message
  | .numeral m => desk.edit (·.typeNumeral m)
  | .paren p => desk.edit (·.typeParen p)
  | .operator op => desk.edit (·.typeOperator op)
  | .takeBack => desk.edit (·.takeBack)
  | .reset => desk.edit (·.reset)
  | .equals => desk.calculate
  | .transform t => desk.transform t
  | .togglePanel => ({ desk with panelShown := !desk.panelShown }, none)
  | .wipeHistory =>
    let (desk, message) := desk.wipeHistory
    (desk, some message)
  | .copy =>
    ({ desk with clipboard := desk.clipboard.next },
      some (copyShown desk.line desk.clipboard.outcome))

/-- What keys do one after the other, and their messages in order. -/
def pressAll (desk : Desk σ) : List Key → Desk σ × List Message
  | [] => (desk, [])
  | k :: ks =>
    let (desk, message) := desk.press k
    let (desk, messages) := desk.pressAll ks
    (desk, message.toList ++ messages)

end Desk

/-! ### Without a calculator -/

/-- What comes of a calculation entered in a logbook: the result, and a message if the note
could not be stored. -/
structure Noted (σ : Type) where
  result : String
  message : Option Message
  book : Logbook
  storage : σ

/-- Calculates the value of an expression and, if it has one, enters the note of it. -/
def noteOnce {σ : Type} [Storage σ] (book : Logbook) (storage : σ) (expression : String) :
    Except Reason (Noted σ) := do
  let result ← answer expression
  let (book, saved, storage) := book.enter storage (noteOf expression result)
  .ok { result, message := saveMessage? saved, book, storage }

end DeskCalculator
