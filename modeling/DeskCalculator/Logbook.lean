import DeskCalculator.Storage.Basic
import DeskCalculator.Text.StringArray

/-!
The logbook: the latest calculations, and their copy in storage.

A logbook holds the notes of at most `capacity` calculations, the latest first, and
keeps a copy of all of them under a key. A note that cannot be stored stays in the
logbook all the same, but a logbook that cannot be removed from storage is not wiped
either.

* `Logbook`: the notes and the key.
* `Logbook.push`: the logbook with a new note.
* `Logbook.reload`, `Logbook.stored`: the notes from storage; what is no array of texts
  counts as none.
* `Logbook.enter`, `Logbook.wipe`: a new note, or a new beginning.
-/

namespace DeskCalculator

/-- The most notes a logbook holds. -/
def capacity : Nat := 5

/-- The key a logbook is stored under unless another is chosen. -/
def usualKey : String := "calculatorHistory"

/-- The notes of the latest calculations, the latest first, and the key of their copy. -/
structure Logbook where
  key : String
  notes : List String
  length_le : notes.length ≤ capacity
deriving DecidableEq

namespace Logbook

/-- A logbook with the first of some notes. -/
def ofNotes (key : String) (notes : List String) : Logbook :=
  ⟨key, notes.take capacity, List.length_take_le _ _⟩

/-- A logbook without notes. -/
def empty (key : String) : Logbook := ofNotes key []

/-- The logbook with a new note, which pushes out the oldest one of a full logbook. -/
def push (book : Logbook) (note : String) : Logbook := ofNotes book.key (note :: book.notes)

@[simp]
theorem key_push (book : Logbook) (note : String) : (book.push note).key = book.key := rfl

@[simp]
theorem notes_push (book : Logbook) (note : String) :
    (book.push note).notes = (note :: book.notes).take capacity := rfl

/-! ### Storage -/

variable {σ : Type} [Storage σ]

/-- The notes stored under a key, all of them. -/
def storedNotes (storage : σ) (key : String) : List String :=
  match Storage.find? storage key with
  | .ok (some text) => (StringArray.decode? text).getD []
  | _ => []

/-- The logbook stored under a key. -/
def stored (key : String) (storage : σ) : Logbook := ofNotes key (storedNotes storage key)

/-- The logbook as it is stored, in the place of what it is. -/
def reload (book : Logbook) (storage : σ) : Logbook := stored book.key storage

/-- Stores a copy of the notes. -/
def save (book : Logbook) (storage : σ) : Written σ :=
  Storage.insert storage book.key (StringArray.encode book.notes)

/-- Enters a note and stores the notes. -/
def enter (book : Logbook) (storage : σ) (note : String) : Logbook × Written σ :=
  (book.push note, (book.push note).save storage)

/-- Removes the stored notes and, if that succeeds, those in the logbook. -/
def wipe (book : Logbook) (storage : σ) : Logbook × Written σ :=
  match Storage.erase storage book.key with
  | (.ok (), storage) => (empty book.key, .ok (), storage)
  | (.error e, storage) => (book, .error e, storage)

end Logbook

end DeskCalculator
