import DeskCalculator.Logbook
import DeskCalculator.Proofs.Text.StringArray

/-!
The copy of a logbook in storage.

* `Logbook.stored_congr`: what is read of it depends on the text that is found.
* `Logbook.stored_of_none`, `Logbook.stored_of_encode`: it is read as an empty logbook where
  there is none, and as the logbook that it was made of.
* `Logbook.push_ofNotes`: a new note comes before notes of which the last may be lost.
-/

namespace DeskCalculator

namespace Logbook

variable {σ τ : Type} [Storage σ] [Storage τ]

/-- A logbook with a key and its own notes is the logbook. -/
lemma ofNotes_notes (book : Logbook) : ofNotes book.key book.notes = book := by
  obtain ⟨key, notes, hle⟩ := book
  simp only [ofNotes, List.take_of_length_le hle]

lemma stored_congr {key : String} {storage : σ} {storage' : τ}
    (h : Storage.find? storage key = Storage.find? storage' key) :
    stored key storage = stored key storage' := by
  rw [stored, stored, storedNotes, storedNotes, h]

lemma stored_of_none {key : String} {storage : σ} (h : Storage.find? storage key = .ok none) :
    stored key storage = empty key := by
  rw [stored, storedNotes, h, empty]

/-- Where there is a copy of a logbook it is that logbook. -/
lemma stored_of_encode {storage : σ} (book : Logbook)
    (h : Storage.find? storage book.key = .ok (some (StringArray.encode book.notes))) :
    stored book.key storage = book := by
  have hnotes : storedNotes storage book.key = book.notes := by
    simp only [storedNotes, h, StringArray.decode?_encode, Option.getD_some]
  rw [stored, hnotes, ofNotes_notes]

/-- A new note comes first, whether the notes that a logbook has no room for are lost before
or after. -/
lemma push_ofNotes (key : String) (notes : List String) (note : String) :
    (ofNotes key notes).push note = ofNotes key (note :: notes) := by
  simp [push, ofNotes, capacity, List.take_take]

end Logbook

end DeskCalculator
