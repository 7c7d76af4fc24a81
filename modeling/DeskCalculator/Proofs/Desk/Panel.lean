import DeskCalculator.Proofs.Desk.Notation
import DeskCalculator.Proofs.Desk.Once
import DeskCalculator.Proofs.Logbook.Copy
import DeskCalculator.Proofs.Text.Lines

/-!
The panel shows the logbook.

A note is a line of the panel unless the expression that was calculated has a line end in it, which
none has that can be typed. It has the sign of a result, so it is not what the panel says when
there are no notes.

* `Logbook.Calculated`: the logbooks that come of calculations, with a calculator or without one,
  and of reading such a logbook back from storage.
* `IsNoteLine`: what every note in such a logbook is (`Logbook.Calculated.isNoteLine`).
* `textLines_panelText`: the lines of the panel.
* `panel_shows_log`: the result.
* `panel_of_line_end`: a line end in an expression may make two logbooks look alike.
-/

namespace DeskCalculator

/-! ### Notes of calculations -/

/-- A note that is one line and has the sign of a result. -/
structure IsNoteLine (note : String) : Prop where
  one : '\n' ∉ note.toList
  sign : '=' ∈ note.toList

lemma IsTyped.lineEnd_notMem {cs : List Char} (h : IsTyped cs) : '\n' ∉ cs := by
  intro hmem
  rcases h.chars '\n' hmem with hin | hin <;> exact absurd hin (by decide)

/-- The note of a calculation is such a line when the expression is one line. -/
lemma Calculation.isNoteLine (c : Calculation) {expression result : String}
    (h : '\n' ∉ expression.toList) (hresult : IsResult result) :
    IsNoteLine (c.note expression result) := by
  have hside : '\n' ∉ c.notedSide expression.toList := by
    intro hmem
    rcases c.mem_notedSide hmem with hmem | hmem | hmem
    · exact h hmem
    · exact absurd hmem (by decide)
    · exact absurd hmem (by decide)
  constructor
  · simp [c.toList_note, hside, hresult.isTyped.lineEnd_notMem]
  · simp [c.toList_note]

namespace Logbook

/-- The logbooks that come of calculations. -/
inductive Calculated : Logbook → Prop
  /-- Nothing has been calculated. -/
  | empty (key : String) : Calculated (.empty key)
  /-- The value of an expression of one line has been calculated without a calculator. -/
  | once {σ : Type} [Storage σ] {book : Logbook} {storage : σ} {expression : String}
      {noted : Noted σ} (h : Calculated book) (line : '\n' ∉ expression.toList)
      (noted_eq : noteOnce book storage expression = .ok noted) : Calculated noted.book
  /-- A key of a calculator has been pressed. -/
  | press {σ : Type} [Storage σ] {desk : Desk σ} (h : Calculated desk.book)
      (reachable : desk.Reachable) (k : Key) : Calculated (desk.press k).1.book
  /-- The logbook has been read from a copy of one. -/
  | stored {σ : Type} [Storage σ] {book : Logbook} {storage : σ} (h : Calculated book)
      (copy : Storage.find? storage book.key = .ok (some (StringArray.encode book.notes))) :
      Calculated (.stored book.key storage)

/-- A new note does not change what the others are. -/
lemma isNoteLine_push {book : Logbook} (h : ∀ note ∈ book.notes, IsNoteLine note) {note : String}
    (hnote : IsNoteLine note) : ∀ note' ∈ (book.push note).notes, IsNoteLine note' := by
  intro note' hmem
  rw [notes_push] at hmem
  rcases List.mem_cons.1 (List.mem_of_mem_take hmem) with rfl | hmem
  · exact hnote
  · exact h note' hmem

/-- Every note in such a logbook is a line. -/
lemma Calculated.isNoteLine {book : Logbook} (h : book.Calculated) :
    ∀ note ∈ book.notes, IsNoteLine note := by
  induction h with
  | empty key => simp [Logbook.empty, ofNotes]
  | @once σ _ book storage expression noted h line noted_eq ih =>
      obtain ⟨result, hresult, -⟩ := bind_eq_ok_iff.1 noted_eq
      rw [Desk.noteOnce_of_ok book storage hresult] at noted_eq
      obtain rfl := Except.ok.inj noted_eq
      exact isNoteLine_push ih (Calculation.value.isNoteLine line (isResult_of_answer hresult))
  | @press σ _ desk h reachable k ih =>
      rcases desk.press_cases k with ⟨hbook, -⟩ | ⟨note, hnote, hbook, -⟩ | ⟨rfl, hbook, -⟩
      · rwa [hbook]
      · obtain ⟨c, result, rfl, hresult, rfl⟩ := hnote.exists_note
        rw [hbook]
        exact isNoteLine_push ih (c.isNoteLine reachable.kept.typed.lineEnd_notMem hresult)
      · rw [hbook, wipe]
        split
        · simp [Logbook.empty, ofNotes]
        · exact ih
  | stored h copy ih => rwa [stored_of_encode _ copy]

end Logbook

/-! ### The lines of the panel -/

/-- The line below the heading when there are no notes. -/
def noNotesLine : String := "  No calculations yet"

/-- The lines below the heading. -/
def noteLines (notes : List String) : List String :=
  if notes = [] then [noNotesLine] else notes.map ("  " ++ ·)

/-- A line without the blanks in front. -/
def withoutIndent (line : String) : String := .ofList (line.toList.drop 2)

/-- The panel is its heading and the lines below it, with line ends. -/
lemma panelText_eq (notes : List String) :
    panelText notes
      = String.join (("Calculation History" :: noteLines notes).map (· ++ "\n")) := by
  have hlines : panelLines notes = (noteLines notes).map (· ++ "\n") := by
    cases notes with
    | nil => rfl
    | cons note notes => simp [panelLines, noteLines, panelLine]
  have hheading : "Calculation History\n" = "Calculation History" ++ "\n" := by decide
  unfold panelText
  rw [hlines, List.map_cons, String.join_cons]
  exact congrArg (· ++ String.join _) hheading

lemma textLines_panelText {notes : List String} (h : ∀ note ∈ notes, IsNoteLine note) :
    textLines (panelText notes) = "Calculation History" :: noteLines notes := by
  rw [panelText_eq]
  refine textLines_join ?_
  rw [noteLines]
  split
  · simp [noNotesLine]
  · simpa using fun note hnote => (h note hnote).one

lemma map_withoutIndent (notes : List String) :
    (notes.map ("  " ++ ·)).map withoutIndent = notes := by
  rw [List.map_map]
  refine (List.map_congr_left fun note _ => ?_).trans (List.map_id notes)
  simp [withoutIndent]

/-- The line that says that there are no notes is no line of a note. -/
lemma noNotesLine_notMem {notes : List String} (h : ∀ note ∈ notes, IsNoteLine note) :
    noNotesLine ∉ notes.map ("  " ++ ·) := by
  intro hmem
  obtain ⟨note, hnote, heq⟩ := List.mem_map.1 hmem
  have hsign : '=' ∈ noNotesLine.toList := by
    rw [← heq]
    simp [(h note hnote).sign]
  exact absurd hsign (by decide)

lemma noteLines_injective {notes notes' : List String} (h : ∀ note ∈ notes, IsNoteLine note)
    (h' : ∀ note ∈ notes', IsNoteLine note) (heq : noteLines notes = noteLines notes') :
    notes = notes' := by
  rw [noteLines, noteLines] at heq
  split_ifs at heq with hnil hnil' hnil'
  · rw [hnil, hnil']
  · exact absurd (heq ▸ List.mem_singleton_self noNotesLine) (noNotesLine_notMem h')
  · exact absurd (heq ▸ List.mem_singleton_self noNotesLine) (noNotesLine_notMem h)
  · rw [← map_withoutIndent notes, heq, map_withoutIndent]

/-- **The panel shows the logbook.** Take any logbook that comes of calculations, of expressions of
one line without a calculator, or by any keys of a calculator.

* The lines of the panel are the heading and one line for each note, in order, or the one that
  there are none.
* The latter is a line of the panel just when there are none.
* Below the heading, without the blanks in front, the lines are the notes.
* Another such logbook that is shown by the same panel has the same notes. -/
theorem panel_shows_log {book : Logbook} (h : book.Calculated) :
    textLines (panelText book.notes)
        = "Calculation History" ::
          (if book.notes = [] then ["  No calculations yet"] else book.notes.map ("  " ++ ·)) ∧
      ("  No calculations yet" ∈ textLines (panelText book.notes) ↔ book.notes = []) ∧
      (book.notes ≠ [] →
        (textLines (panelText book.notes)).tail.map withoutIndent = book.notes) ∧
      ∀ book' : Logbook, book'.Calculated → panelText book'.notes = panelText book.notes →
        book'.notes = book.notes := by
  have hlines := textLines_panelText h.isNoteLine
  refine ⟨hlines, ?_, fun hne => ?_, fun book' h' heq => ?_⟩
  · rw [hlines, List.mem_cons, or_iff_right (by decide), noteLines]
    split
    case isTrue hnil => simp [hnil, noNotesLine]
    case isFalse hnil => exact iff_of_false (noNotesLine_notMem h.isNoteLine) hnil
  · rw [hlines, List.tail_cons, noteLines, if_neg hne, map_withoutIndent]
  · have hlines' := textLines_panelText h'.isNoteLine
    rw [heq, hlines] at hlines'
    exact (noteLines_injective h.isNoteLine h'.isNoteLine (List.cons.inj hlines').2).symm

/-- A note that begins like the line that there are none, read back from storage by a calculator
whose keys enter another one. -/
theorem panel_shows_log_of_root :
    ∃ book : Logbook, book.Calculated ∧
      book.notes = ["√(0) = 0", "No calculations yet 0 = 0"] ∧
      textLines (panelText book.notes)
        = ["Calculation History", "  √(0) = 0", "  No calculations yet 0 = 0"] ∧
      (textLines (panelText book.notes)).tail.map withoutIndent = book.notes := by
  have hanswer : answer "No calculations yet 0" = .ok "0" := by decide +kernel
  have honce := Desk.noteOnce_of_ok (.empty usualKey) MemoryStorage.empty hanswer
  let storage : MemoryStorage := ⟨[(usualKey, "[\"No calculations yet 0 = 0\"]")], false⟩
  have hcopy : Storage.find? storage usualKey
      = .ok (some (StringArray.encode ["No calculations yet 0 = 0"])) := by decide +kernel
  have hstart := Desk.Reachable.start usualKey storage .absent
  have hstored : (Desk.start usualKey storage).book.Calculated :=
    ((Logbook.Calculated.empty _).once (by decide) honce).stored hcopy
  have hbook := (hstored.press hstart (.numeral ⟨'0', rfl⟩)).press (hstart.press _)
    (.transform .squareRoot)
  obtain ⟨hlines, -, hnotes, -⟩ := panel_shows_log hbook
  refine ⟨_, hbook, by decide +kernel, ?_, hnotes (by decide +kernel)⟩
  rw [hlines]
  decide +kernel

/-- **A line end in an expression may make two logbooks look alike.** One note of an expression with
a line end in it is shown as two notes of expressions without. -/
theorem panel_of_line_end :
    ∃ one first second : Noted MemoryStorage,
      noteOnce (.empty usualKey) .empty "0 = 0\n  0" = .ok one ∧
      noteOnce (.empty usualKey) .empty "0" = .ok first ∧
      noteOnce first.book first.storage "0" = .ok second ∧
      one.book.notes = ["0 = 0\n  0 = 0"] ∧ second.book.notes = ["0 = 0", "0 = 0"] ∧
      panelText one.book.notes = panelText second.book.notes ∧
      (textLines (panelText one.book.notes)).length = one.book.notes.length + 2 := by
  have hone : answer "0 = 0\n  0" = .ok "0" := by decide +kernel
  have htwice : answer "0" = .ok "0" := by decide +kernel
  exact ⟨_, _, _, Desk.noteOnce_of_ok _ _ hone, Desk.noteOnce_of_ok _ _ htwice,
    Desk.noteOnce_of_ok _ _ htwice, by decide +kernel, by decide +kernel, by decide +kernel,
    by decide +kernel⟩

end DeskCalculator
