import Mathlib.Tactic
import DeskCalculator.Desk.Basic

/-!
What a key does to the parts of a calculator.

* `EntryLine.press`: what it does to the entry line, which never depends on the logbook or
  the storage (`Desk.line_press`, `Desk.line_pressAll`).
* `Desk.pressAll_append`: keys that are pressed in two parts.
* `Key.Calculates`, `Key.Fails`: the note of the calculation that a key makes of an
  expression, if it succeeds.
* `Key.note?`: that note, if there is one (`Key.note?_eq_some_iff`).
* `Desk.press_cases`: what it does to the logbook and the storage. A calculation that
  succeeds enters its note, the key for it wipes them, and nothing else touches them.
  `Desk.press_of_calculates`, `Desk.press_of_note?_eq_none`, `Desk.press_wipeHistory_of_ok`:
  which of these it is.
* `Desk.press_equals_of_ok`, `Desk.press_transform_of_ok` and their counterparts for a failure:
  what the two keys that calculate make of the whole calculator.
-/

namespace DeskCalculator

/-! ### The entry line -/

/-- The entry line after a key. -/
def EntryLine.press (line : EntryLine) : Key → EntryLine
  | .numeral m => line.typeNumeral m
  | .paren p => line.typeParen p
  | .operator op => line.typeOperator op
  | .takeBack => line.takeBack
  | .reset => line.reset
  | .equals =>
    if line.isBlank then line
    else
      match answer line.expression with
      | .ok result => line.withResult result
      | .error _ => line.withError
  | .transform t =>
    match t.answer line.expression with
    | .ok (result, _) => line.withResult result
    | .error _ => line.withError
  | .togglePanel => line
  | .wipeHistory => line
  | .copy => line

/-- The expression after an operator has been typed. -/
lemma EntryLine.expression_typeOperator (line : EntryLine) (op : Operator) :
    (line.typeOperator op).expression
      = if line.accepts op then (withoutOperator line.expression).push op.char
        else line.expression := by
  rw [typeOperator]
  split <;> rfl

namespace Desk

variable {σ : Type} [Storage σ]

/-- A key acts on the entry line alone. -/
lemma line_press (desk : Desk σ) (k : Key) : (desk.press k).1.line = desk.line.press k := by
  cases k with
  | equals =>
      simp only [press, calculate, EntryLine.press]
      split
      · rfl
      · cases answer desk.line.expression <;> rfl
  | transform t =>
      simp only [press, transform, EntryLine.press]
      cases t.answer desk.line.expression <;> rfl
  | wipeHistory =>
      simp only [press, wipeHistory, EntryLine.press]
      split <;> rfl
  | _ => rfl

lemma line_pressAll (desk : Desk σ) (ks : List Key) :
    (desk.pressAll ks).1.line = ks.foldl EntryLine.press desk.line := by
  induction ks generalizing desk with
  | nil => rfl
  | cons k ks ih =>
      rw [List.foldl_cons, ← line_press, ← ih]
      rfl

lemma pressAll_append (desk : Desk σ) (ks ks' : List Key) :
    desk.pressAll (ks ++ ks')
      = (((desk.pressAll ks).1.pressAll ks').1,
          (desk.pressAll ks).2 ++ ((desk.pressAll ks).1.pressAll ks').2) := by
  induction ks generalizing desk with
  | nil => rfl
  | cons k ks ih => simp only [List.cons_append, pressAll, ih, List.append_assoc]

end Desk

/-! ### The logbook and the storage -/

/-- The key makes a calculation of the expression, which succeeds and is noted so. -/
def Key.Calculates (k : Key) (expression note : String) : Prop :=
  match k with
  | .equals => ∃ result, answer expression = .ok result ∧ note = noteOf expression result
  | .transform t => ∃ result, t.answer expression = .ok (result, note)
  | _ => False

/-- The key makes a calculation of the expression, which fails. -/
def Key.Fails (k : Key) (expression : String) : Prop :=
  match k with
  | .equals => ∃ r, answer expression = .error r
  | .transform t => ∃ r, t.answer expression = .error r
  | _ => False

/-- A calculation that succeeds does not fail. -/
lemma Key.Calculates.not_fails {k : Key} {expression note : String}
    (h : k.Calculates expression note) : ¬ k.Fails expression := by
  cases k with
  | equals =>
      rintro ⟨r, hr⟩
      obtain ⟨result, hresult, -⟩ := h
      cases hr.symm.trans hresult
  | transform t =>
      rintro ⟨r, hr⟩
      obtain ⟨result, hresult⟩ := h
      cases hr.symm.trans hresult
  | _ => exact h.elim

/-- The note of the calculation that a key makes of an expression, if it succeeds. -/
def Key.note? (k : Key) (expression : String) : Option String :=
  match k with
  | .equals => (answer expression).toOption.map (noteOf expression)
  | .transform t => (t.answer expression).toOption.map (·.2)
  | _ => none

lemma Key.note?_eq_some_iff {k : Key} {expression note : String} :
    k.note? expression = some note ↔ k.Calculates expression note := by
  cases k with
  | equals =>
      simp only [note?, Calculates]
      cases answer expression <;> simp [Except.toOption, eq_comm]
  | transform t =>
      simp only [note?, Calculates]
      cases t.answer expression <;> simp [Except.toOption, Prod.ext_iff]
  | _ => simp [note?, Calculates]

namespace Desk

variable {σ : Type} [Storage σ]

/-- A calculator entered a note: the logbook has it, and the storage is what came of saving
that. -/
lemma succeed_eq (desk : Desk σ) (result note : String) :
    (desk.succeed result note).1.book = desk.book.push note ∧
      (desk.succeed result note).1.storage = ((desk.book.push note).save desk.storage).2 :=
  ⟨rfl, rfl⟩

/-- What a key does to the logbook and the storage: nothing, or it enters the note of the
calculation it makes, or it wipes them. -/
lemma press_cases (desk : Desk σ) (k : Key) :
    ((desk.press k).1.book = desk.book ∧ (desk.press k).1.storage = desk.storage) ∨
    (∃ note, k.Calculates desk.line.expression note ∧
      (desk.press k).1.book = desk.book.push note ∧
      (desk.press k).1.storage = ((desk.book.push note).save desk.storage).2) ∨
    (k = .wipeHistory ∧ (desk.press k).1.book = (desk.book.wipe desk.storage).1 ∧
      (desk.press k).1.storage = (desk.book.wipe desk.storage).2.2) := by
  cases k with
  | equals =>
      simp only [press, calculate]
      split
      · exact Or.inl ⟨rfl, rfl⟩
      · cases h : answer desk.line.expression with
        | ok result => exact Or.inr (Or.inl ⟨_, ⟨result, h, rfl⟩, desk.succeed_eq _ _⟩)
        | error r => exact Or.inl ⟨rfl, rfl⟩
  | transform t =>
      simp only [press, transform]
      cases h : t.answer desk.line.expression with
      | ok x => exact Or.inr (Or.inl ⟨x.2, ⟨x.1, h⟩, desk.succeed_eq _ _⟩)
      | error r => exact Or.inl ⟨rfl, rfl⟩
  | wipeHistory =>
      refine Or.inr (Or.inr ⟨rfl, ?_⟩)
      simp only [press, wipeHistory]
      obtain ⟨book, outcome, storage⟩ := desk.book.wipe desk.storage
      cases outcome <;> exact ⟨rfl, rfl⟩
  | _ => exact Or.inl ⟨rfl, rfl⟩

/-- The key for the value shows the answer and enters the note of it; nothing is calculated of
a blank line, but no expression is empty that has an answer. -/
lemma press_equals_of_ok (desk : Desk σ) {result : String}
    (h : answer desk.line.expression = .ok result) :
    desk.press .equals = desk.succeed result (noteOf desk.line.expression result) := by
  have hblank : desk.line.isBlank = false := by
    rw [EntryLine.isBlank, String.isEmpty_eq_false_iff]
    intro hempty
    rw [hempty] at h
    cases h
  simp only [press, calculate, hblank, h]
  rfl

lemma press_equals_of_error (desk : Desk σ) (hblank : desk.line.isBlank = false) {r : Reason}
    (h : answer desk.line.expression = .error r) : desk.press .equals = (desk.fail, none) := by
  simp only [press, calculate, hblank, h]
  rfl

/-- A transform shows its answer and enters the note of it. -/
lemma press_transform_of_ok (desk : Desk σ) {t : Transform} {result note : String}
    (h : t.answer desk.line.expression = .ok (result, note)) :
    desk.press (.transform t) = desk.succeed result note := by
  simp only [press, transform, h]

lemma press_transform_of_error (desk : Desk σ) {t : Transform} {r : Reason}
    (h : t.answer desk.line.expression = .error r) :
    desk.press (.transform t) = (desk.fail, none) := by
  simp only [press, transform, h]

/-- A key that makes a calculation that succeeds enters its note. -/
lemma press_of_calculates (desk : Desk σ) {k : Key} {note : String}
    (h : k.Calculates desk.line.expression note) :
    (desk.press k).1.book = desk.book.push note ∧
      (desk.press k).1.storage = ((desk.book.push note).save desk.storage).2 := by
  cases k with
  | equals =>
      obtain ⟨result, hresult, rfl⟩ := h
      rw [desk.press_equals_of_ok hresult]
      exact desk.succeed_eq _ _
  | transform t =>
      obtain ⟨result, hresult⟩ := h
      rw [desk.press_transform_of_ok hresult]
      exact desk.succeed_eq _ _
  | _ => exact h.elim

/-- A key that makes none, or one that fails, leaves the logbook and the storage alone, unless
it wipes them. -/
lemma press_of_note?_eq_none (desk : Desk σ) {k : Key} (hk : k ≠ .wipeHistory)
    (h : k.note? desk.line.expression = none) :
    (desk.press k).1.book = desk.book ∧ (desk.press k).1.storage = desk.storage := by
  rcases desk.press_cases k with hsame | ⟨note, hnote, -⟩ | ⟨rfl, -⟩
  · exact hsame
  · rw [Key.note?_eq_some_iff.2 hnote] at h
    cases h
  · exact absurd rfl hk

/-- Wiping empties the logbook when the storage does so. -/
lemma press_wipeHistory_of_ok (desk : Desk σ) {storage : σ}
    (h : Storage.erase desk.storage desk.book.key = (.ok (), storage)) :
    desk.press .wipeHistory
      = ({ desk with book := .empty desk.book.key, storage }, some .wiped) := by
  simp only [press, wipeHistory, Logbook.wipe, h]

lemma press_wipeHistory_of_error (desk : Desk σ) {e : StorageFailure} {storage : σ}
    (h : Storage.erase desk.storage desk.book.key = (.error e, storage)) :
    desk.press .wipeHistory = ({ desk with storage }, some (.wipeFailed e.message)) := by
  simp only [press, wipeHistory, Logbook.wipe, h]

/-- A key whose calculation fails leaves the logbook and the storage alone. -/
lemma press_of_fails (desk : Desk σ) {k : Key} (h : k.Fails desk.line.expression) :
    (desk.press k).1.book = desk.book ∧ (desk.press k).1.storage = desk.storage := by
  rcases desk.press_cases k with hsame | ⟨note, hnote, -⟩ | ⟨rfl, -⟩
  · exact hsame
  · exact absurd h hnote.not_fails
  · exact h.elim

end Desk

end DeskCalculator
