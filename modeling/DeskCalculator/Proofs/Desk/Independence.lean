import DeskCalculator.Proofs.Desk.Press
import DeskCalculator.Storage.Directory
import DeskCalculator.Storage.Memory

/-!
The storage and the panel have no influence on what is calculated.

Two calculators are compared that are used differently: their storages may be of different
kinds, hold different texts and fail at different moments, and the keys may differ in those
that only concern the panel, the logbook or the clipboard.

* `DeskEvent`, `Desk.afterEvent`, `Desk.afterEvents`: a key is pressed, or the storage is
  found in another state.
* `Key.actsOnLine`, `Key.actsOnNotes`: the keys that matter to the entry line and to the
  notes.
* `line_afterEvents`: the entry line is that of the keys which matter to it.
* `pageAfter`: the line and the notes, computed from the keys that matter to them and from
  which wipes succeed, without any storage. `page_afterEvent` is one step,
  `page_afterEvents` a run.
* `storage_and_panel_do_not_matter`: the result.
-/

namespace DeskCalculator

/-! ### Runs -/

/-- What may happen to a calculator: a key is pressed, or its storage is found in another
state, so that the next write may fail where the last one did not. -/
inductive DeskEvent (σ : Type) where
  | press (k : Key)
  | find (storage : σ)

/-- The keys pressed in a run. -/
def pressedKeys {σ : Type} (events : List (DeskEvent σ)) : List Key :=
  events.filterMap fun
    | .press k => some k
    | .find _ => none

/-- A key that may change the entry line. -/
def Key.actsOnLine : Key → Bool
  | .togglePanel | .wipeHistory | .copy => false
  | _ => true

/-- A key that may change the entry line or the notes. -/
def Key.actsOnNotes : Key → Bool
  | .togglePanel | .copy => false
  | _ => true

/-- The entry line and the notes after keys, when it is known which wipes succeed. -/
def pageAfter (line : EntryLine) (notes : List String) :
    List Key → List Bool → EntryLine × List String
  | [], _ => (line, notes)
  | .wipeHistory :: ks, [] => pageAfter line notes ks []
  | .wipeHistory :: ks, wiped :: outcomes =>
    pageAfter line (if wiped then [] else notes) ks outcomes
  | k :: ks, outcomes =>
    let notes := match k.note? line.expression with
      | some note => (note :: notes).take capacity
      | none => notes
    pageAfter (line.press k) notes ks outcomes

namespace Desk

variable {σ τ : Type} [Storage σ] [Storage τ]

/-- The calculator after an event. -/
def afterEvent (desk : Desk σ) : DeskEvent σ → Desk σ
  | .press k => (desk.press k).1
  | .find storage => { desk with storage }

/-- The calculator after some events. -/
def afterEvents (desk : Desk σ) (events : List (DeskEvent σ)) : Desk σ :=
  events.foldl afterEvent desk

lemma afterEvents_cons (desk : Desk σ) (e : DeskEvent σ) (events : List (DeskEvent σ)) :
    desk.afterEvents (e :: events) = (desk.afterEvent e).afterEvents events := rfl

/-- Whether an event wipes the logbook, if it is to. -/
def wipes? (desk : Desk σ) : DeskEvent σ → Option Bool
  | .press .wipeHistory => some (decide ((desk.press .wipeHistory).2 = some .wiped))
  | _ => none

/-- Which of the wipes in a run succeed. -/
def wipeOutcomes (desk : Desk σ) : List (DeskEvent σ) → List Bool
  | [] => []
  | e :: events => (desk.wipes? e).toList ++ (desk.afterEvent e).wipeOutcomes events

/-! ### The entry line -/

/-- The entry line is that of the keys which matter to it. -/
lemma line_afterEvents (desk : Desk σ) (events : List (DeskEvent σ)) :
    (desk.afterEvents events).line
      = ((pressedKeys events).filter Key.actsOnLine).foldl EntryLine.press desk.line := by
  induction events generalizing desk with
  | nil => rfl
  | cons e events ih =>
      rw [afterEvents_cons, ih]
      cases e with
      | find storage => rfl
      | press k =>
          rw [afterEvent, line_press]
          cases k <;> rfl

/-! ### The notes -/

/-- Wiping leaves the line alone, and the notes unless it succeeds. -/
lemma page_wipeHistory (desk : Desk σ) :
    (desk.press .wipeHistory).1.line = desk.line ∧
      (desk.press .wipeHistory).1.book.notes
        = if (desk.press .wipeHistory).2 = some .wiped then [] else desk.book.notes := by
  refine ⟨desk.line_press .wipeHistory, ?_⟩
  rcases herase : Storage.erase desk.storage desk.book.key with ⟨e | ⟨⟩, storage⟩
  · rw [desk.press_wipeHistory_of_error herase, if_neg (by simp)]
  · rw [desk.press_wipeHistory_of_ok herase, if_pos rfl]
    rfl

/-- The line and the notes after one event. A key that does not wipe them acts on the two
alone, whatever becomes of the copy in storage. -/
lemma page_afterEvent (desk : Desk σ) (e : DeskEvent σ) (ks : List Key) (outcomes : List Bool) :
    pageAfter desk.line desk.book.notes
        ((pressedKeys [e]).filter Key.actsOnNotes ++ ks) ((desk.wipes? e).toList ++ outcomes)
      = pageAfter (desk.afterEvent e).line (desk.afterEvent e).book.notes ks outcomes := by
  cases e with
  | find storage => rfl
  | press k =>
      by_cases hwipe : k = .wipeHistory
      · subst hwipe
        obtain ⟨hline, hnotes⟩ := desk.page_wipeHistory
        rw [afterEvent, hline, hnotes, wipes?, Option.toList_some]
        by_cases hwiped : (desk.press .wipeHistory).2 = some .wiped
        · rw [decide_eq_true hwiped, if_pos hwiped]
          rfl
        · rw [decide_eq_false hwiped, if_neg hwiped]
          rfl
      · have hnotes : (desk.press k).1.book.notes = match k.note? desk.line.expression with
            | some note => (note :: desk.book.notes).take capacity
            | none => desk.book.notes := by
          cases h : k.note? desk.line.expression with
          | none => rw [(desk.press_of_note?_eq_none hwipe h).1]
          | some note =>
              rw [(desk.press_of_calculates (Key.note?_eq_some_iff.1 h)).1]
              rfl
        rw [afterEvent, line_press, hnotes]
        cases k <;> first | rfl | exact absurd rfl hwipe

lemma page_afterEvents (desk : Desk σ) (events : List (DeskEvent σ)) :
    ((desk.afterEvents events).line, (desk.afterEvents events).book.notes)
      = pageAfter desk.line desk.book.notes ((pressedKeys events).filter Key.actsOnNotes)
          (desk.wipeOutcomes events) := by
  induction events generalizing desk with
  | nil => rfl
  | cons e events ih =>
      have hkeys : pressedKeys (e :: events) = pressedKeys [e] ++ pressedKeys events :=
        List.filterMap_append (l := [e])
      rw [afterEvents_cons, ih, hkeys, List.filter_append, wipeOutcomes, page_afterEvent]

end Desk

/-- **Neither the storage nor the panel has any influence on what is calculated.** Take two
calculators with the same entry line. Their storages may be of different kinds, hold different
texts, and come to be in any other state at any moment; their notes may differ, and so may
what is to be seen.

* After keys that are the same but for those to see the panel, to wipe the history and to copy
  a result, the entry lines are the same.
* If the notes are the same too, and the keys are the same but for those to see the panel and
  to copy a result, and each wipe succeeds on both calculators or on neither, then the notes
  are the same in the end, whichever notes could not be stored. -/
theorem storage_and_panel_do_not_matter {σ τ : Type} [Storage σ] [Storage τ] (desk : Desk σ)
    (desk' : Desk τ) (hline : desk.line = desk'.line) (events : List (DeskEvent σ))
    (events' : List (DeskEvent τ)) :
    ((pressedKeys events).filter Key.actsOnLine = (pressedKeys events').filter Key.actsOnLine →
      (desk.afterEvents events).line = (desk'.afterEvents events').line) ∧
    (desk.book.notes = desk'.book.notes →
      (pressedKeys events).filter Key.actsOnNotes
        = (pressedKeys events').filter Key.actsOnNotes →
      desk.wipeOutcomes events = desk'.wipeOutcomes events' →
      (desk.afterEvents events).book.notes = (desk'.afterEvents events').book.notes) := by
  refine ⟨fun hkeys => ?_, fun hnotes hkeys houtcomes => ?_⟩
  · rw [Desk.line_afterEvents, Desk.line_afterEvents, hkeys, hline]
  · have hpage := desk.page_afterEvents events
    rw [hline, hnotes, hkeys, houtcomes, ← Desk.page_afterEvents] at hpage
    exact congrArg Prod.snd hpage

/-- On one calculator a square is refused by a storage in memory; on the other it is kept in a
directory, with the panel shown and a result copied meanwhile. -/
theorem storage_and_panel_do_not_matter_of_square :
    let desk := Desk.start usualKey MemoryStorage.empty
    let desk' := Desk.start usualKey (⟨"store", ⟨[], []⟩⟩ : DirectoryStorage)
    let events := [.press (.numeral ⟨'3', rfl⟩), .press .wipeHistory, .find ⟨[], true⟩,
      .press (.transform .square)]
    let events' := [.press .togglePanel, .press (.numeral ⟨'3', rfl⟩), .press .wipeHistory,
      .press .copy, .press (.transform .square)]
    desk.line = desk'.line ∧ desk.book.notes = desk'.book.notes ∧
      (pressedKeys events).filter Key.actsOnLine = (pressedKeys events').filter Key.actsOnLine ∧
      (pressedKeys events).filter Key.actsOnNotes
        = (pressedKeys events').filter Key.actsOnNotes ∧
      desk.wipeOutcomes events = [true] ∧ desk'.wipeOutcomes events' = [true] ∧
      (desk.afterEvents events).line = (desk'.afterEvents events').line ∧
      (desk.afterEvents events).book.notes = (desk'.afterEvents events').book.notes := by
  intro desk desk' events events'
  have hline : desk.line = desk'.line := rfl
  have hnotes : desk.book.notes = desk'.book.notes := rfl
  have hkeys : (pressedKeys events).filter Key.actsOnLine
      = (pressedKeys events').filter Key.actsOnLine := rfl
  have hkeys' : (pressedKeys events).filter Key.actsOnNotes
      = (pressedKeys events').filter Key.actsOnNotes := rfl
  have hwiped : desk.wipeOutcomes events = [true] := by decide +kernel
  have hwiped' : desk'.wipeOutcomes events' = [true] := by decide +kernel
  have hall := storage_and_panel_do_not_matter desk desk' hline events events'
  exact ⟨hline, hnotes, hkeys, hkeys', hwiped, hwiped', hall.1 hkeys,
    hall.2 hnotes hkeys' (hwiped.trans hwiped'.symm)⟩

end DeskCalculator
