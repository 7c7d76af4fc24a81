import Mathlib.Tactic
import DeskCalculator.Logbook

/-!
A logbook is the head of one without a cap.

Every new note pushes the oldest one out of a full logbook. The same notes come of keeping
all of them and looking at the first five, whatever storage does meanwhile: a note is kept
even if it cannot be stored, and a logbook that cannot be wiped keeps everything.

* `Logbook.Call`, `Logbook.call`: the three calls of a logbook and what they do.
* `Logbook.Call.write?`: the write to storage that a call makes; a reload makes none.
* `Tracked`: a logbook in use, and beside it the list of notes without a cap.
* `Tracked.Capped`: the invariant. Every event keeps it (`Tracked.Capped.after`), and so
  does a run (`Tracked.Capped.run`).
* `notes_eq_take_uncapped`: the result.
-/

namespace DeskCalculator

variable {σ : Type} [Storage σ]

namespace Logbook

/-! ### Calls -/

/-- A call of a logbook. -/
inductive Call where
  | reload
  | enter (note : String)
  | wipe
deriving DecidableEq

/-- What a call does to a logbook and its storage, and what comes of it. -/
def call (book : Logbook) (storage : σ) : Call → Logbook × Written σ
  | .reload => (book.reload storage, .ok (), storage)
  | .enter note => book.enter storage note
  | .wipe => book.wipe storage

/-- The write to storage that a call makes. -/
def Call.write? (c : Call) (book : Logbook) (storage : σ) : Option (Written σ) :=
  match c with
  | .reload => none
  | .enter note =>
    some (Storage.insert storage book.key (StringArray.encode ((note :: book.notes).take 5)))
  | .wipe => some (Storage.erase storage book.key)

/-- What comes of a call, and the storage afterwards, are those of the write it makes. -/
lemma snd_call (book : Logbook) (storage : σ) (c : Call) :
    (book.call storage c).2 = (c.write? book storage).getD (.ok (), storage) := by
  cases c with
  | reload => rfl
  | enter note => rfl
  | wipe =>
      simp only [call, Call.write?, wipe]
      rcases Storage.erase storage book.key with ⟨_ | ⟨⟩, storage'⟩ <;> rfl

lemma call_eq_error_iff (book : Logbook) (storage : σ) (c : Call) (e : StorageFailure) :
    (book.call storage c).2.1 = .error e ↔
      ∃ written, c.write? book storage = some written ∧ written.1 = .error e := by
  rw [snd_call]
  cases c.write? book storage <;> simp

lemma key_call (book : Logbook) (storage : σ) (c : Call) :
    (book.call storage c).1.key = book.key := by
  cases c with
  | reload => rfl
  | enter note => rfl
  | wipe =>
      simp only [call, wipe]
      rcases Storage.erase storage book.key with ⟨_ | ⟨⟩, storage'⟩ <;> rfl

/-- Wiping leaves no notes if it succeeds, and all of them if it does not. -/
lemma notes_call_wipe (book : Logbook) (storage : σ) :
    (book.call storage .wipe).1.notes
      = match (book.call storage .wipe).2.1 with
        | .ok () => []
        | .error _ => book.notes := by
  simp only [call, wipe]
  rcases Storage.erase storage book.key with ⟨_ | ⟨⟩, storage'⟩ <;> rfl

/-- The notes without a cap after a call, from those before it and what comes of it. -/
def Call.uncapped (c : Call) (notes : List String) (result : Logbook × Written σ) :
    List String :=
  match c with
  | .reload => result.1.notes
  | .enter note => note :: notes
  | .wipe =>
    match result.2.1 with
    | .ok () => []
    | .error _ => notes

end Logbook

/-! ### A logbook in use -/

/-- A logbook in use, its storage, and the list of notes without a cap. -/
structure Tracked (σ : Type) where
  book : Logbook
  storage : σ
  uncapped : List String

/-- What may happen to a logbook in use: a call, or storage that is found in another state,
so that the next access may fail where the last one did not. -/
inductive LogEvent (σ : Type) where
  | call (c : Logbook.Call)
  | find (storage : σ)

namespace Tracked

/-- A logbook to begin with; the list without a cap is what it holds. -/
def start (book : Logbook) (storage : σ) : Tracked σ := ⟨book, storage, book.notes⟩

/-- After an event. -/
def after (t : Tracked σ) : LogEvent σ → Tracked σ
  | .call c =>
    let result := t.book.call t.storage c
    ⟨result.1, result.2.2, c.uncapped t.uncapped result⟩
  | .find storage => { t with storage }

/-- After some events. -/
def run (t : Tracked σ) (events : List (LogEvent σ)) : Tracked σ := events.foldl after t

/-- The logbook is the head of the list without a cap. -/
def Capped (t : Tracked σ) : Prop := t.book.notes = t.uncapped.take capacity

omit [Storage σ] in
lemma capped_start (book : Logbook) (storage : σ) : (start book storage).Capped :=
  (List.take_of_length_le book.length_le).symm

namespace Capped

variable {t : Tracked σ}

/-- A call keeps it so. What a new note pushes out of the logbook would not be among the
first of the list either. -/
lemma call (h : t.Capped) (c : Logbook.Call) : (t.after (.call c)).Capped := by
  cases c with
  | reload => exact (List.take_of_length_le (t.book.reload t.storage).length_le).symm
  | enter note =>
      change (note :: t.book.notes).take capacity = (note :: t.uncapped).take capacity
      rw [h, capacity, List.take_succ_cons, List.take_succ_cons, List.take_take]
      rfl
  | wipe =>
      change (t.book.call t.storage .wipe).1.notes = _
      rw [Logbook.notes_call_wipe]
      simp only [after, Logbook.Call.uncapped]
      cases (t.book.call t.storage .wipe).2.1 with
      | ok u => exact List.take_nil.symm
      | error e => exact h

lemma after (h : t.Capped) (e : LogEvent σ) : (t.after e).Capped := by
  cases e with
  | call c => exact h.call c
  | find storage => exact h

lemma run (h : t.Capped) (events : List (LogEvent σ)) : (t.run events).Capped := by
  induction events generalizing t with
  | nil => exact h
  | cons e events ih => exact ih (h.after e)

end Capped

end Tracked

/-- **A logbook is the head of one without a cap.** Take any logbook on any kind of storage
in any state, and any reloads, new notes and wipes, between which storage may come to be in
any other state. At every moment the notes are the first five of the list that a reload sets
to what is loaded, a new note is put in front of whether it can be stored or not, a wipe that
succeeds empties and one that fails leaves alone; and a call fails exactly when the write
that it makes fails, so a reload never does. -/
theorem notes_eq_take_uncapped (book : Logbook) (storage : σ) (events : List (LogEvent σ)) :
    ((Tracked.start book storage).run events).book.notes
        = ((Tracked.start book storage).run events).uncapped.take 5 ∧
      ∀ (c : Logbook.Call) (e : StorageFailure),
        (((Tracked.start book storage).run events).book.call
            ((Tracked.start book storage).run events).storage c).2.1 = .error e ↔
          ∃ written,
            c.write? ((Tracked.start book storage).run events).book
              ((Tracked.start book storage).run events).storage = some written ∧
            written.1 = .error e :=
  ⟨(Tracked.capped_start book storage).run events, Logbook.call_eq_error_iff _ _⟩

end DeskCalculator
