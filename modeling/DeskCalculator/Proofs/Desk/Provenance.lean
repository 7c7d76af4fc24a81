import DeskCalculator.Proofs.Desk.Press
import DeskCalculator.Proofs.Text.StringArray
import DeskCalculator.Storage.Memory

/-!
Every note is that of a calculation that was made.

A calculator on a storage in memory is used, left and begun anew on the same storage, and
meanwhile the storage may refuse writes, so that the logbook and its stored copy part.

* `Event`, `Desk.after`, `Desk.run`: what may happen, and a calculator afterwards.
* `Recorded`: a note was entered in a run, by a key that made the calculation it tells of
  the expression pending at that moment.
* `Justified`: the invariant, that every note in the logbook and in its stored copy has a
  property. One event keeps it (`Justified.after`) if the note the event enters has the
  property; so a run does (`justified_run`), for the property of being recorded in it.
* `notes_are_calculations`: the result.
-/

namespace DeskCalculator

/-! ### Runs -/

/-- What may happen to a calculator on a storage in memory: a key is pressed, a calculator
is begun anew on the same storage, or writes are refused from now on, or accepted again. -/
inductive Event where
  | press (k : Key)
  | reopen
  | refuse (refuses : Bool)

namespace Desk

/-- The calculator after an event. -/
def after (desk : Desk MemoryStorage) : Event → Desk MemoryStorage
  | .press k => (desk.press k).1
  | .reopen => start desk.book.key desk.storage desk.clipboard
  | .refuse refuses => { desk with storage := { desk.storage with refusesWrites := refuses } }

/-- The calculator after some events. -/
def run (desk : Desk MemoryStorage) (events : List Event) : Desk MemoryStorage :=
  events.foldl after desk

lemma run_concat (desk : Desk MemoryStorage) (events : List Event) (e : Event) :
    desk.run (events ++ [e]) = (desk.run events).after e := by
  rw [run, List.foldl_append]
  rfl

end Desk

/-- A note was entered in a run: at some moment a key was pressed that makes the calculation
it tells of the expression pending then, which put it at the head of the logbook. -/
def Recorded (desk : Desk MemoryStorage) (events : List Event) (note : String) : Prop :=
  ∃ (before : List Event) (k : Key) (behind : List Event),
    events = before ++ .press k :: behind ∧
    k.Calculates (desk.run before).line.expression note ∧
    ((desk.run before).press k).1.book.notes.head? = some note

lemma Recorded.concat {desk : Desk MemoryStorage} {events : List Event} {note : String}
    (h : Recorded desk events note) (e : Event) : Recorded desk (events ++ [e]) note := by
  obtain ⟨before, k, behind, rfl, hnote, hhead⟩ := h
  exact ⟨before, k, behind ++ [e], by simp, hnote, hhead⟩

/-! ### The invariant -/

/-- The note that an event enters has the property. -/
def EntersOnly (P : String → Prop) (desk : Desk MemoryStorage) : Event → Prop
  | .press k => ∀ note, k.Calculates desk.line.expression note →
      (desk.press k).1.book.notes.head? = some note → P note
  | _ => True

/-- Every note in the logbook has the property, and so has every one in the copy stored
under the key, which is an array of notes if there is one. -/
structure Justified (P : String → Prop) (key : String) (desk : Desk MemoryStorage) : Prop where
  key_eq : desk.book.key = key
  notes : ∀ note ∈ desk.book.notes, P note
  stored : ∀ text, desk.storage.lookup key = some text →
    ∃ notes, text = StringArray.encode notes ∧ ∀ note ∈ notes, P note

namespace Justified

variable {P : String → Prop} {key : String} {desk : Desk MemoryStorage}

lemma congr {desk' : Desk MemoryStorage} (h : Justified P key desk)
    (hbook : desk'.book = desk.book)
    (hstorage : desk'.storage.lookup key = desk.storage.lookup key) :
    Justified P key desk' :=
  ⟨hbook ▸ h.key_eq, hbook ▸ h.notes, hstorage ▸ h.stored⟩

lemma mono {Q : String → Prop} (h : Justified P key desk) (hPQ : ∀ note, P note → Q note) :
    Justified Q key desk := by
  refine ⟨h.key_eq, fun note hn => hPQ note (h.notes note hn), fun text ht => ?_⟩
  obtain ⟨notes, rfl, hnotes⟩ := h.stored text ht
  exact ⟨notes, rfl, fun note hn => hPQ note (hnotes note hn)⟩

lemma mem_storedNotes (h : Justified P key desk) {note : String}
    (hn : note ∈ Logbook.storedNotes desk.storage key) : P note := by
  have hfind : Storage.find? desk.storage key = .ok (desk.storage.lookup key) := rfl
  rw [Logbook.storedNotes, hfind] at hn
  cases hl : desk.storage.lookup key with
  | none =>
      rw [hl] at hn
      cases hn
  | some text =>
      obtain ⟨notes, rfl, hnotes⟩ := h.stored text hl
      simp only [hl, StringArray.decode?_encode, Option.getD_some] at hn
      exact hnotes note hn

/-- Entering a note that has the property keeps the invariant, whether it is stored or not. -/
lemma enter (h : Justified P key desk) {note : String} (hnote : P note)
    {desk' : Desk MemoryStorage} (hbook : desk'.book = desk.book.push note)
    (hstorage : desk'.storage = ((desk.book.push note).save desk.storage).2) :
    Justified P key desk' := by
  have hnotes : ∀ n ∈ (desk.book.push note).notes, P n := by
    intro n hn
    rcases List.mem_cons.1 (List.mem_of_mem_take hn) with rfl | hn
    · exact hnote
    · exact h.notes n hn
  have hsave : ((desk.book.push note).save desk.storage).2
      = (desk.storage.write
          (·.putKey key (StringArray.encode (desk.book.push note).notes))).2 := by
    rw [← h.key_eq]
    rfl
  refine ⟨hbook ▸ h.key_eq, hbook ▸ hnotes, fun text ht => ?_⟩
  rw [hstorage, hsave, MemoryStorage.write] at ht
  split at ht
  · exact h.stored text ht
  · simp only [MemoryStorage.lookup_putKey, beq_self_eq_true, if_true, Option.some.injEq] at ht
    exact ⟨_, ht.symm, hnotes⟩

/-- Wiping keeps the invariant, whether it succeeds or not. -/
lemma wipe (h : Justified P key desk) {desk' : Desk MemoryStorage}
    (hbook : desk'.book = (desk.book.wipe desk.storage).1)
    (hstorage : desk'.storage = (desk.book.wipe desk.storage).2.2) :
    Justified P key desk' := by
  have herase : Storage.erase desk.storage desk.book.key
      = desk.storage.write (·.dropKey key) := by
    rw [← h.key_eq]
    rfl
  rw [Logbook.wipe, herase, MemoryStorage.write] at hbook hstorage
  by_cases hr : desk.storage.refusesWrites = true
  · rw [if_pos hr] at hbook hstorage
    exact h.congr hbook (congrArg (·.lookup key) hstorage)
  · rw [if_neg hr] at hbook hstorage
    refine ⟨hbook ▸ h.key_eq, fun note hn => ?_, fun text ht => ?_⟩
    · rw [hbook] at hn
      cases hn
    · simp [hstorage] at ht

/-- One event keeps the invariant if the note it enters has the property. -/
lemma after (h : Justified P key desk) {e : Event} (he : EntersOnly P desk e) :
    Justified P key (desk.after e) := by
  cases e with
  | press k =>
      rcases desk.press_cases k with ⟨hbook, hstorage⟩ | ⟨note, hnote, hbook, hstorage⟩ |
        ⟨-, hbook, hstorage⟩
      · exact h.congr hbook (congrArg (·.lookup key) hstorage)
      · exact h.enter (he note hnote (by rw [hbook]; rfl)) hbook hstorage
      · exact h.wipe hbook hstorage
  | reopen =>
      refine ⟨h.key_eq, fun note hn => h.mem_storedNotes ?_, h.stored⟩
      rw [← h.key_eq]
      exact List.mem_of_mem_take hn
  | refuse refuses => exact h.congr rfl rfl

end Justified

/-- A run keeps the invariant, for the property of being recorded in it. -/
lemma justified_run {key : String} {storage : MemoryStorage}
    (h : storage.lookup key = none) (clipboard : Clipboard) (events : List Event) :
    Justified (Recorded (Desk.start key storage clipboard) events) key
      ((Desk.start key storage clipboard).run events) := by
  induction events using List.reverseRecOn with
  | nil =>
      have hstored : Logbook.storedNotes storage key = [] := by
        have hfind : Storage.find? storage key = .ok (storage.lookup key) := rfl
        rw [Logbook.storedNotes, hfind, h]
      refine ⟨rfl, fun note hn => ?_, fun text ht => ?_⟩
      · have hmem : note ∈ Logbook.storedNotes storage key := List.mem_of_mem_take hn
        rw [hstored] at hmem
        cases hmem
      · cases h.symm.trans ht
  | append_singleton events e ih =>
      rw [Desk.run_concat]
      refine (ih.mono fun note hn => hn.concat e).after ?_
      cases e with
      | press k => exact fun note hnote hhead => ⟨events, k, [], rfl, hnote, hhead⟩
      | reopen => trivial
      | refuse refuses => trivial

/-! ### The notes of a run -/

/-- **Every note is that of a calculation that was made.** Take a calculator on a storage in
memory with nothing under its key, any clipboard, and any run in which keys are pressed, the
calculator is begun anew on the same storage, and the storage refuses writes for a while. Then
every note in the logbook, and every one in its stored copy, was recorded in the run: it is the
note of a calculation that succeeded, made by a key of the raw expression pending at that
moment. A key whose calculation fails leaves the logbook and the storage alone. -/
theorem notes_are_calculations (key : String) (storage : MemoryStorage)
    (h : storage.lookup key = none) (clipboard : Clipboard) (events : List Event) :
    let desk := Desk.start key storage clipboard
    (∀ note ∈ (desk.run events).book.notes, Recorded desk events note) ∧
    (∀ text, (desk.run events).storage.lookup key = some text →
      ∃ notes, StringArray.decode? text = some notes ∧
        ∀ note ∈ notes, Recorded desk events note) ∧
    ∀ k : Key, k.Fails (desk.run events).line.expression →
      ((desk.run events).press k).1.book = (desk.run events).book ∧
        ((desk.run events).press k).1.storage = (desk.run events).storage := by
  intro desk
  have hjust : Justified (Recorded desk events) key (desk.run events) :=
    justified_run h clipboard events
  refine ⟨hjust.notes, fun text ht => ?_, fun k hk => Desk.press_of_fails _ hk⟩
  obtain ⟨notes, rfl, hnotes⟩ := hjust.stored text ht
  exact ⟨notes, StringArray.decode?_encode notes, hnotes⟩

/-- The note of a square is stored, that of its result is refused, and the calculator begins
anew with the first. -/
theorem notes_are_calculations_refused :
    MemoryStorage.empty.lookup usualKey = none ∧
      Recorded (Desk.start usualKey .empty) [.press (.numeral ⟨'2', rfl⟩),
        .press (.transform .square), .refuse true, .press .equals, .reopen] "(2)² = 4" :=
  ⟨rfl, (notes_are_calculations usualKey .empty rfl .absent _).1 _ (by decide +kernel)⟩

end DeskCalculator
