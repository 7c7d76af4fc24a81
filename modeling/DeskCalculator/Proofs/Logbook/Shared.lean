import DeskCalculator.Proofs.Logbook.Calls
import DeskCalculator.Proofs.Logbook.Copy
import DeskCalculator.Storage.Memory

/-!
Several logbooks that share the storage under one key.

Each of them writes all it holds, over what another one has written, and none looks at
storage unless it is reloaded; meanwhile storage may refuse writes for a while. So the copy
in storage is that of the last logbook whose write succeeded.

* `Shared`, `SharedEvent`: the logbooks with their storage, and what may happen to them. A
  logbook is opened by a reload.
* `Shared.Writes`: an event changes the copy: a note or a wipe that storage accepts.
* `Shared.Throughout`: every event of a run is as it should be at its moment.
* `Shared.copy?_after_of_writes`, `copy?_after_of_not_writes`: what an event does to the copy.
* `Shared.throughout_or_last_write`: a run writes nothing, or it has a last write.
* `Shared.stored_run_of_writes`: a logbook opened after a write is that of the writer.
* `Shared.getElem?_notes_after`, `getElem?_notes_run`: a note moves back by one place with
  each newer one, and is lost by a reload or a wipe only, or at the end of the logbook.
* `copy_is_of_last_writer`: the result.
-/

namespace DeskCalculator

open Logbook (Call)

/-- Logbooks with one key, and the storage in memory they share. -/
structure Shared (ι : Type) where
  key : String
  books : ι → Logbook
  key_books : ∀ i, (books i).key = key
  storage : MemoryStorage

/-- What may happen: a call of one of the logbooks, or that writes are refused from now on,
or accepted again. -/
inductive SharedEvent (ι : Type) where
  | call (i : ι) (c : Call)
  | refuse (refuses : Bool)

variable {ι : Type} [DecidableEq ι]

/-- An event enters a note in a logbook. -/
def SharedEvent.entersIn (i : ι) : SharedEvent ι → Bool
  | .call j (.enter _) => j == i
  | _ => false

namespace Shared

omit [DecidableEq ι] in
/-- Logbooks without notes on a storage with nothing in it. -/
def new (key : String) : Shared ι := ⟨key, fun _ => .empty key, fun _ => rfl, .empty⟩

/-! ### Runs -/

/-- After an event. A call concerns one logbook, and all of them by what it leaves in
storage. -/
def after (s : Shared ι) : SharedEvent ι → Shared ι
  | .call i c =>
    { s with
      books := Function.update s.books i ((s.books i).call s.storage c).1
      key_books := by
        intro j
        rw [Function.update_apply]
        split
        · rw [Logbook.key_call, s.key_books]
        · exact s.key_books j
      storage := ((s.books i).call s.storage c).2.2 }
  | .refuse refuses => { s with storage := { s.storage with refusesWrites := refuses } }

/-- After some events. -/
def run (s : Shared ι) (events : List (SharedEvent ι)) : Shared ι := events.foldl after s

lemma run_append (s : Shared ι) (events events' : List (SharedEvent ι)) :
    s.run (events ++ events') = (s.run events).run events' := List.foldl_append

lemma run_cons (s : Shared ι) (e : SharedEvent ι) (events : List (SharedEvent ι)) :
    s.run (e :: events) = (s.after e).run events := rfl

/-- Every event of a run is as it should be at its moment. -/
def Throughout (P : Shared ι → SharedEvent ι → Prop) (s : Shared ι) :
    List (SharedEvent ι) → Prop
  | [] => True
  | e :: events => P s e ∧ (s.after e).Throughout P events

lemma Throughout.concat {P : Shared ι → SharedEvent ι → Prop} {s : Shared ι}
    {events : List (SharedEvent ι)} (h : s.Throughout P events) {e : SharedEvent ι}
    (he : P (s.run events) e) : s.Throughout P (events ++ [e]) := by
  induction events generalizing s with
  | nil => exact ⟨he, trivial⟩
  | cons e' events ih => exact ⟨h.1, ih h.2 he⟩

omit [DecidableEq ι] in
/-- The copy in storage. -/
def copy? (s : Shared ι) : Option String := s.storage.lookup s.key

/-- An event changes the copy: it enters a note or wipes a logbook, and does not fail. -/
def Writes (s : Shared ι) : SharedEvent ι → Prop
  | .call i c => c ≠ .reload ∧ ((s.books i).call s.storage c).2.1 = .ok ()
  | .refuse _ => False

/-- The copy that a successful write leaves: none after a wipe, and else all that the
logbook holds after it. -/
def copyOf (c : Call) (book : Logbook) : Option String :=
  if c = .wipe then none else some (StringArray.encode book.notes)

@[simp]
lemma key_after (s : Shared ι) (e : SharedEvent ι) : (s.after e).key = s.key := by
  cases e <;> rfl

@[simp]
lemma key_run (s : Shared ι) (events : List (SharedEvent ι)) : (s.run events).key = s.key := by
  induction events generalizing s with
  | nil => rfl
  | cons e events ih => exact (ih (s.after e)).trans (s.key_after e)

/-- A call makes of its logbook what it makes of it alone. -/
lemma books_after_call (s : Shared ι) (i : ι) (c : Call) :
    (s.after (.call i c)).books i = ((s.books i).call s.storage c).1 :=
  Function.update_self i _ _

lemma books_after_call_of_ne (s : Shared ι) {i j : ι} (h : j ≠ i) (c : Call) :
    (s.after (.call i c)).books j = s.books j :=
  Function.update_of_ne h _ _

/-! ### The copy in storage -/

omit [DecidableEq ι] in
/-- A note and a wipe are writes to the shared storage. -/
lemma snd_call_enter (s : Shared ι) (i : ι) (note : String) :
    ((s.books i).call s.storage (.enter note)).2 =
      s.storage.write (·.putKey s.key (StringArray.encode ((s.books i).push note).notes)) := by
  rw [← s.key_books i]
  rfl

omit [DecidableEq ι] in
lemma snd_call_wipe (s : Shared ι) (i : ι) :
    ((s.books i).call s.storage .wipe).2 = s.storage.write (·.dropKey s.key) := by
  rw [Logbook.snd_call, ← s.key_books i]
  rfl

omit [DecidableEq ι] in
/-- Notes and wipes are written when storage accepts writes. -/
lemma writes_call_iff (s : Shared ι) (i : ι) (c : Call) :
    s.Writes (.call i c) ↔ c ≠ .reload ∧ s.storage.refusesWrites = false := by
  refine and_congr_right fun hc => ?_
  cases c with
  | reload => exact absurd rfl hc
  | enter note =>
      rw [snd_call_enter, MemoryStorage.write]
      cases s.storage.refusesWrites <;> simp
  | wipe =>
      rw [snd_call_wipe, MemoryStorage.write]
      cases s.storage.refusesWrites <;> simp

/-- After a write the copy is that of the logbook it was made of. -/
lemma copy?_after_of_writes {s : Shared ι} {i : ι} {c : Call} (h : s.Writes (.call i c)) :
    (s.after (.call i c)).copy? = copyOf c ((s.after (.call i c)).books i) := by
  obtain ⟨hc, haccepts⟩ := (writes_call_iff s i c).1 h
  have hcopy : (s.after (.call i c)).copy?
      = ((s.books i).call s.storage c).2.2.lookup s.key := rfl
  rw [hcopy, books_after_call]
  cases c with
  | reload => exact absurd rfl hc
  | enter note =>
      rw [snd_call_enter, MemoryStorage.write, haccepts]
      simp [copyOf, Logbook.call, Logbook.enter]
  | wipe =>
      rw [snd_call_wipe, MemoryStorage.write, haccepts]
      simp [copyOf]

lemma copy?_after_of_not_writes {s : Shared ι} {e : SharedEvent ι} (h : ¬ s.Writes e) :
    (s.after e).copy? = s.copy? := by
  cases e with
  | refuse refuses => rfl
  | call i c =>
      have hcopy : (s.after (.call i c)).copy?
          = ((s.books i).call s.storage c).2.2.lookup s.key := rfl
      rw [writes_call_iff, not_and, Bool.not_eq_false] at h
      rw [hcopy]
      cases c with
      | reload => rfl
      | enter note =>
          rw [snd_call_enter, MemoryStorage.write, h (by simp)]
          rfl
      | wipe =>
          rw [snd_call_wipe, MemoryStorage.write, h (by simp)]
          rfl

/-- As long as nothing is written the copy stays. -/
lemma copy?_run_of_not_writes {s : Shared ι} {events : List (SharedEvent ι)}
    (h : s.Throughout (fun s e => ¬ s.Writes e) events) : (s.run events).copy? = s.copy? := by
  induction events generalizing s with
  | nil => rfl
  | cons e events ih => exact (ih h.2).trans (copy?_after_of_not_writes h.1)

/-- Either nothing is written in a run, or there is a last write. -/
lemma throughout_or_last_write (s : Shared ι) (events : List (SharedEvent ι)) :
    s.Throughout (fun s e => ¬ s.Writes e) events ∨
      ∃ (before : List (SharedEvent ι)) (i : ι) (c : Call) (behind : List (SharedEvent ι)),
        events = before ++ .call i c :: behind ∧ (s.run before).Writes (.call i c) ∧
        ((s.run before).after (.call i c)).Throughout (fun s e => ¬ s.Writes e) behind := by
  induction events using List.reverseRecOn with
  | nil => exact Or.inl trivial
  | append_singleton events e ih =>
      by_cases he : (s.run events).Writes e
      · cases e with
        | refuse refuses => exact he.elim
        | call i c => exact Or.inr ⟨events, i, c, [], rfl, he, trivial⟩
      · rcases ih with h | ⟨before, i, c, behind, rfl, hw, hbehind⟩
        · exact Or.inl (h.concat he)
        · refine Or.inr ⟨before, i, c, behind ++ [e], by simp, hw, hbehind.concat ?_⟩
          rwa [run_append, run_cons] at he

omit [DecidableEq ι] in
/-- A logbook that is opened while the copy is that of another one is that one. -/
lemma stored_eq {s : Shared ι} {c : Call} {book : Logbook} (hkey : book.key = s.key)
    (hwipe : c = .wipe → book.notes = []) (h : s.copy? = copyOf c book) :
    Logbook.stored s.key s.storage = book := by
  have hfind : Storage.find? s.storage s.key = .ok s.copy? := rfl
  rw [h, copyOf] at hfind
  by_cases hc : c = .wipe
  · rw [if_pos hc] at hfind
    rw [Logbook.stored_of_none hfind, ← book.ofNotes_notes, hkey, hwipe hc]
    rfl
  · rw [if_neg hc] at hfind
    rw [← hkey] at hfind ⊢
    exact Logbook.stored_of_encode book hfind

/-- What a logbook holds is what its copy is read as. -/
lemma stored_run_of_writes {s : Shared ι} {i : ι} {c : Call} (h : s.Writes (.call i c))
    {behind : List (SharedEvent ι)}
    (hb : (s.after (.call i c)).Throughout (fun s e => ¬ s.Writes e) behind) :
    Logbook.stored s.key ((s.after (.call i c)).run behind).storage
      = (s.after (.call i c)).books i := by
  have hcopy := (copy?_run_of_not_writes hb).trans (copy?_after_of_writes h)
  have hkey : ((s.after (.call i c)).run behind).key = s.key := by
    rw [key_run, key_after]
  rw [← hkey]
  refine stored_eq ?_ ?_ hcopy
  · rw [hkey, ← s.key_after (.call i c)]
    exact (s.after (.call i c)).key_books i
  · rintro rfl
    rw [books_after_call, Logbook.notes_call_wipe, h.2]

/-! ### The place of a note -/

/-- A logbook forgets what it holds when it is reloaded or wiped. -/
def Forgets (i : ι) (s : Shared ι) (e : SharedEvent ι) : Prop :=
  e = .call i .reload ∨ e = .call i .wipe ∧ s.Writes e

/-- As long as a logbook does not forget, a note in it moves back with each newer one, up to
the end of the logbook. -/
lemma getElem?_notes_after {s : Shared ι} {i : ι} {e : SharedEvent ι} {note : String} {k : ℕ}
    (h : (s.books i).notes[k]? = some note) (he : ¬ s.Forgets i e)
    (hk : k + [e].countP (·.entersIn i) < 5) :
    ((s.after e).books i).notes[k + [e].countP (·.entersIn i)]? = some note := by
  cases e with
  | refuse refuses => exact h
  | call j c =>
      by_cases hj : i = j
      · subst hj
        rw [books_after_call]
        cases c with
        | reload => exact absurd (Or.inl rfl) he
        | enter newer =>
            have hnotes : ((s.books i).call s.storage (.enter newer)).1.notes
                = (newer :: (s.books i).notes).take 5 := rfl
            have hcount : [SharedEvent.call i (.enter newer)].countP (·.entersIn i) = 1 := by
              simp [SharedEvent.entersIn]
            rw [hcount] at hk ⊢
            rw [hnotes, List.getElem?_take_of_lt hk, List.getElem?_cons_succ]
            exact h
        | wipe =>
            have hfails : ¬ s.Writes (.call i .wipe) := fun hw => he (Or.inr ⟨rfl, hw⟩)
            rw [Logbook.notes_call_wipe]
            cases hout : ((s.books i).call s.storage .wipe).2.1 with
            | ok u => exact absurd ⟨by simp, hout⟩ hfails
            | error e => exact h
      · have hcount : [SharedEvent.call j c].countP (·.entersIn i) = 0 := by
          cases c <;> simp [SharedEvent.entersIn, Ne.symm hj]
        rw [books_after_call_of_ne s hj, hcount]
        exact h

lemma getElem?_notes_run {s : Shared ι} {i : ι} {events : List (SharedEvent ι)} {note : String}
    {k : ℕ} (h : (s.books i).notes[k]? = some note)
    (hf : s.Throughout (fun s e => ¬ s.Forgets i e) events)
    (hk : k + events.countP (·.entersIn i) < 5) :
    ((s.run events).books i).notes[k + events.countP (·.entersIn i)]? = some note := by
  induction events generalizing s k with
  | nil => exact h
  | cons e events ih =>
      have hcount : (e :: events).countP (·.entersIn i)
          = [e].countP (·.entersIn i) + events.countP (·.entersIn i) := by
        rw [← List.countP_append, List.singleton_append]
      rw [hcount] at hk ⊢
      rw [← Nat.add_assoc] at hk ⊢
      exact ih (getElem?_notes_after h hf.1 (by omega)) hf.2 hk

end Shared

/-- **The copy in storage is that of the last writer.** Take any logbooks that share the
storage under one key, and any reloads, notes and wipes of theirs while storage refuses
writes at times.

* If no write has succeeded the copy is the one to begin with. If the last one was a wipe
  there is none, and if it was a note the copy is the array of all the notes which that
  logbook held after it.
* Until the next write succeeds, a logbook that is opened is the logbook of the last writer.
* A note, stored or not, is in the copy after a later one has been stored by the same
  logbook, unless this has been reloaded or wiped meanwhile or the note is older than five
  others; it stands behind as many notes as are newer. -/
theorem copy_is_of_last_writer {ι : Type} [DecidableEq ι] (s : Shared ι)
    (events : List (SharedEvent ι)) :
    (s.Throughout (fun s e => ¬ s.Writes e) events ∧ (s.run events).copy? = s.copy? ∨
      ∃ (before : List (SharedEvent ι)) (i : ι) (c : Call) (behind : List (SharedEvent ι)),
        events = before ++ .call i c :: behind ∧ (s.run before).Writes (.call i c) ∧
        ((s.run before).after (.call i c)).Throughout (fun s e => ¬ s.Writes e) behind ∧
        (c = .wipe ∧ (s.run events).copy? = none ∨
          (∃ note, c = .enter note) ∧ (s.run events).copy? =
            some (StringArray.encode (((s.run before).after (.call i c)).books i).notes)) ∧
        Logbook.stored s.key (s.run events).storage
          = ((s.run before).after (.call i c)).books i) ∧
    ∀ (i : ι) (note : String) (between : List (SharedEvent ι)) (newer : String),
      ((s.run events).after (.call i (.enter note))).Throughout
        (fun s e => ¬ s.Forgets i e) between →
      between.countP (·.entersIn i) + 1 < 5 →
      (((s.run events).after (.call i (.enter note))).run between).Writes
        (.call i (.enter newer)) →
      ∃ notes,
        ((((s.run events).after (.call i (.enter note))).run between).after
          (.call i (.enter newer))).copy? = some (StringArray.encode notes) ∧
        notes[between.countP (·.entersIn i) + 1]? = some note := by
  refine ⟨?_, fun i note between newer hf hk hw => ?_⟩
  · rcases s.throughout_or_last_write events with h | ⟨before, i, c, behind, rfl, hw, hb⟩
    · exact Or.inl ⟨h, Shared.copy?_run_of_not_writes h⟩
    · refine Or.inr ⟨before, i, c, behind, rfl, hw, hb, ?_, ?_⟩
      · rw [Shared.run_append, Shared.run_cons, Shared.copy?_run_of_not_writes hb,
          Shared.copy?_after_of_writes hw]
        cases c with
        | reload => exact absurd rfl hw.1
        | enter note => exact Or.inr ⟨⟨note, rfl⟩, rfl⟩
        | wipe => exact Or.inl ⟨rfl, rfl⟩
      · rw [Shared.run_append, Shared.run_cons, ← s.key_run before]
        exact Shared.stored_run_of_writes hw hb
  · refine ⟨_, Shared.copy?_after_of_writes hw, ?_⟩
    -- the note stands in front at first, and the last one is newer too
    have hfirst : (((s.run events).after (.call i (.enter note))).books i).notes[0]?
        = some note := by
      rw [Shared.books_after_call]
      rfl
    have hbetween := Shared.getElem?_notes_run hfirst hf (by omega)
    have hcount : [SharedEvent.call i (.enter newer)].countP (·.entersIn i) = 1 := by
      simp [SharedEvent.entersIn]
    have hlast := Shared.getElem?_notes_after hbetween
      (e := .call i (.enter newer)) (by simp [Shared.Forgets]) (by omega)
    rwa [hcount, Nat.zero_add] at hlast

/-- A note that is refused, one of another logbook that is stored, and the next one of the
first logbook, which is stored together with the one that was refused. -/
theorem copy_is_of_last_writer_catches_up :
    let s : Shared Bool :=
      ((Shared.new usualKey).run [.refuse true]).after (.call true (.enter "\"1\" = 1"))
    let between : List (SharedEvent Bool) := [.refuse false, .call false (.enter "2\n = 2")]
    s.Throughout (fun s e => ¬ s.Forgets true e) between ∧
      between.countP (·.entersIn true) + 1 < 5 ∧
      (s.run between).Writes (.call true (.enter "3 = 3")) ∧
      ∃ notes : List String,
        ((s.run between).after (.call true (.enter "3 = 3"))).copy?
          = some (StringArray.encode notes) ∧
        notes[1]? = some "\"1\" = 1" := by
  intro s between
  have hf : s.Throughout (fun s e => ¬ s.Forgets true e) between := by
    simp [between, Shared.Throughout, Shared.Forgets]
  have hw : (s.run between).Writes (.call true (.enter "3 = 3")) :=
    (Shared.writes_call_iff _ _ _).2 ⟨by simp, rfl⟩
  exact ⟨hf, by decide, hw,
    (copy_is_of_last_writer (Shared.new usualKey) [.refuse true]).2 true _ _ _ hf (by decide) hw⟩

end DeskCalculator
