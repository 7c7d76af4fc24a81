import DeskCalculator.Proofs.Desk.Independence

/-!
A calculation that fails leaves no trace but on the display.

A run is compared with what is left of it when the keys that come to nothing are left out. The
two calculators then show different things and may differ in whether they are typing, and no
key ever reads either of these but the one to copy a result.

* `Key.isVain`, `Desk.withoutVain`: the keys that come to nothing, and a run without them.
* `Desk.said`: the messages of a run, each with the key that it answers.
* `Desk.SameButShown`: calculators that differ in what they show and in their phase alone. A
  key that comes to nothing leads to such a one (`Desk.sameButShown_press_of_isVain`), and any
  key from two such to two such (`Desk.SameButShown.press`); a result or a new beginning makes
  them equal (`Desk.SameButShown.press_eq`).
* `Desk.SameButShown.run`: a run, by induction over its events.
* `failures_leave_no_trace`: the result.
-/

namespace DeskCalculator

/-! ### Runs without the keys that come to nothing -/

/-- A key that comes to nothing: the calculation it makes fails, or it asks for the value of a
blank line. -/
def Key.isVain (k : Key) (line : EntryLine) : Bool :=
  match k with
  | .equals => line.isBlank || !(answer line.expression).isOk
  | .transform t => !(t.answer line.expression).isOk
  | _ => false

/-- The key for the value gives an answer or comes to nothing. -/
lemma Key.calculates_or_isVain_equals (line : EntryLine) :
    (∃ note, Key.equals.Calculates line.expression note) ∨ Key.equals.isVain line = true := by
  cases ha : answer line.expression with
  | ok result => exact Or.inl ⟨_, result, ha, rfl⟩
  | error r => exact Or.inr (by rw [isVain, ha]; exact Bool.or_true _)

lemma Key.calculates_or_isVain_transform (t : Transform) (line : EntryLine) :
    (∃ note, (Key.transform t).Calculates line.expression note) ∨
      (Key.transform t).isVain line = true := by
  cases ha : t.answer line.expression with
  | ok x => exact Or.inl ⟨x.2, x.1, ha⟩
  | error r => exact Or.inr (by rw [isVain, ha]; rfl)

/-- A message and another one answer the same key, and unless it is the one to copy a result
they are the same. -/
def SameMessage (m m' : Key × Message) : Prop := m.1 = m'.1 ∧ (m.1 ≠ .copy → m.2 = m'.2)

namespace Desk

variable {σ : Type} [Storage σ]

/-- An event that comes to nothing is such a key. -/
def isVain (desk : Desk σ) : DeskEvent σ → Bool
  | .press k => k.isVain desk.line
  | .find _ => false

/-- A run without the keys that come to nothing when they are reached. -/
def withoutVain (desk : Desk σ) : List (DeskEvent σ) → List (DeskEvent σ)
  | [] => []
  | e :: events =>
    if desk.isVain e then (desk.afterEvent e).withoutVain events
    else e :: (desk.afterEvent e).withoutVain events

/-- The message of an event, with the key that it answers. -/
def said? (desk : Desk σ) : DeskEvent σ → Option (Key × Message)
  | .press k => (desk.press k).2.map (k, ·)
  | .find _ => none

/-- The messages of a run in order. -/
def said (desk : Desk σ) : List (DeskEvent σ) → List (Key × Message)
  | [] => []
  | e :: events => (desk.said? e).toList ++ (desk.afterEvent e).said events

lemma afterEvents_append (desk : Desk σ) (events behind : List (DeskEvent σ)) :
    desk.afterEvents (events ++ behind) = (desk.afterEvents events).afterEvents behind :=
  List.foldl_append

lemma withoutVain_append (desk : Desk σ) (events behind : List (DeskEvent σ)) :
    desk.withoutVain (events ++ behind)
      = desk.withoutVain events ++ (desk.afterEvents events).withoutVain behind := by
  induction events generalizing desk with
  | nil => rfl
  | cons e events ih =>
      rw [List.cons_append, withoutVain, withoutVain, afterEvents_cons, ih]
      split
      · rfl
      · rw [List.cons_append]

/-! ### Calculators that differ in what they show -/

/-- The two calculators are the same but for what they show and whether they are typing. -/
structure SameButShown (desk desk' : Desk σ) : Prop where
  expression : desk.line.expression = desk'.line.expression
  book : desk.book = desk'.book
  storage : desk.storage = desk'.storage
  panelShown : desk.panelShown = desk'.panelShown
  clipboard : desk.clipboard = desk'.clipboard

/-- A key that comes to nothing changes only what is shown, and says nothing. -/
lemma sameButShown_press_of_isVain (desk : Desk σ) {k : Key} (h : k.isVain desk.line = true) :
    (desk.press k).1.SameButShown desk ∧ (desk.press k).2 = none := by
  cases k with
  | equals =>
      cases hblank : desk.line.isBlank with
      | true =>
          have hpress : desk.press .equals = (desk, none) := if_pos hblank
          rw [hpress]
          exact ⟨⟨rfl, rfl, rfl, rfl, rfl⟩, rfl⟩
      | false =>
          rw [Key.isVain, hblank, Bool.false_or] at h
          cases ha : answer desk.line.expression with
          | ok result =>
              rw [ha] at h
              cases h
          | error r =>
              rw [desk.press_equals_of_error hblank ha]
              exact ⟨⟨rfl, rfl, rfl, rfl, rfl⟩, rfl⟩
  | transform t =>
      rw [Key.isVain] at h
      cases ha : t.answer desk.line.expression with
      | ok x =>
          rw [ha] at h
          cases h
      | error r =>
          rw [desk.press_transform_of_error ha]
          exact ⟨⟨rfl, rfl, rfl, rfl, rfl⟩, rfl⟩
  | _ => cases h

namespace SameButShown

variable {desk desk' desk'' : Desk σ}

omit [Storage σ] in
lemma symm (h : desk.SameButShown desk') : desk'.SameButShown desk :=
  ⟨h.expression.symm, h.book.symm, h.storage.symm, h.panelShown.symm, h.clipboard.symm⟩

omit [Storage σ] in
lemma trans (h : desk.SameButShown desk') (h' : desk'.SameButShown desk'') :
    desk.SameButShown desk'' :=
  ⟨h.expression.trans h'.expression, h.book.trans h'.book, h.storage.trans h'.storage,
    h.panelShown.trans h'.panelShown, h.clipboard.trans h'.clipboard⟩

omit [Storage σ] in
/-- Whether a key comes to nothing is the same on both. -/
lemma isVain_eq (h : desk.SameButShown desk') (k : Key) :
    k.isVain desk.line = k.isVain desk'.line := by
  simp only [Key.isVain, EntryLine.isBlank, h.expression]

omit [Storage σ] in
/-- An edit keeps the relation if it makes the same expression of both lines. -/
lemma of_edit (h : desk.SameButShown desk') (change : EntryLine → EntryLine)
    (hchange : (change desk.line).expression = (change desk'.line).expression) :
    (desk.edit change).1.SameButShown (desk'.edit change).1 :=
  ⟨hchange, h.book, h.storage, h.panelShown, h.clipboard⟩

/-- A result makes such calculators equal, as it takes the place of what they show. -/
lemma succeed_eq (h : desk.SameButShown desk') (result note : String) :
    desk.succeed result note = desk'.succeed result note := by
  simp only [succeed, EntryLine.withResult, h.book, h.storage, h.panelShown, h.clipboard]

lemma press_of_calculates (h : desk.SameButShown desk') {k : Key} {note : String}
    (hk : k.Calculates desk.line.expression note) : desk.press k = desk'.press k := by
  cases k with
  | equals =>
      obtain ⟨result, hresult, -⟩ := hk
      rw [desk.press_equals_of_ok hresult, desk'.press_equals_of_ok (h.expression ▸ hresult),
        h.expression, h.succeed_eq]
  | transform t =>
      obtain ⟨result, hresult⟩ := hk
      rw [desk.press_transform_of_ok hresult, desk'.press_transform_of_ok (h.expression ▸ hresult),
        h.succeed_eq]
  | _ => exact hk.elim

lemma press_eq (h : desk.SameButShown desk') {k : Key}
    (hk : k = .reset ∨ ∃ note, k.Calculates desk.line.expression note) :
    (desk.press k).1 = (desk'.press k).1 := by
  rcases hk with rfl | ⟨note, hnote⟩
  · simp only [Desk.press, edit, EntryLine.reset, h.book, h.storage, h.panelShown, h.clipboard]
  · rw [h.press_of_calculates hnote]

/-- A key that makes a calculation makes them equal or comes to nothing on both. -/
lemma press_of_calculation (h : desk.SameButShown desk') {k : Key}
    (hk : (∃ note, k.Calculates desk.line.expression note) ∨ k.isVain desk.line = true) :
    (desk.press k).1.SameButShown (desk'.press k).1 ∧ (desk.press k).2 = (desk'.press k).2 := by
  rcases hk with ⟨note, hnote⟩ | hvain
  · rw [h.press_of_calculates hnote]
    exact ⟨⟨rfl, rfl, rfl, rfl, rfl⟩, rfl⟩
  · obtain ⟨hpress, hnone⟩ := desk.sameButShown_press_of_isVain hvain
    obtain ⟨hpress', hnone'⟩ := desk'.sameButShown_press_of_isVain (h.isVain_eq k ▸ hvain)
    exact ⟨(hpress.trans h).trans hpress'.symm, hnone.trans hnone'.symm⟩

/-- Any key leads from two such calculators to two such, and says the same on both unless it
is the one to copy a result. -/
lemma press (h : desk.SameButShown desk') (k : Key) :
    (desk.press k).1.SameButShown (desk'.press k).1 ∧
      (k ≠ .copy → (desk.press k).2 = (desk'.press k).2) := by
  have hexpression := h.expression
  cases k with
  | equals =>
      have hpress := h.press_of_calculation (Key.calculates_or_isVain_equals _)
      exact ⟨hpress.1, fun _ => hpress.2⟩
  | transform t =>
      have hpress := h.press_of_calculation (Key.calculates_or_isVain_transform t _)
      exact ⟨hpress.1, fun _ => hpress.2⟩
  | numeral m =>
      exact ⟨h.of_edit (·.typeNumeral m) (congrArg (·.push m.char) hexpression), fun _ => rfl⟩
  | paren p =>
      exact ⟨h.of_edit (·.typeParen p) (congrArg (·.push p.char) hexpression), fun _ => rfl⟩
  | operator op =>
      refine ⟨h.of_edit (·.typeOperator op) ?_, fun _ => rfl⟩
      have haccepts : desk.line.accepts op = desk'.line.accepts op := by
        rw [EntryLine.accepts, EntryLine.isBlank, hexpression]
        rfl
      simp only [EntryLine.expression_typeOperator, haccepts, hexpression]
  | takeBack =>
      exact ⟨h.of_edit (·.takeBack) (congrArg dropLastChar hexpression), fun _ => rfl⟩
  | reset => exact ⟨h.of_edit (·.reset) rfl, fun _ => rfl⟩
  | togglePanel =>
      exact ⟨⟨hexpression, h.book, h.storage, congrArg not h.panelShown, h.clipboard⟩,
        fun _ => rfl⟩
  | wipeHistory =>
      simp only [Desk.press, wipeHistory, h.book, h.storage]
      obtain ⟨book, outcome, storage⟩ := desk'.book.wipe desk'.storage
      cases outcome <;> exact ⟨⟨hexpression, rfl, rfl, h.panelShown, h.clipboard⟩, fun _ => rfl⟩
  | copy =>
      exact ⟨⟨hexpression, h.book, h.storage, h.panelShown, congrArg Clipboard.next h.clipboard⟩,
        fun hk => absurd rfl hk⟩

lemma afterEvent (h : desk.SameButShown desk') (e : DeskEvent σ) :
    (desk.afterEvent e).SameButShown (desk'.afterEvent e) ∧
      List.Forall₂ SameMessage (desk.said? e).toList (desk'.said? e).toList := by
  cases e with
  | find storage => exact ⟨⟨h.expression, h.book, rfl, h.panelShown, h.clipboard⟩, .nil⟩
  | press k =>
      obtain ⟨hpress, hmessage⟩ := h.press k
      refine ⟨hpress, ?_⟩
      by_cases hk : k = .copy
      · subst hk
        exact .cons ⟨rfl, fun hk => absurd rfl hk⟩ .nil
      · rw [said?, said?, hmessage hk]
        cases (desk'.press k).2 with
        | none => exact .nil
        | some m => exact .cons ⟨rfl, fun _ => rfl⟩ .nil

/-- A run leads from two such calculators to two such, when the keys that come to nothing on
the first are left out on the second. -/
lemma run (h : desk.SameButShown desk') (events : List (DeskEvent σ)) :
    (desk.afterEvents events).SameButShown (desk'.afterEvents (desk.withoutVain events)) ∧
      List.Forall₂ SameMessage (desk.said events) (desk'.said (desk.withoutVain events)) := by
  induction events generalizing desk desk' with
  | nil => exact ⟨h, .nil⟩
  | cons e events ih =>
      rw [withoutVain, afterEvents_cons, said]
      split
      case isTrue hvain =>
        cases e with
        | find storage => cases hvain
        | press k =>
            obtain ⟨hpress, hnone⟩ := desk.sameButShown_press_of_isVain hvain
            rw [said?, hnone]
            exact ih (hpress.trans h)
      case isFalse hvain =>
        obtain ⟨hafter, hsaid⟩ := h.afterEvent e
        obtain ⟨hrun, hrest⟩ := ih hafter
        exact ⟨hrun, List.rel_append hsaid hrest⟩

end SameButShown

end Desk

/-- **A calculation that fails leaves no trace but on the display.** Take any calculator and any
run, in which keys are pressed and the storage may come to be in another state at any moment,
and leave out the keys that come to nothing when they are reached: those whose calculation
fails, and the one for the value of a blank line.

* At every moment, what is left of the run so far leads to a calculator with the same
  expression, logbook, storage and panel.
* The messages are the same, but for those of the key to copy a result.
* What is shown and the phase are the same again after the next calculation that succeeds, and
  after a new beginning. -/
theorem failures_leave_no_trace {σ : Type} [Storage σ] (desk : Desk σ)
    (events behind : List (DeskEvent σ)) :
    let kept := desk.withoutVain events
    desk.withoutVain (events ++ behind)
      = kept ++ (desk.afterEvents events).withoutVain behind ∧
    (desk.afterEvents events).SameButShown (desk.afterEvents kept) ∧
    List.Forall₂ SameMessage (desk.said events) (desk.said kept) ∧
    ∀ k : Key,
      (k = .reset ∨ ∃ note, k.Calculates (desk.afterEvents events).line.expression note) →
      desk.afterEvents (events ++ [.press k]) = desk.afterEvents (kept ++ [.press k]) := by
  intro kept
  have hself : desk.SameButShown desk := ⟨rfl, rfl, rfl, rfl, rfl⟩
  obtain ⟨hrun, hsaid⟩ := hself.run events
  refine ⟨desk.withoutVain_append events behind, hrun, hsaid, fun k hk => ?_⟩
  rw [Desk.afterEvents_append, Desk.afterEvents_append]
  exact hrun.press_eq hk

/-- A division by zero is left out; a copy asked for behind it fails either way, for a different
reason. -/
theorem failures_leave_no_trace_of_zero_divisor :
    let desk := Desk.start usualKey MemoryStorage.empty
    let events := [.press (.numeral ⟨'5', rfl⟩), .press (.operator .divide),
      .press (.numeral ⟨'0', rfl⟩), .press .equals, .press .copy]
    let kept := desk.withoutVain events
    pressedKeys kept = [.numeral ⟨'5', rfl⟩, .operator .divide, .numeral ⟨'0', rfl⟩, .copy] ∧
      (desk.afterEvents events).line.shown = "Error" ∧
      (desk.afterEvents kept).line.shown = "0" ∧
      (desk.said events).map (·.2.text) = ["Nothing to copy: the last evaluation failed"] ∧
      (desk.said kept).map (·.2.text) = ["Failed to access clipboard"] ∧
      (desk.afterEvents events).SameButShown (desk.afterEvents kept) ∧
      desk.afterEvents (events ++ [.press .reset])
        = desk.afterEvents (kept ++ [.press .reset]) := by
  intro desk events kept
  obtain ⟨-, hsame, -, hreset⟩ := failures_leave_no_trace desk events []
  exact ⟨by decide +kernel, by decide +kernel, by decide +kernel, by decide +kernel,
    by decide +kernel, hsame, hreset .reset (Or.inl rfl)⟩

end DeskCalculator
