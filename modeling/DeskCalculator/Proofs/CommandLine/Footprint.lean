import DeskCalculator.CommandLine.Run
import DeskCalculator.Proofs.Desk.KeyStream
import DeskCalculator.Proofs.Desk.Once
import DeskCalculator.Proofs.Logbook.Calls
import DeskCalculator.Proofs.Storage.Touches

/-!
What a run touches.

All that a run changes on a disk is done by writes under the key of the history, one after the
other, and each of them may fail at any step.

* `Unreliable`: storage seen as a directory, whose steps may fail at any time. A directory is such
  (`unreliable_directory`).
* `AfterWrites`: what storage may be after writes under a key. So it is for a calculator after a key
  (`WritesUnder.press`), after keys (`WritesUnder.pressAll`) and after lines
  (`WritesUnder.converseFrom`).
* `Command.KeepsTo`: what a command may do to a directory. It does no more than that, whatever
  fails (`Unreliable.keepsTo`).
* `runs_keep_to_the_history`: the result.
-/

namespace DeskCalculator

open DirectoryStorage

/-! ### Storage that may fail -/

/-- Storage seen as a directory, whose steps may fail at any time and for any reason. A text that is
put under a key leaves some stage of the write, and one that is removed is gone or still there;
nothing is said of what either of them answers, nor of what is found. -/
structure Unreliable (σ : Type) [Storage σ] (view : σ → DirectoryStorage) : Prop where
  insert : ∀ s key text, view (Storage.insert s key text).2 ∈ (view s).stages key text
  erase : ∀ s key, view (Storage.erase s key).2 = view s ∨
    view (Storage.erase s key).2 = ((view s).dropKey key).2

lemma unreliable_directory : Unreliable DirectoryStorage id :=
  ⟨fun s key text => s.snd_putKey_mem_stages key text, fun _ _ => Or.inr rfl⟩

variable {σ : Type} [Storage σ] {view : σ → DirectoryStorage} {s s' : σ} {key : String}

/-- What storage may be after writes under a key. -/
inductive AfterWrites (key : String) (s : σ) : σ → Prop
  | refl : AfterWrites key s s
  | insert {s' : σ} (h : AfterWrites key s s') (text : String) :
      AfterWrites key s (Storage.insert s' key text).2
  | erase {s' : σ} (h : AfterWrites key s s') : AfterWrites key s (Storage.erase s' key).2

namespace Unreliable

/-- Putting a text under a key touches what a write touches, however far it comes. -/
lemma touches_insert (hu : Unreliable σ view) (hslash : '/' ∉ key.toList) (hpoint : key ≠ ".")
    (s : σ) (text : String) : (view s).Touches (view (Storage.insert s key text).2) key :=
  .of_mem_stages hslash (Or.inl hpoint) (hu.insert s key text)

lemma removesOnly_erase (hu : Unreliable σ view) (hslash : '/' ∉ key.toList) (s : σ) :
    (view s).RemovesOnly (view (Storage.erase s key).2) key := by
  rcases hu.erase s key with h | h
  · rw [h]
    exact .refl _ key
  · rw [h]
    exact .dropKey hslash

/-- Writes touch what one of them does. -/
lemma touches (hu : Unreliable σ view) (hslash : '/' ∉ key.toList) (hpoint : key ≠ ".")
    (h : AfterWrites key s s') : (view s).Touches (view s') key := by
  induction h with
  | refl => exact .refl _ key
  | insert _ text ih => exact ih.trans (hu.touches_insert hslash hpoint _ text)
  | erase _ ih => exact ih.trans (hu.removesOnly_erase hslash _).touches

end Unreliable

/-! ### Keys and lines -/

/-- A calculator that keeps its history under a key and has written nothing else. -/
structure WritesUnder (key : String) (s : σ) (desk : Desk σ) : Prop where
  key_eq : desk.book.key = key
  storage : AfterWrites key s desk.storage

namespace WritesUnder

variable {desk : Desk σ}

lemma press (h : WritesUnder key s desk) (k : Key) : WritesUnder key s (desk.press k).1 := by
  obtain ⟨rfl, hstorage⟩ := h
  rcases desk.press_cases k with ⟨hbook, hsame⟩ | ⟨note, -, hbook, hsave⟩ | ⟨-, hbook, hwipe⟩
  · exact ⟨congrArg Logbook.key hbook, hsame ▸ hstorage⟩
  · refine ⟨by rw [hbook, Logbook.key_push], ?_⟩
    rw [hsave]
    exact hstorage.insert _
  · have herase : (desk.book.wipe desk.storage).2 = Storage.erase desk.storage desk.book.key :=
      desk.book.snd_call desk.storage .wipe
    refine ⟨(congrArg Logbook.key hbook).trans (desk.book.key_call desk.storage .wipe), ?_⟩
    rw [hwipe, herase]
    exact hstorage.erase

lemma pressAll (h : WritesUnder key s desk) (ks : List Key) :
    WritesUnder key s (desk.pressAll ks).1 := by
  induction ks generalizing desk with
  | nil => exact h
  | cons k ks ih => exact ih (h.press k)

lemma converseFrom (h : WritesUnder key s desk) (lines : List (Option String)) :
    WritesUnder key s (desk.converseFrom lines).desk := by
  induction lines generalizing desk with
  | nil => exact h
  | cons line? lines ih =>
      cases line? with
      | none => exact h
      | some line =>
          rw [Desk.converseFrom]
          split
          · exact h
          · rw [desk.enter_eq]
            exact ih (h.pressAll (keysTyped line))

end WritesUnder

/-! ### Commands -/

/-- A command that writes nothing: it shows the history, or its expression has no value. -/
def Command.WritesNothing : Command → Prop
  | .calculate expression => ∃ r, answer expression = .error r
  | .showHistory => True
  | .wipeHistory => False
  | .converse => False

/-- What a command may do to a directory with the history under a key. A calculation may put a note
there and takes no file away but the temporary one, when that becomes the file of the key; wiping
does nothing but take that file away. -/
def Command.KeepsTo (command : Command) (s s' : DirectoryStorage) (key : String) : Prop :=
  match command with
  | .calculate _ => s.Touches s' key ∧ ∃ text, s.SparesFiles s' key text
  | .showHistory => s' = s
  | .wipeHistory => s.RemovesOnly s' key
  | .converse => s.Touches s' key

/-- The storage after a calculation: a note has been saved if there was one. -/
lemma calculateCommand_cases (s : σ) (key expression : String) :
    (calculateCommand s key expression).2 = s ∨
      ∃ text, (calculateCommand s key expression).2 = (Storage.insert s key text).2 := by
  rw [calculateCommand]
  cases h : answer expression with
  | error r =>
      rw [Desk.noteOnce_of_error _ _ h]
      exact Or.inl rfl
  | ok result =>
      rw [Desk.noteOnce_of_ok _ _ h]
      exact Or.inr ⟨_, rfl⟩

/-- A command that writes nothing leaves the storage alone. -/
lemma Command.WritesNothing.carryOut {command : Command} (h : command.WritesNothing) (s : σ)
    (key : String) (clipboard : Clipboard) (input : ByteArray) :
    (command.carryOut s key clipboard input).2 = s := by
  cases command with
  | calculate expression =>
      obtain ⟨r, hr⟩ := h
      rw [Command.carryOut, calculateCommand, Desk.noteOnce_of_error _ _ hr]
  | showHistory => rfl
  | wipeHistory => exact h.elim
  | converse => exact h.elim

/-- Wiping the history removes the text under the key, or tries to. -/
lemma snd_wipeCommand (s : σ) (key : String) :
    (wipeCommand s key).2 = (Storage.erase s key).2 := by
  have herase : ((Logbook.stored key s).wipe s).2 = Storage.erase s key :=
    (Logbook.stored key s).snd_call s .wipe
  rw [wipeCommand]
  split
  · case _ hwipe =>
      rw [hwipe] at herase
      exact congrArg Prod.snd herase
  · case _ hwipe =>
      rw [hwipe] at herase
      exact congrArg Prod.snd herase

/-- **A command keeps to the history**, whatever fails. -/
theorem Unreliable.keepsTo (hu : Unreliable σ view) (hslash : '/' ∉ key.toList)
    (hpoint : key ≠ ".") (command : Command) (s : σ) (clipboard : Clipboard) (input : ByteArray) :
    command.KeepsTo (view s) (view (command.carryOut s key clipboard input).2) key := by
  cases command with
  | calculate expression =>
      rw [Command.KeepsTo, Command.carryOut]
      rcases calculateCommand_cases s key expression with h | ⟨text, h⟩
      · rw [h]
        exact ⟨.refl _ key, "", fun q contents hq => Or.inl ⟨contents, hq⟩⟩
      · rw [h]
        exact ⟨hu.touches_insert hslash hpoint s text, text,
          .of_mem_stages hslash (Or.inl hpoint) (hu.insert s key text)⟩
  | showHistory => rfl
  | wipeHistory =>
      rw [Command.KeepsTo, Command.carryOut, snd_wipeCommand]
      exact hu.removesOnly_erase hslash s
  | converse =>
      have hstart : WritesUnder key s (Desk.start key s clipboard) := ⟨rfl, .refl⟩
      exact hu.touches hslash hpoint (hstart.converseFrom (inputLines input)).storage

lemma Command.KeepsTo.directory_eq {command : Command} {s s' : DirectoryStorage}
    (h : command.KeepsTo s s' key) : s'.directory = s.directory := by
  cases command with
  | calculate expression => exact h.1.directory_eq
  | showHistory => exact congrArg DirectoryStorage.directory h
  | wipeHistory => exact (RemovesOnly.toSamePlace h).directory_eq
  | converse => exact (Touches.toSamePlace h).directory_eq

/-! ### Runs -/

/-- A run that keeps nothing, or whose command writes nothing, leaves the disk as it is. -/
lemma snd_runCommand_of_writesNothing {options : Options} {command : Command}
    (h : options.ephemeral = true ∨ command.WritesNothing) (input : ByteArray)
    (around : Surroundings) (disk : Disk) :
    (runCommand options command input around disk).2 = disk := by
  cases hkept : options.ephemeral with
  | true => exact snd_runCommand_of_ephemeral hkept command input around disk
  | false =>
      have hidle := h.resolve_left (by simp [hkept])
      cases hsettings : Settings.ofFile disk (options.settingsPath around) with
      | error e => rw [runCommand, hsettings]
      | ok settings =>
          cases hdirectory : options.historyDirectory? around settings with
          | none => rw [runCommand_of_noDirectory hsettings hkept hdirectory]
          | some directory =>
              rw [runCommand_of_directory hsettings hkept hdirectory]
              dsimp only
              rw [hidle.carryOut]

/-- **What a run may touch.** Take any arguments that make sense, any input, any surroundings and
any disk.

* A run that is told to keep nothing, one that shows the history and one whose expression has no
  value leave the disk as it is, and so does one whose settings cannot be read.
* The directory is the one in the options, or else the one in the settings, or else the usual one.
  A run that finds none leaves the disk as it is.
* Otherwise let the key in the settings be the name of a file. The command makes the directory, if
  it is not there, changes the two files of the key in it, and nothing else. Calculating takes no
  file away but the temporary one, and that only in the place of the other; wiping changes nothing
  but whether the other is there.

The same holds of the command with any storage in the directory whose steps may fail at any
time. -/
theorem runs_keep_to_the_history {args : List String} {options : Options} {command : Command}
    (h : Request.ofArguments args = .ok (.run options command)) (input : ByteArray)
    (around : Surroundings) (disk : Disk) :
    let after := (runProgram args input around disk).2
    (options.ephemeral = true ∨ command.WritesNothing → after = disk) ∧
    (command.WritesNothing →
      ∀ (σ : Type) [Storage σ] (storage : σ) (key : String) (clipboard : Clipboard),
        (command.carryOut storage key clipboard input).2 = storage) ∧
    (∀ e, Settings.ofFile disk (options.settingsPath around) = .error e → after = disk) ∧
    ∀ settings, Settings.ofFile disk (options.settingsPath around) = .ok settings →
      let directory? := options.dataDirectory <|> settings.dataDirectory <|> around.dataDirectory?
      (directory? = none → after = disk) ∧
      ∀ directory, directory? = some directory →
        '/' ∉ settings.historyKey.toList → settings.historyKey ≠ "." →
        (options.ephemeral = false →
          command.KeepsTo ⟨directory, disk⟩ ⟨directory, after⟩ settings.historyKey) ∧
        ∀ (σ : Type) [Storage σ] (view : σ → DirectoryStorage), Unreliable σ view →
          ∀ storage, view storage = ⟨directory, disk⟩ → ∀ clipboard : Clipboard,
            command.KeepsTo ⟨directory, disk⟩
              (view (command.carryOut storage settings.historyKey clipboard input).2)
              settings.historyKey := by
  have hafter : (runProgram args input around disk).2
      = (runCommand options command input around disk).2 := by rw [runProgram, h]
  rw [hafter]
  refine ⟨fun hidle => snd_runCommand_of_writesNothing hidle input around disk,
    fun hidle σ _ storage key clipboard => hidle.carryOut storage key clipboard input,
    fun e he => ?_, fun settings hsettings => ⟨fun hnone => ?_,
      fun directory hdirectory hslash hpoint => ⟨fun hkept => ?_, ?_⟩⟩⟩
  · rw [runCommand, he]
  · cases hkept : options.ephemeral with
    | true => exact snd_runCommand_of_ephemeral hkept command input around disk
    | false => rw [runCommand_of_noDirectory hsettings hkept hnone]
  · let start : DirectoryStorage := ⟨directory, disk⟩
    let result := (command.carryOut start settings.historyKey around.clipboard input).2
    have hkeeps : command.KeepsTo start result settings.historyKey :=
      unreliable_directory.keepsTo hslash hpoint command start around.clipboard input
    have hend : (⟨start.directory, result.disk⟩ : DirectoryStorage) = result := by
      rw [← hkeeps.directory_eq]
    rw [runCommand_of_directory hsettings hkept hdirectory]
    exact hend ▸ hkeeps
  · intro σ _ view hu storage hstorage clipboard
    rw [← hstorage]
    exact hu.keepsTo hslash hpoint command storage clipboard input

/-- A sum is calculated, with a note of it in a directory that is made for it, and a quotient that
has no value, with none. -/
theorem runs_keep_to_the_history_of_sum_and_quotient :
    let around : Surroundings := ⟨none, "/", none, none, .absent⟩
    let disk : Disk := ⟨[(["store.txt"], .file "".toUTF8)], []⟩
    let after (expression : String) : Disk :=
      (runProgram ["--data-dir", "store", "eval", expression] .empty around disk).2
    (Command.calculate "1+1").KeepsTo ⟨"store", disk⟩ ⟨"store", after "1+1"⟩ usualKey ∧
      after "1/0" = disk := by
  intro around disk after
  let options : Options := ⟨none, some "store", false⟩
  have hsum : Request.ofArguments ["--data-dir", "store", "eval", "1+1"]
      = .ok (.run options (.calculate "1+1")) := rfl
  have hquotient : Request.ofArguments ["--data-dir", "store", "eval", "1/0"]
      = .ok (.run options (.calculate "1/0")) := rfl
  have hsettings : Settings.ofFile disk (options.settingsPath around) = .ok .usual := by
    decide +kernel
  have hnone : answer "1/0" = .error .zeroDivisor := by decide +kernel
  have hkeeps := ((runs_keep_to_the_history hsum .empty around disk).2.2.2 .usual hsettings).2
    "store" rfl (by decide) (by decide)
  have hidle := (runs_keep_to_the_history hquotient .empty around disk).1
  exact ⟨hkeeps.1 rfl, hidle (Or.inr ⟨_, hnone⟩)⟩

end DeskCalculator
