import DeskCalculator.CommandLine.Run
import DeskCalculator.Proofs.Desk.KeyStream
import DeskCalculator.Proofs.Logbook.Copy
import DeskCalculator.Proofs.Storage.ReadBack

/-!
The history over runs of the program.

Runs share nothing but the disk. Calculations are noted in two ways, by a command that makes
one and by the keys of a conversation, and each run that makes some loads the notes, adds its
own and stores what there is room for. All of them together keep one list.

* `Invocation`, `Invocation.perform`, `diskAfter`, `transcript`: a run, what it does, and what
  runs do one after the other.
* `Key.notesAfter`, `notesAfterKeys`, `Command.notesAfter`, `notesAfterRuns`: the notes of all
  calculations since the history was last wiped, without a cap.
* `Keeps`: a storage that holds the notes there is room for. It does so after a note and after
  a wipe (`Keeps.save`, `Keeps.erase`), after keys (`Minds.press`, `Minds.pressAll`) and after
  a command (`Keeps.carryOut`).
* `Logged`: a disk on which they are kept. It is so after a run (`Logged.perform`) and after
  runs (`Logged.diskAfter`).
* `perform_of_ephemeral`, `transcript_filter`: a run that keeps nothing on the disk changes
  nothing there, nor for the other runs.
* `history_over_runs`: the result.
-/

namespace DeskCalculator

/-! ### Runs -/

/-- A run of the program with arguments that make sense and a text for its input, in a working
directory. -/
structure Invocation where
  args : List String
  options : Options
  command : Command
  accepted : Request.ofArguments args = .ok (.run options command)
  input : String
  around : Surroundings
  working : Place

namespace Invocation

/-- What a run prints, and the disk after it. The working directory is that of the run. -/
def perform (run : Invocation) (disk : Disk) : Report × Disk :=
  let result := runProgram run.args run.input.toUTF8 run.around (disk.seenFrom run.working)
  (result.1, result.2.seenFrom disk.working)

/-- The working directory is no part of what a run leaves behind. -/
lemma working_perform (run : Invocation) (disk : Disk) :
    (run.perform disk).2.working = disk.working := rfl

/-- A run keeps the history in a directory and under a key, as its settings and options say,
and writes succeed there. The directory is given by its path, so runs are to spell it alike: other
spellings of the same place, such as `store` and `./store`, count as other directories here. A path
that is not from the root is that of the directory from the same working directory. -/
structure Records (run : Invocation) (disk : Disk) (directory key : String) : Prop where
  settings : ∃ settings : Settings,
    Settings.ofFile (disk.seenFrom run.working) (run.options.settingsPath run.around)
      = .ok settings ∧
    settings.historyKey = key ∧
    run.options.historyDirectory? run.around settings = some directory
  same : Path.isAbsolute directory = true ∨ run.working = disk.working
  serves : (⟨directory, disk.seenFrom run.working⟩ : DirectoryStorage).Serves key

end Invocation

/-- The disk after some runs. -/
def diskAfter (disk : Disk) (runs : List Invocation) : Disk :=
  runs.foldl (fun disk run => (run.perform disk).2) disk

lemma diskAfter_cons (disk : Disk) (run : Invocation) (runs : List Invocation) :
    diskAfter disk (run :: runs) = diskAfter (run.perform disk).2 runs := rfl

/-- Some runs, and what each of them prints. -/
def transcript (disk : Disk) : List Invocation → List (Invocation × Report)
  | [] => []
  | run :: runs => (run, (run.perform disk).1) :: transcript (run.perform disk).2 runs

/-- All runs that keep the history on the disk keep it in the same directory and under the
same key. -/
def RecordedIn (directory key : String) (disk : Disk) : List Invocation → Prop
  | [] => True
  | run :: runs =>
    (run.options.ephemeral = false → run.Records disk directory key) ∧
      RecordedIn directory key (run.perform disk).2 runs

lemma recordedIn_cons {directory key : String} {disk : Disk} {run : Invocation}
    {runs : List Invocation} :
    RecordedIn directory key disk (run :: runs) ↔
      (run.options.ephemeral = false → run.Records disk directory key) ∧
        RecordedIn directory key (run.perform disk).2 runs := Iff.rfl

/-! ### Notes -/

/-- The notes after a key, without a cap. -/
def Key.notesAfter (k : Key) (expression : String) (notes : List String) : List String :=
  if k = .wipeHistory then [] else (k.note? expression).toList ++ notes

/-- The notes after keys, without a cap, from an entry line. -/
def notesAfterKeys (line : EntryLine) (notes : List String) : List Key → List String
  | [] => notes
  | k :: ks => notesAfterKeys (line.press k) (k.notesAfter line.expression notes) ks

/-- The notes after a command with an input, without a cap. -/
def Command.notesAfter (command : Command) (input : String) (notes : List String) :
    List String :=
  match command with
  | .calculate expression =>
    match answer expression with
    | .ok result => noteOf expression result :: notes
    | .error _ => notes
  | .showHistory => notes
  | .wipeHistory => []
  | .converse => notesAfterKeys .blank notes (typedKeys input)

/-- The notes after runs, without a cap, the latest first: those of the calculations that
succeeded since the history was last wiped, by runs that keep it on the disk. -/
def notesAfterRuns (notes : List String) (runs : List Invocation) : List String :=
  runs.foldl (fun notes run =>
    if run.options.ephemeral then notes else run.command.notesAfter run.input notes) notes

/-! ### Storage -/

namespace DirectoryStorage

/-- A storage in the place of another one holds the notes under a key that there is room for,
and writes under it succeed. -/
structure Keeps (s₀ s : DirectoryStorage) (key : String) (notes : List String) : Prop where
  place : s₀.SamePlace s
  serves : s.Serves key
  stored_eq : Logbook.stored key s = .ofNotes key notes

namespace Keeps

variable {s₀ s : DirectoryStorage} {key : String} {notes : List String}

lemma save (h : s₀.Keeps s key notes) (note : String) :
    ∃ s', (Logbook.ofNotes key (note :: notes)).save s = (.ok (), s') ∧
      s₀.Keeps s' key (note :: notes) := by
  obtain ⟨s', hinsert, hplace, hserves, hfind⟩ :=
    h.serves.insert (StringArray.encode (Logbook.ofNotes key (note :: notes)).notes)
  exact ⟨s', hinsert, h.place.trans hplace, hserves,
    Logbook.stored_of_encode (.ofNotes key (note :: notes)) hfind⟩

lemma erase (h : s₀.Keeps s key notes) :
    ∃ s', Storage.erase s key = (.ok (), s') ∧ s₀.Keeps s' key [] := by
  obtain ⟨s', herase, hplace, hserves, hfind⟩ := h.serves.erase
  exact ⟨s', herase, h.place.trans hplace, hserves, Logbook.stored_of_none hfind⟩

end Keeps

end DirectoryStorage

open DirectoryStorage

/-! ### Keys -/

variable {s : DirectoryStorage} {key : String} {notes : List String}

/-- A calculator whose logbook is that of the notes its storage keeps. -/
structure Minds (s : DirectoryStorage) (desk : Desk DirectoryStorage) (key : String)
    (notes : List String) : Prop where
  book_eq : desk.book = .ofNotes key notes
  keeps : s.Keeps desk.storage key notes

namespace Minds

variable {desk : Desk DirectoryStorage}

lemma press (h : Minds s desk key notes) (k : Key) :
    Minds s (desk.press k).1 key (k.notesAfter desk.line.expression notes) := by
  rw [Key.notesAfter]
  split
  · case _ hwipe =>
      obtain ⟨storage, herase, hkeeps⟩ := h.keeps.erase
      rw [← show desk.book.key = key from congrArg Logbook.key h.book_eq] at herase
      rw [hwipe, desk.press_wipeHistory_of_ok herase]
      exact ⟨congrArg Logbook.empty (congrArg Logbook.key h.book_eq), hkeeps⟩
  · case _ hwipe =>
      cases hnote : k.note? desk.line.expression with
      | none =>
          obtain ⟨hbook, hstorage⟩ := desk.press_of_note?_eq_none hwipe hnote
          exact ⟨hbook.trans h.book_eq, hstorage ▸ h.keeps⟩
      | some note =>
          obtain ⟨hbook, hstorage⟩ := desk.press_of_calculates (Key.note?_eq_some_iff.1 hnote)
          rw [h.book_eq, Logbook.push_ofNotes] at hbook hstorage
          obtain ⟨storage, hsave, hkeeps⟩ := h.keeps.save note
          rw [hsave] at hstorage
          exact ⟨hbook, hstorage ▸ hkeeps⟩

lemma pressAll (h : Minds s desk key notes) (ks : List Key) :
    Minds s (desk.pressAll ks).1 key (notesAfterKeys desk.line notes ks) := by
  induction ks generalizing desk notes with
  | nil => exact h
  | cons k ks ih =>
      rw [notesAfterKeys, ← desk.line_press k]
      exact ih (h.press k)

end Minds

/-! ### Commands -/

/-- What a calculation is reported as. -/
def calculationReport (expression : String) : Report :=
  match answer expression with
  | .ok result => .success (result ++ "\n")
  | .error _ => ⟨1, "Error\n", ""⟩

namespace DirectoryStorage.Keeps

/-- A calculation is reported, and noted if it succeeds. -/
lemma calculateCommand_eq (h : s.Keeps s key notes) (expression input : String) :
    (calculateCommand s key expression).1 = calculationReport expression ∧
      s.Keeps (calculateCommand s key expression).2 key
        ((Command.calculate expression).notesAfter input notes) := by
  rw [calculateCommand, noteOnce, h.stored_eq, calculationReport, Command.notesAfter]
  cases answer expression with
  | error r => exact ⟨rfl, h⟩
  | ok result =>
      obtain ⟨s', hsave, hkeeps⟩ := h.save (noteOf expression result)
      rw [← Logbook.push_ofNotes] at hsave
      simp only [ok_bind, Logbook.enter, hsave]
      exact ⟨rfl, hkeeps⟩

/-- The history is shown as far as there was room for it. -/
lemma historyCommand_eq (h : s.Keeps s key notes) :
    historyCommand s key = .success (panelText (notes.take capacity)) := by
  rw [historyCommand, h.stored_eq]
  rfl

/-- After a command the storage keeps the notes after it. -/
lemma carryOut (h : s.Keeps s key notes) (command : Command) (clipboard : Clipboard)
    (input : String) :
    s.Keeps (command.carryOut s key clipboard input.toUTF8).2 key
      (command.notesAfter input notes) := by
  cases command with
  | calculate expression => exact (h.calculateCommand_eq expression input).2
  | showHistory => exact h
  | wipeHistory =>
      obtain ⟨s', herase, hkeeps⟩ := h.erase
      have hwipe : (Logbook.stored key s).wipe s = (.empty key, .ok (), s') := by
        rw [h.stored_eq, Logbook.wipe, show (Logbook.ofNotes key notes).key = key from rfl, herase]
      rw [Command.carryOut, wipeCommand, hwipe]
      exact hkeeps
  | converse =>
      have hminds : Minds s (Desk.start key s clipboard) key notes := ⟨h.stored_eq, h⟩
      rw [Command.carryOut, converseCommand, Desk.converse_toUTF8]
      exact (hminds.pressAll (typedKeys input)).keeps

end DirectoryStorage.Keeps

/-! ### Disks -/

/-- A disk on which the notes are kept in a directory and under a key. -/
def Logged (directory key : String) (disk : Disk) (notes : List String) : Prop :=
  Logbook.stored key (⟨directory, disk⟩ : DirectoryStorage) = .ofNotes key notes

namespace Invocation

variable {run : Invocation} {disk : Disk} {directory : String}

/-- A run that keeps nothing on the disk changes nothing there. -/
lemma perform_of_ephemeral (h : run.options.ephemeral = true) (disk : Disk) :
    (run.perform disk).2 = disk := by
  rw [perform, runProgram, run.accepted]
  dsimp only
  rw [snd_runCommand_of_ephemeral h]
  rfl

namespace Records

/-- A run that keeps the history does what its command does. -/
lemma perform_eq (h : run.Records disk directory key) (hkept : run.options.ephemeral = false) :
    let result := run.command.carryOut (⟨directory, disk.seenFrom run.working⟩ : DirectoryStorage)
      key run.around.clipboard run.input.toUTF8
    run.perform disk = (result.1, result.2.disk.seenFrom disk.working) := by
  obtain ⟨settings, hsettings, rfl, hdirectory⟩ := h.settings
  rw [perform, runProgram, run.accepted]
  dsimp only
  rw [runCommand_of_directory hsettings hkept hdirectory]

lemma keeps (h : run.Records disk directory key) (hkey : '/' ∉ key.toList)
    (hlogged : Logged directory key disk notes) :
    Keeps ⟨directory, disk.seenFrom run.working⟩ ⟨directory, disk.seenFrom run.working⟩ key
      notes := by
  refine ⟨.refl _, h.serves, ?_⟩
  rw [← hlogged]
  exact Logbook.stored_congr (find?_seenFrom directory disk hkey h.same)

/-- After a run the notes after it are kept, as they are seen from its working directory. -/
lemma keeps_perform (h : run.Records disk directory key) (hkey : '/' ∉ key.toList)
    (hkept : run.options.ephemeral = false) (hlogged : Logged directory key disk notes) :
    ∃ after : Disk, (run.perform disk).2 = after.seenFrom disk.working ∧
      after.working = run.working ∧
      Keeps ⟨directory, disk.seenFrom run.working⟩ ⟨directory, after⟩ key
        (run.command.notesAfter run.input notes) := by
  have hkeeps := (h.keeps hkey hlogged).carryOut run.command run.around.clipboard run.input
  rw [h.perform_eq hkept]
  generalize run.command.carryOut (⟨directory, disk.seenFrom run.working⟩ : DirectoryStorage) key
    run.around.clipboard run.input.toUTF8 = result at hkeeps
  obtain ⟨report, directory', after⟩ := result
  obtain rfl : directory' = directory := hkeeps.place.directory_eq
  exact ⟨after, rfl, hkeeps.place.working_eq, hkeeps⟩

lemma logged_perform (h : run.Records disk directory key) (hkey : '/' ∉ key.toList)
    (hkept : run.options.ephemeral = false) (hlogged : Logged directory key disk notes) :
    Logged directory key (run.perform disk).2 (run.command.notesAfter run.input notes) := by
  obtain ⟨after, hdisk, hworking, hkeeps⟩ := h.keeps_perform hkey hkept hlogged
  rw [hdisk, Logged, ← hkeeps.stored_eq]
  refine Logbook.stored_congr (find?_seenFrom directory after hkey ?_)
  exact h.same.imp_right fun hsame => (hworking.trans hsame).symm

/-- Writes from the same working directory go on to succeed after a run. -/
lemma serves_perform (h : run.Records disk directory key) (hkey : '/' ∉ key.toList)
    (hkept : run.options.ephemeral = false) (hlogged : Logged directory key disk notes) :
    (⟨directory, (run.perform disk).2.seenFrom run.working⟩ : DirectoryStorage).Serves key := by
  obtain ⟨after, hdisk, hworking, hkeeps⟩ := h.keeps_perform hkey hkept hlogged
  rw [hdisk, ← hworking]
  exact hkeeps.serves

end Records

end Invocation

/-! ### Runs one after the other -/

/-- A disk on which the notes are kept is one with the notes after runs, and the runs behind
them keep the history in the same place. -/
lemma Logged.diskAfter {directory : String} {disk : Disk} (hkey : '/' ∉ key.toList)
    {before behind : List Invocation} (h : RecordedIn directory key disk (before ++ behind))
    (hlogged : Logged directory key disk notes) :
    Logged directory key (diskAfter disk before) (notesAfterRuns notes before) ∧
      RecordedIn directory key (DeskCalculator.diskAfter disk before) behind := by
  induction before generalizing disk notes with
  | nil => exact ⟨hlogged, h⟩
  | cons run before ih =>
      obtain ⟨hrun, hrest⟩ := recordedIn_cons.1 h
      rw [notesAfterRuns, List.foldl_cons, ← notesAfterRuns, diskAfter_cons]
      refine ih hrest ?_
      split
      · case _ hephemeral =>
          rw [run.perform_of_ephemeral hephemeral]
          exact hlogged
      · case _ hkept =>
          rw [Bool.not_eq_true] at hkept
          exact (hrun hkept).logged_perform hkey hkept hlogged

/-- Without the runs that keep nothing on the disk the others leave the same disk and print the
same. -/
lemma diskAfter_filter (disk : Disk) (runs : List Invocation) :
    diskAfter disk (runs.filter fun run => !run.options.ephemeral) = diskAfter disk runs := by
  induction runs generalizing disk with
  | nil => rfl
  | cons run runs ih =>
      cases h : run.options.ephemeral with
      | true =>
          rw [List.filter_cons_of_neg (by simp [h]), ih, diskAfter_cons,
            run.perform_of_ephemeral h]
      | false =>
          rw [List.filter_cons_of_pos (by simp [h]), diskAfter_cons, diskAfter_cons, ih]

lemma transcript_filter (disk : Disk) (runs : List Invocation) :
    transcript disk (runs.filter fun run => !run.options.ephemeral)
      = (transcript disk runs).filter fun x => !x.1.options.ephemeral := by
  induction runs generalizing disk with
  | nil => rfl
  | cons run runs ih =>
      cases h : run.options.ephemeral with
      | true =>
          rw [List.filter_cons_of_neg (by simp [h]), ih, transcript,
            List.filter_cons_of_neg (by simp [h]), run.perform_of_ephemeral h]
      | false =>
          rw [List.filter_cons_of_pos (by simp [h]), transcript, transcript,
            List.filter_cons_of_pos (by simp [h]), ih]

/-- **The history over runs of the program.** Take any runs, each with its command, its input,
its settings and its working directory, on a disk where nothing is stored under a key at first,
and let those that keep the history on the disk keep it in the same directory, spelled alike, and
under that key, where writes succeed.

* Each of these runs that makes a calculation prints the result and ends with 0, or prints that
  there is none and ends with 1, and each that shows the history shows the five latest, or all
  if there are fewer, of the calculations that succeeded since the history was last wiped,
  whether by commands or by keys, the latest first.
* The other runs, which keep nothing, leave the disk as it is; and without them the runs that
  remain leave the same disk and print the same. -/
theorem history_over_runs {directory key : String} {disk : Disk} {runs : List Invocation}
    (hkey : '/' ∉ key.toList) (hrecorded : RecordedIn directory key disk runs)
    (habsent : Storage.find? (⟨directory, disk⟩ : DirectoryStorage) key = .ok none) :
    (∀ before run behind, runs = before ++ run :: behind → run.options.ephemeral = false →
      let report := (run.perform (diskAfter disk before)).1
      (∀ expression, run.command = .calculate expression →
        report = match answer expression with
          | .ok result => .success (result ++ "\n")
          | .error _ => ⟨1, "Error\n", ""⟩) ∧
      (run.command = .showHistory →
        report = .success (panelText ((notesAfterRuns [] before).take 5)))) ∧
    (∀ run ∈ runs, run.options.ephemeral = true → ∀ disk, (run.perform disk).2 = disk) ∧
    diskAfter disk (runs.filter fun run => !run.options.ephemeral) = diskAfter disk runs ∧
    transcript disk (runs.filter fun run => !run.options.ephemeral)
      = (transcript disk runs).filter fun x => !x.1.options.ephemeral := by
  refine ⟨fun before run behind hruns hkept => ?_, fun run _ => run.perform_of_ephemeral,
    diskAfter_filter disk runs, transcript_filter disk runs⟩
  subst hruns
  have hnone : Logged directory key disk [] := Logbook.stored_of_none habsent
  obtain ⟨hlogged, hbehind⟩ := hnone.diskAfter hkey hrecorded
  have hrecords := hbehind.1 hkept
  have hkeeps := hrecords.keeps hkey hlogged
  rw [hrecords.perform_eq hkept]
  refine ⟨fun expression hcommand => ?_, fun hcommand => ?_⟩
  · rw [hcommand]
    exact (hkeeps.calculateCommand_eq expression run.input).1
  · rw [hcommand]
    exact hkeeps.historyCommand_eq

/-- A difference is calculated by a command on a disk with nothing on it, a sum by a command that
keeps nothing, and a square in a conversation; the history has the difference and the square. -/
theorem history_over_runs_of_difference_and_square :
    let around : Surroundings := ⟨none, "/", none, none, .absent⟩
    let options : Options := ⟨none, some "store", false⟩
    let difference : Invocation :=
      ⟨["--data-dir", "store", "eval", "2-2"], options, .calculate "2-2", rfl, "", around, []⟩
    let other : Invocation :=
      ⟨["--ephemeral", "eval", "1+1"], ⟨none, none, true⟩, .calculate "1+1", rfl, "", around, []⟩
    let square : Invocation :=
      ⟨["--data-dir", "store"], options, .converse, rfl, "0 sq", around, []⟩
    let shown : Invocation :=
      ⟨["--data-dir", "store", "history"], options, .showHistory, rfl, "", around, []⟩
    let disk : Disk := ⟨[], []⟩
    '/' ∉ usualKey.toList ∧ RecordedIn "store" usualKey disk [difference, other, square, shown] ∧
      Storage.find? (⟨"store", disk⟩ : DirectoryStorage) usualKey = .ok none ∧
      (shown.perform (diskAfter disk [difference, other, square])).1
        = .success (panelText ["(0)² = 0", "2-2 = 0"]) := by
  intro around options difference other square shown disk
  have hkey : '/' ∉ usualKey.toList := by decide
  have hlike : Like ⟨"store", ⟨[], []⟩⟩ {usualKey} .empty := by
    refine ⟨?_, rfl, Or.inr ⟨fun name p h => absurd rfl h, by decide, by decide, by decide, rfl,
      fun key _ => rfl⟩⟩
    intro key hkey
    rw [Set.mem_singleton_iff.1 hkey]
    decide
  have habsent : Storage.find? (⟨"store", disk⟩ : DirectoryStorage) usualKey = .ok none :=
    hlike.find?_eq rfl
  -- writes succeed at the beginning, and then after each run that keeps the history
  have hdifference : difference.Records disk "store" usualKey :=
    ⟨⟨.usual, by decide +kernel, rfl, rfl⟩, Or.inr rfl, hlike.serves rfl⟩
  have hlogged : Logged "store" usualKey disk [] := Logbook.stored_of_none habsent
  have hlogged' := hdifference.logged_perform hkey rfl hlogged
  have hworking : [] = (difference.perform disk).2.working := (difference.working_perform disk).symm
  have hworking' : [] = (square.perform (difference.perform disk).2).2.working :=
    hworking.trans (square.working_perform _).symm
  have hsquare : square.Records (difference.perform disk).2 "store" usualKey :=
    ⟨⟨.usual, by decide +kernel, rfl, rfl⟩, Or.inr hworking,
      hdifference.serves_perform hkey rfl hlogged⟩
  have hshown : shown.Records (square.perform (difference.perform disk).2).2 "store" usualKey :=
    ⟨⟨.usual, by decide +kernel, rfl, rfl⟩, Or.inr hworking',
      hsquare.serves_perform hkey rfl hlogged'⟩
  have hother : (other.perform (difference.perform disk).2).2 = (difference.perform disk).2 :=
    other.perform_of_ephemeral rfl _
  have hrecorded : RecordedIn "store" usualKey disk [difference, other, square, shown] := by
    rw [recordedIn_cons, recordedIn_cons, hother, recordedIn_cons, recordedIn_cons]
    exact ⟨fun _ => hdifference, nofun, fun _ => hsquare, fun _ => hshown, trivial⟩
  have hnotes :
      (notesAfterRuns [] [difference, other, square]).take 5 = ["(0)² = 0", "2-2 = 0"] := by
    decide +kernel
  have hall := history_over_runs hkey hrecorded habsent
  refine ⟨hkey, hrecorded, habsent, ?_⟩
  rw [(hall.1 [difference, other, square] shown [] rfl rfl).2 rfl, hnotes]

end DeskCalculator
