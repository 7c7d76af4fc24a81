import DeskCalculator.CommandLine.Request
import DeskCalculator.Desk.Console
import DeskCalculator.Settings.Basic
import DeskCalculator.Storage.Directory
import DeskCalculator.Storage.Memory

/-!
A run of the program.

* `Report`: what a run prints and the code it ends with.
* `Command.carryOut`: what a command does with a storage.
* `runCommand`: what a run with options does, by where it keeps the history
  (`runCommand_of_ephemeral`, `runCommand_of_directory`, `runCommand_of_noDirectory`).
* `runProgram`: what the program does with its arguments, its input and a disk.
-/

namespace DeskCalculator

/-! ### Reports -/

/-- The code a run ends with, what it prints on its output, and its messages, which are kept
apart from that. -/
structure Report where
  exit : Nat
  output : String
  messages : String
deriving DecidableEq

namespace Report

/-- A run that succeeds. -/
def success (output : String) : Report := ⟨0, output, ""⟩

/-- A text with its lines indented. -/
def indent (text : String) : String :=
  .ofList (margin ++ text.toList.flatMap fun c => if c = '\n' then c :: margin else [c])
where
  margin : List Char := List.replicate 4 ' '

/-- A run that fails, with the cause below what has failed. -/
def failure (output what cause : String) : Report :=
  ⟨1, output, "Error: " ++ what ++ "\n\nCaused by:\n" ++ indent cause ++ "\n"⟩

/-- A run that finds no directory to keep the history in. -/
def noDataDirectory : Report := ⟨1, "", "Error: no data directory available; pass --data-dir\n"⟩

/-- A run with arguments that make no sense. -/
def misuse (m : Misuse) : Report :=
  ⟨2, "", "error: " ++ m.message ++ "\n\nFor more information, try '--help'.\n"⟩

end Report

/-! ### Commands -/

variable {σ : Type} [Storage σ]

/-- Calculates the value of an expression and enters the note of it. -/
def calculateCommand (storage : σ) (key expression : String) : Report × σ :=
  match noteOnce (.stored key storage) storage expression with
  | .error _ => (⟨1, "Error\n", ""⟩, storage)
  | .ok n =>
    let messages := (n.message.map fun m => "Warning: " ++ m.text ++ "\n").getD ""
    (⟨0, n.result ++ "\n", messages⟩, n.storage)

/-- Shows the history. -/
def historyCommand (storage : σ) (key : String) : Report :=
  .success (panelText (Logbook.stored key storage).notes)

/-- Wipes the history. -/
def wipeCommand (storage : σ) (key : String) : Report × σ :=
  match (Logbook.stored key storage).wipe storage with
  | (_, .ok (), storage) => (.success "History cleared!\n", storage)
  | (_, .error e, storage) => (.failure "" "Failed to clear history" e.message, storage)

/-- Converses. -/
def converseCommand (storage : σ) (key : String) (clipboard : Clipboard) (input : ByteArray) :
    Report × σ :=
  let c := (Desk.start key storage clipboard).converse input
  let report :=
    if c.readable then Report.success c.shown
    else .failure c.shown "Failed to read input" Trouble.notText.text
  (report, c.desk.storage)

/-- What a command does with a storage. -/
def Command.carryOut (command : Command) (storage : σ) (key : String) (clipboard : Clipboard)
    (input : ByteArray) : Report × σ :=
  match command with
  | .calculate expression => calculateCommand storage key expression
  | .showHistory => (historyCommand storage key, storage)
  | .wipeHistory => wipeCommand storage key
  | .converse => converseCommand storage key clipboard input

/-! ### The program -/

/-- The version of the program. -/
def version : String := "zcalc 0.4.0\n"

/-- How the program is used. -/
def usage : String :=
  "A keyboard-driven calculator with a persistent history\n\n" ++
  "Usage: zcalc [--config FILE] [--data-dir DIRECTORY] [--ephemeral] [COMMAND]\n\n" ++
  "Commands:\n" ++
  "  eval EXPRESSION  Evaluate an expression and record it in the history\n" ++
  "  history          Print the calculation history\n" ++
  "  clear-history    Delete the calculation history\n"

/-- The file with the settings of a run. -/
def Options.settingsPath (options : Options) (around : Surroundings) : String :=
  options.settingsFile.getD around.settingsFile

/-- The directory in which a run keeps the history, if there is one. -/
def Options.historyDirectory? (options : Options) (around : Surroundings) (settings : Settings) :
    Option String :=
  options.dataDirectory <|> settings.historyDirectory? around

/-- Does what a command asks for, with the history in memory or in a directory. -/
def runCommand (options : Options) (command : Command) (input : ByteArray) (around : Surroundings)
    (disk : Disk) : Report × Disk :=
  match Settings.ofFile disk (options.settingsPath around) with
  | .error e => (.failure "" "Failed to load config" e.message, disk)
  | .ok settings =>
    if options.ephemeral then
      ((command.carryOut MemoryStorage.empty settings.historyKey around.clipboard input).1, disk)
    else
      match options.historyDirectory? around settings with
      | none => (.noDataDirectory, disk)
      | some directory =>
        let storage : DirectoryStorage := ⟨directory, disk⟩
        let (report, storage) :=
          command.carryOut storage settings.historyKey around.clipboard input
        (report, storage.disk)

section

variable {options : Options} {around : Surroundings} {disk : Disk} {settings : Settings}

/-- A run that is to keep nothing has its history in memory. -/
theorem runCommand_of_ephemeral
    (hsettings : Settings.ofFile disk (options.settingsPath around) = .ok settings)
    (hkept : options.ephemeral = true) (command : Command) (input : ByteArray) :
    runCommand options command input around disk =
      ((command.carryOut MemoryStorage.empty settings.historyKey around.clipboard input).1,
        disk) := by
  simp only [runCommand, hsettings, hkept, if_true]

/-- A run that is to keep nothing leaves the disk as it is, whatever its settings are. -/
theorem snd_runCommand_of_ephemeral (hkept : options.ephemeral = true) (command : Command)
    (input : ByteArray) (around : Surroundings) (disk : Disk) :
    (runCommand options command input around disk).2 = disk := by
  cases hsettings : Settings.ofFile disk (options.settingsPath around) with
  | error e => rw [runCommand, hsettings]
  | ok settings => rw [runCommand_of_ephemeral hsettings hkept]

/-- A run that is to keep the history has it in the directory it finds. -/
theorem runCommand_of_directory
    (hsettings : Settings.ofFile disk (options.settingsPath around) = .ok settings)
    (hkept : options.ephemeral = false) {directory : String}
    (hdirectory : options.historyDirectory? around settings = some directory) (command : Command)
    (input : ByteArray) :
    runCommand options command input around disk =
      let result := command.carryOut (⟨directory, disk⟩ : DirectoryStorage) settings.historyKey
        around.clipboard input
      (result.1, result.2.disk) := by
  simp only [runCommand, hsettings, hkept, hdirectory, Bool.false_eq_true, if_false]

/-- A run that is to keep the history and finds no directory says so and does nothing else. -/
theorem runCommand_of_noDirectory
    (hsettings : Settings.ofFile disk (options.settingsPath around) = .ok settings)
    (hkept : options.ephemeral = false)
    (hdirectory : options.historyDirectory? around settings = none) (command : Command)
    (input : ByteArray) :
    runCommand options command input around disk = (.noDataDirectory, disk) := by
  simp only [runCommand, hsettings, hkept, hdirectory, Bool.false_eq_true, if_false]

end

/-- What the program does. -/
def runProgram (args : List String) (input : ByteArray) (around : Surroundings) (disk : Disk) :
    Report × Disk :=
  match Request.ofArguments args with
  | .error m => (.misuse m, disk)
  | .ok .showVersion => (.success version, disk)
  | .ok .showHelp => (.success usage, disk)
  | .ok (.run options command) => runCommand options command input around disk

end DeskCalculator
