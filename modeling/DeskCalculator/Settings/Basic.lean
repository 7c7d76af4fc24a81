import DeskCalculator.Desk.Display
import DeskCalculator.Disk.Basic
import DeskCalculator.Logbook
import DeskCalculator.Settings.Assignment

/-!
Settings, and where files are kept.

* `Settings`: where the logbook is kept and under what key, and what is logged.
* `Settings.ofText?`: settings from the text of a file. Each may be given once, and
  nothing else may be.
* `Surroundings`: the home directory, the directories that may be set in its place, and the
  clipboard.
* `Settings.ofFile`: settings from a file; where there is none, the usual ones.
* `Settings.historyDirectory?`: where the logbook is kept, if there is a place for it.
-/

namespace DeskCalculator

/-! ### Settings -/

/-- What can be set. -/
structure Settings where
  dataDirectory : Option String
  historyKey : String
  logLevel : String
deriving DecidableEq

namespace Settings

/-- What is set unless a file says otherwise. -/
def usual : Settings := ⟨none, usualKey, "warn"⟩

/-- The names of what can be set. -/
def names : List String := ["data_dir", "history_key", "log_level"]

/-- The string assigned to a name. -/
def assigned? (as : List Assignment) (name : String) : Option String :=
  (as.find? (·.name == name)).map (·.text)

/-- The settings that assignments make. -/
def ofAssignments (as : List Assignment) : Settings :=
  { dataDirectory := assigned? as "data_dir"
    historyKey := (assigned? as "history_key").getD usual.historyKey
    logLevel := (assigned? as "log_level").getD usual.logLevel }

/-- Assignments make settings if all their names are names of settings and differ. -/
def isProper (as : List Assignment) : Bool :=
  as.all (names.contains ·.name) && decide (as.map (·.name)).Nodup

/-- The settings in the text of a file. -/
def ofText? (text : String) : Option Settings := do
  let as ← assignments? text
  if isProper as then some (ofAssignments as) else none

end Settings

/-! ### Places -/

/-- What a program finds around it: the home directory as it is set and as the account has
it, either of which may be missing, the directories for settings and data as they are set, and
the clipboard. -/
structure Surroundings where
  home : Option String
  accountHome : Option String
  settingsHome : Option String
  dataHome : Option String
  clipboard : Clipboard := .absent

namespace Surroundings

/-- The name of the program's own directories. -/
def ownName : String := "zcalc"

/-- The home directory. -/
def homeDirectory? (s : Surroundings) : Option String :=
  match s.home with
  | some home => if home.isEmpty then s.accountHome else some home
  | none => s.accountHome

/-- A directory that may be set, by an absolute path, in the place of one below home. -/
def directory? (s : Surroundings) (chosen : Option String) (belowHome : String) : Option String :=
  chosen.filter Path.isAbsolute <|> s.homeDirectory?.map (Path.join · belowHome)

/-- The file with the settings. Without a home there may be none, and its path is empty then,
where nothing ever stands. -/
def settingsFile (s : Surroundings) : String :=
  match s.directory? s.settingsHome ".config" with
  | some directory => Path.join (Path.join directory ownName) "config.toml"
  | none => ""

/-- The directory for data. -/
def dataDirectory? (s : Surroundings) : Option String :=
  (s.directory? s.dataHome ".local/share").map (Path.join · ownName)

end Surroundings

/-! ### Loading -/

/-- Why settings cannot be had from a file. -/
inductive SettingsFailure where
  | unreadable (path : String) (trouble : Trouble)
  | malformed (path : String)
deriving DecidableEq

/-- The wording of a failure. -/
def SettingsFailure.message : SettingsFailure → String
  | unreadable path trouble => "failed to read config file " ++ path ++ ": " ++ trouble.text
  | malformed path => "failed to parse config file " ++ path

namespace Settings

/-- The settings in a file. -/
def ofFile (d : Disk) (path : String) : Except SettingsFailure Settings :=
  match d.readText path with
  | .ok text =>
    match ofText? text with
    | some settings => .ok settings
    | none => .error (.malformed path)
  | .error .missing => .ok usual
  | .error t => .error (.unreadable path t)

/-- The empty path leads to no file, so a run that finds no settings file has the usual settings. -/
theorem ofFile_empty (d : Disk) : ofFile d "" = .ok usual := rfl

/-- Where the logbook is kept: in the directory that is set or in the usual one, if there is
one. -/
def historyDirectory? (settings : Settings) (s : Surroundings) : Option String :=
  settings.dataDirectory <|> s.dataDirectory?

/-- The path of that directory, which is empty if there is none. -/
def historyDirectory (settings : Settings) (s : Surroundings) : String :=
  (settings.historyDirectory? s).getD ""

end Settings

end DeskCalculator
