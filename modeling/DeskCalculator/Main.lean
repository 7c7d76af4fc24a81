import DeskCalculator.CommandLine.Run

/-!
The program on a real disk.

The places that a run may look at are copied to a `Disk`, the run is computed on the
copy, and what it changed there is carried out. A conversation is held line by line,
and changes are carried out after every line.
-/

namespace DeskCalculator

namespace Program

/-! ### The disk -/

/-- What stands at a path: a directory, a file that can be read, or nothing. -/
def nodeAt? (path : String) : IO (Option Node) := do
  let place := (← IO.currentDir) / path
  if ← place.isDir then return some .directory
  try return some (.file (← IO.FS.readBinFile place))
  catch _ => return none

/-- The path of a place. -/
def pathOf (p : Place) : String := "/" ++ "/".intercalate p.reverse

/-- A disk with what stands at a place and at those on the way to it. -/
def copyPlace (d : Disk) : Place → IO Disk
  | [] => return d
  | name :: above => do
    let d ← copyPlace d above
    match ← nodeAt? (pathOf (name :: above)) with
    | some n => return d.put (name :: above) n
    | none => return d

/-- A disk with what stands on the way along names, from a place. -/
def copyAlong (d : Disk) : Place → List String → IO Disk
  | p, [] => copyPlace d p
  | p, name :: names => do
    let d ← copyPlace d p
    if name = "." then copyAlong d p names
    else if name = ".." then copyAlong d p.tail names
    else copyAlong d (name :: p) names

/-- A disk with what stands on the way along a path. -/
def copyPath (d : Disk) (path : String) : IO Disk :=
  copyAlong d (d.origin path) (Path.names path)

/-- The disk at the beginning, with nothing on it but the working directory. -/
def emptyDisk : IO Disk := do
  let here := (Path.names (toString (← IO.currentDir))).reverse
  copyPlace ⟨[], here⟩ here

/-- The files that two disks differ in hold the same bytes. -/
def sameNode : Option Node → Option Node → Bool
  | some (.file a), some (.file b) => a == b
  | some .directory, some .directory => true
  | none, none => true
  | _, _ => false

/-- Carries out one difference: a directory is made, a file is written beside its place and
renamed, and a file that is gone is removed. -/
def carryOutAt (p : Place) : Option Node → IO Unit
  | some .directory => IO.FS.createDirAll (pathOf p)
  | some (.file contents) => do
    let beside := pathOf p ++ ".new"
    IO.FS.writeBinFile beside contents
    IO.FS.rename beside (pathOf p)
  | none => IO.FS.removeFile (pathOf p)

/-- Carries out the differences between two disks, directories above others first. -/
def carryOut (before after : Disk) : IO Unit := do
  let places := (after.nodes ++ before.nodes).map (·.1)
  let changed := places.eraseDups.filter fun p => !sameNode (before.node? p) (after.node? p)
  for p in changed.mergeSort (fun p q => p.length ≤ q.length) do
    carryOutAt p (after.node? p)

/-! ### Runs -/

/-- What the program finds around it. The account is not asked for its home, and a bare terminal
has no clipboard. -/
def surroundings : IO Surroundings := do
  return {
    home := ← IO.getEnv "HOME"
    accountHome := none
    settingsHome := ← IO.getEnv "XDG_CONFIG_HOME"
    dataHome := ← IO.getEnv "XDG_DATA_HOME" }

/-- The disk as far as a run with the given options may look at it. -/
def copyFor (options : Options) (around : Surroundings) : IO Disk := do
  let file := options.settingsPath around
  let d ← copyPath (← emptyDisk) file
  match Settings.ofFile d file with
  | .error _ => return d
  | .ok settings =>
    let directory := options.dataDirectory.getD (settings.historyDirectory around)
    let d ← copyPath d directory
    let d ← copyPath d (DirectoryStorage.fileOf directory settings.historyKey)
    copyPath d (DirectoryStorage.temporaryOf directory settings.historyKey)

/-- Prints a text at once. -/
def print (text : String) : IO Unit := do
  let out ← IO.getStdout
  out.putStr text
  out.flush

/-- Prints a report and gives its code. -/
def finish (r : Report) : IO UInt32 := do
  print r.output
  IO.eprint r.messages
  return .ofNat r.exit

/-- Reads the bytes of a line, its end included; there are none when the input is over. -/
partial def readBytes (input : IO.FS.Stream) (line : ByteArray) : IO ByteArray := do
  let next ← input.read 1
  if next.isEmpty then return line
  let line := line ++ next
  if next[0]? == some 10 then return line
  readBytes input line

/-- Holds a conversation. -/
partial def converse {σ : Type} [Storage σ] (keep : σ → σ → IO Unit) (desk : Desk σ) :
    IO Report := do
  match inputLines (← readBytes (← IO.getStdin) .empty) with
  | some line :: _ =>
    if isLeaving line then return .success ""
    else
      let (next, shown) := desk.enter line
      keep desk.storage next.storage
      print shown
      converse keep next
  | none :: _ => return .failure "" "Failed to read input" Trouble.notText.text
  | [] => return .success ""

/-- Begins a conversation. -/
def greet {σ : Type} [Storage σ] (keep : σ → σ → IO Unit) (desk : Desk σ) : IO UInt32 := do
  print (greeting ++ desk.frame)
  finish (← converse keep desk)

/-- Begins a conversation with the logbook that the options choose. -/
def beginConversation (options : Options) (around : Surroundings) (d : Disk) : IO UInt32 := do
  match Settings.ofFile d (options.settingsPath around) with
  | .error e => finish (.failure "" "Failed to load config" e.message)
  | .ok settings =>
    if options.ephemeral then
      greet (fun _ _ => pure ())
        (Desk.start settings.historyKey MemoryStorage.empty around.clipboard)
    else
      match options.historyDirectory? around settings with
      | none => finish .noDataDirectory
      | some directory =>
        let storage : DirectoryStorage := ⟨directory, d⟩
        greet (fun before after => carryOut before.disk after.disk)
          (Desk.start settings.historyKey storage around.clipboard)

end Program

end DeskCalculator

open DeskCalculator in
/-- The program. -/
def main (args : List String) : IO UInt32 := do
  let around ← Program.surroundings
  match Request.ofArguments args with
  | .ok (.run options .converse) =>
    Program.beginConversation options around (← Program.copyFor options around)
  | .ok (.run options command) =>
    let before ← Program.copyFor options around
    let (report, after) := runCommand options command .empty around before
    Program.carryOut before after
    Program.finish report
  | _ => Program.finish (runProgram args .empty around ⟨[], []⟩).1
