import DeskCalculator.Disk.Basic
import DeskCalculator.Storage.Basic

/-!
Storage in the files of a directory.

The text under a key is a file named for the key. A write fills a temporary file
beside it and then renames that, so a write cut short leaves the old text.

* `DirectoryStorage`: a directory on a disk, made on the first write.
* `fileOf`, `temporaryOf`: the two paths of a key.
* `prepare`, `fill`, `commit`: the steps of a write.
-/

namespace DeskCalculator

/-- A directory on a disk. -/
structure DirectoryStorage where
  directory : String
  disk : Disk

namespace DirectoryStorage

/-- The path of the file for a key. -/
def fileOf (directory key : String) : String := Path.join directory (key ++ ".json")

/-- The path of the temporary file for a key. -/
def temporaryOf (directory key : String) : String :=
  Path.withExtension (fileOf directory key) "json.tmp"

/-- The text under a key; without a file there is none. -/
def lookup (s : DirectoryStorage) (key : String) : Except StorageFailure (Option String) :=
  match s.disk.readText (fileOf s.directory key) with
  | .ok text => .ok (some text)
  | .error .missing => .ok none
  | .error t => .error (.disk (fileOf s.directory key) t)

/-! ### Writing -/

/-- The outcome of a step on the disk that concerns a path, and the storage behind it. -/
def after (s : DirectoryStorage) (path : String) (outcome : Except Trouble Disk) :
    Written DirectoryStorage :=
  match outcome with
  | .ok disk => (.ok (), { s with disk })
  | .error t => (.error (.disk path t), s)

/-- Makes the directory. -/
def prepare (s : DirectoryStorage) : Written DirectoryStorage :=
  match s.disk.makeDirectories s.directory with
  | (.ok (), disk) => (.ok (), { s with disk })
  | (.error t, disk) => (.error (.disk s.directory t), { s with disk })

/-- Fills the temporary file of a key. -/
def fill (s : DirectoryStorage) (key : String) (contents : ByteArray) : Written DirectoryStorage :=
  let path := temporaryOf s.directory key
  s.after path (s.disk.write path contents)

/-- Renames the temporary file of a key to its file. -/
def commit (s : DirectoryStorage) (key : String) : Written DirectoryStorage :=
  let path := fileOf s.directory key
  s.after path (s.disk.rename (temporaryOf s.directory key) path)

/-- A step and, if it succeeds, the next one. -/
def andThen (first : Written DirectoryStorage)
    (next : DirectoryStorage → Written DirectoryStorage) : Written DirectoryStorage :=
  match first with
  | (.ok (), s) => next s
  | (.error e, s) => (.error e, s)

/-- Puts a text under a key: the directory, the temporary file, the rename. -/
def putKey (s : DirectoryStorage) (key text : String) : Written DirectoryStorage :=
  andThen s.prepare fun s => andThen (s.fill key text.toUTF8) fun s => s.commit key

/-- Removes the file for a key, if there is one. -/
def dropKey (s : DirectoryStorage) (key : String) : Written DirectoryStorage :=
  let path := fileOf s.directory key
  match s.disk.remove path with
  | .error .missing => (.ok (), s)
  | outcome => s.after path outcome

instance : Storage DirectoryStorage := ⟨lookup, putKey, dropKey⟩

end DirectoryStorage

end DeskCalculator
