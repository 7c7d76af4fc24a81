import DeskCalculator.Association
import DeskCalculator.Disk.Path

/-!
Directories and files.

A disk says what stands at each place. A path is followed name by name from the root
or from the working directory; every name but the last has to lead to a directory.

This is a file system of directories and regular files that belong to whoever runs the
program. Links, of either kind, are left out, and so are other kinds of files, permissions and
a disk that is full or read-only: a node stands at one place and no other, and an operation
fails for one of the causes in `Trouble` or not at all.

* `Trouble`: what can go wrong, with its wording.
* `Node`, `Place`, `Disk`: files and directories, where they stand, and all of them.
* `Disk.locate`: the place a path leads to, whether or not anything is there.
* `Disk.read`, `write`, `rename`, `remove`: operations on files.
* `Disk.makeDirectory`, `makeDirectories`: a directory, and one with all above it.
-/

namespace DeskCalculator

/-! ### Trouble -/

/-- The cause why an operation on a disk fails. -/
inductive Trouble where
  | missing
  | alreadyThere
  | notDirectory
  | isDirectory
  | nameTooLong
  | nulInName
  | notText
deriving DecidableEq

/-- The wording of a cause. -/
def Trouble.text : Trouble → String
  | missing => "No such file or directory (os error 2)"
  | alreadyThere => "File exists (os error 17)"
  | notDirectory => "Not a directory (os error 20)"
  | isDirectory => "Is a directory (os error 21)"
  | nameTooLong => "File name too long (os error 36)"
  | nulInName => "file name contained an unexpected NUL byte"
  | notText => "stream did not contain valid UTF-8"

/-! ### The disk -/

/-- A regular file with its contents, or a directory. There are no links to follow and no
permissions to lack. -/
inductive Node where
  | file (contents : ByteArray)
  | directory

/-- A place is given by the names on the way from it up to the root. -/
abbrev Place := List String

/-- What stands at the places below the root, and the working directory. A place is reached
by its own names alone, so what is done at one is not seen at another. -/
structure Disk where
  nodes : List (Place × Node)
  working : Place

namespace Disk

/-- What stands at a place; the root is a directory. -/
def node? (d : Disk) (p : Place) : Option Node :=
  if p.isEmpty then some .directory else d.nodes.lookup p

/-- The disk without what stands at a place. -/
def erase (d : Disk) (p : Place) : Disk :=
  { d with nodes := Association.erase p d.nodes }

/-- The disk with a node at a place. -/
def put (d : Disk) (p : Place) (n : Node) : Disk :=
  { d with nodes := Association.insert p n d.nodes }

/-- A node below the root that is put at a place stands there, and nothing else moves. -/
theorem node?_put (d : Disk) (p q : Place) (n : Node) (hp : p ≠ []) :
    (d.put p n).node? q = if q == p then some n else d.node? q := by
  by_cases hq : q = []
  · subst hq
    have h : (([] : Place) == p) = false := beq_eq_false_iff_ne.2 (Ne.symm hp)
    simp only [node?, List.isEmpty_nil, if_true, h, Bool.false_eq_true, if_false]
  · simp [node?, put, hq, Association.lookup_insert]

/-- What stood at an erased place is gone, and nothing else moves. -/
theorem node?_erase (d : Disk) (p q : Place) (hp : p ≠ []) :
    (d.erase p).node? q = if q == p then none else d.node? q := by
  by_cases hq : q = []
  · subst hq
    have h : (([] : Place) == p) = false := beq_eq_false_iff_ne.2 (Ne.symm hp)
    simp only [node?, List.isEmpty_nil, if_true, h, Bool.false_eq_true, if_false]
  · simp [node?, erase, hq, Association.lookup_erase]

/-! ### Following paths -/

/-- The most bytes of a name. -/
def maxNameBytes : Nat := 255

/-- The most bytes of a path. -/
def maxPathBytes : Nat := 4095

/-- The place reached from a place by names, each but the last leading to a directory. -/
def walk (d : Disk) : Place → List String → Except Trouble Place
  | p, [] => .ok p
  | p, name :: names =>
    match d.node? p with
    | none => .error .missing
    | some (.file _) => .error .notDirectory
    | some .directory =>
      if name = "." then walk d p names
      else if name = ".." then walk d p.tail names
      else if maxNameBytes < name.utf8ByteSize then .error .nameTooLong
      else walk d (name :: p) names

/-- Where following a path begins. -/
def origin (d : Disk) (path : String) : Place :=
  if Path.isAbsolute path then [] else d.working

/-- No path can be followed that is empty or too long or holds the character zero. -/
def checkPath (path : String) : Except Trouble Unit :=
  if path.toList.contains '\x00' then .error .nulInName
  else if maxPathBytes < path.utf8ByteSize then .error .nameTooLong
  else if path.isEmpty then .error .missing
  else .ok ()

/-- The place a path leads to. -/
def locate (d : Disk) (path : String) : Except Trouble Place := do
  checkPath path
  d.walk (d.origin path) (Path.names path)

/-- The place of a file, which a path that ends in a slash cannot lead to. -/
def locateFile (d : Disk) (path : String) : Except Trouble Place := do
  checkPath path
  let names := Path.names path
  d.walk (d.origin path) (if Path.endsInSlash path then names ++ ["."] else names)

/-- A path leads to a directory. -/
def leadsToDirectory (d : Disk) (path : String) : Bool :=
  match d.locate path with
  | .ok p => match d.node? p with
    | some .directory => true
    | _ => false
  | .error _ => false

/-! ### Files -/

/-- The contents of a file. -/
def read (d : Disk) (path : String) : Except Trouble ByteArray := do
  let p ← d.locateFile path
  match d.node? p with
  | none => .error .missing
  | some .directory => .error .isDirectory
  | some (.file contents) => .ok contents

/-- The contents of a file as a text. -/
def readText (d : Disk) (path : String) : Except Trouble String := do
  let contents ← d.read path
  match String.fromUTF8? contents with
  | some text => .ok text
  | none => .error .notText

/-- The disk with the contents of a file replaced, or a new file. -/
def write (d : Disk) (path : String) (contents : ByteArray) : Except Trouble Disk := do
  let p ← d.locateFile path
  match d.node? p with
  | some .directory => .error .isDirectory
  | _ => .ok (d.put p (.file contents))

/-- The disk with a file moved to another place, where it replaces a file. -/
def rename (d : Disk) (source target : String) : Except Trouble Disk := do
  let p ← d.locateFile source
  let q ← d.locateFile target
  match d.node? p, d.node? q with
  | none, _ => .error .missing
  | some .directory, _ => .error .isDirectory
  | some (.file _), some .directory => .error .isDirectory
  | some (.file contents), _ => .ok ((d.erase p).put q (.file contents))

/-- The disk without a file. -/
def remove (d : Disk) (path : String) : Except Trouble Disk := do
  let p ← d.locateFile path
  match d.node? p with
  | none => .error .missing
  | some .directory => .error .isDirectory
  | some (.file _) => .ok (d.erase p)

/-! ### Directories -/

/-- The disk with a new directory. -/
def makeDirectory (d : Disk) (path : String) : Except Trouble Disk := do
  let p ← d.locate path
  match d.node? p with
  | some _ => .error .alreadyThere
  | none => .ok (d.put p .directory)

/-- The path that goes through the given names, the last one first. -/
def pathOfNames (absolute : Bool) (names : List String) : String :=
  (if absolute then "/" else "") ++ "/".intercalate names.reverse

/-- The outcome of making a directory that may be there already. -/
def settle (d : Disk) (path : String) : Except Trouble Disk → Except Trouble Unit × Disk
  | .ok d => (.ok (), d)
  | .error t => if d.leadsToDirectory path then (.ok (), d) else (.error t, d)

/-- The disk with a directory made where there is none yet, and beforehand, where that
fails for want of it, the directory above. That one goes through the names in `above`, the
last one first. Directories made before a failure stay. -/
def makeWithin (d : Disk) (absolute : Bool) (path : String) :
    (above : List String) → Except Trouble Unit × Disk
  | [] => d.settle path (d.makeDirectory path)
  | name :: above =>
    match d.makeDirectory path with
    | .error .missing =>
      match makeWithin d absolute (pathOfNames absolute (name :: above)) above with
      | (.ok (), d) => d.settle path (d.makeDirectory path)
      | failed => failed
    | outcome => d.settle path outcome

/-- The disk with a directory and all those above it. The empty path is the working
directory, which is there. -/
def makeDirectories (d : Disk) (path : String) : Except Trouble Unit × Disk :=
  if path.isEmpty then (.ok (), d)
  else d.makeWithin (Path.isAbsolute path) path (Path.steps path).reverse.tail

end Disk

end DeskCalculator
