import DeskCalculator.Text.Split

/-!
Paths as texts.

* `Path.names`: the names a path goes through, empty ones left out.
* `Path.join`: a path inside a directory.
* `Path.withExtension`: a path with the extension of its last name replaced.
-/

namespace DeskCalculator

namespace Path

/-- A path from the root. -/
def isAbsolute (path : String) : Bool := path.toList.head? == some '/'

/-- A path that ends in a slash. -/
def endsInSlash (path : String) : Bool := path.toList.getLast? == some '/'

/-- The names between the slashes of a path. -/
def names (path : String) : List String :=
  ((splitWhere (· == '/') path.toList).filter (!·.isEmpty)).map .ofList

/-- The names of a path without those that stay where they are. -/
def steps (path : String) : List String := (names path).filter (· != ".")

/-- The path `inner` seen from a directory: an absolute path stands for itself, and a slash
is put between where the directory does not end in one. -/
def join (directory inner : String) : String :=
  if isAbsolute inner then inner
  else if directory.isEmpty || endsInSlash directory then directory ++ inner
  else directory ++ "/" ++ inner

/-- The characters of a path up to its last slash, and those of its last name. -/
def splitName (path : List Char) : List Char × List Char :=
  ((path.reverse.dropWhile (· != '/')).reverse, (path.reverse.takeWhile (· != '/')).reverse)

/-- The part of a name before its last point, if there is a point other than in front. -/
def stem? (name : List Char) : Option (List Char) :=
  match (name.reverse.dropWhile (· != '.')).reverse.dropLast with
  | [] => none
  | stem => some stem

/-- A path with the extension of its last name replaced, or added where the name has none.
A name that without its extension reads `..` stands for the directory above, which has no
name to extend. -/
def withExtension (path extension : String) : String :=
  let (before, name) := splitName path.toList
  match stem? name with
  | none => path ++ "." ++ extension
  | some stem =>
    if stem = ['.'] then .ofList (before ++ ['.', '.'])
    else .ofList (before ++ stem ++ '.' :: extension.toList)

end Path

end DeskCalculator
