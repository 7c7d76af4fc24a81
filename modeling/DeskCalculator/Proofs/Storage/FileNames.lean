import DeskCalculator.Proofs.Disk.Making
import DeskCalculator.Storage.Directory

/-!
The names of a key in the directory of a storage.

* `fileName`, `temporaryName`: the last names of the two paths of a key (`fileOf_eq`,
  `temporaryOf_eq`). Names of different keys differ (`fileName_injective`), and no temporary
  name is a name of a file (`temporaryName_ne_fileName`).
* `temporaryOf_point`: the temporary path of a single point is that of the directory above.
* `Fits`: a key whose names are names and whose paths can be followed, if that of the
  directory can be (`Fits.checkPath_file`, `Fits.checkPath_temporary`).
* `temporaryOf_ne_fileOf`: so no temporary path of a key is a path of a key.
-/

namespace DeskCalculator

namespace DirectoryStorage

/-! ### The names of a key -/

/-- The name of the file for a key. -/
def fileName (key : String) : String := key ++ ".json"

/-- The name of the temporary file for a key. -/
def temporaryName (key : String) : String :=
  if key = "" then ".json.json.tmp" else key ++ ".json.tmp"

lemma fileName_injective : Function.Injective fileName := by
  intro key key' h
  have hlist : key.toList ++ ".json".toList = key'.toList ++ ".json".toList := by
    rw [← String.toList_append, ← String.toList_append]
    exact congrArg String.toList h
  exact String.toList_inj.1 (List.append_cancel_right hlist)

lemma temporaryName_ne_fileName (key key' : String) : temporaryName key ≠ fileName key' := by
  intro h
  have hlast : (temporaryName key).toList.getLast? = some 'p' := by
    unfold temporaryName
    split
    · rfl
    · rw [String.toList_append, List.getLast?_append_of_ne_nil _ (by decide)]
      rfl
  have hlast' : (fileName key').toList.getLast? = some 'n' := by
    rw [fileName, String.toList_append, List.getLast?_append_of_ne_nil _ (by decide)]
    rfl
  rw [h, hlast'] at hlast
  exact absurd hlast (by decide)

/-- A name that ends in a letter is neither `.` nor `..`. -/
lemma isPlain_fileName {key : String} (hslash : '/' ∉ key.toList) :
    Disk.IsPlain (fileName key) := by
  have hlen : 5 ≤ (fileName key).toList.length := by
    rw [fileName, String.toList_append, List.length_append]
    exact Nat.le_add_left 5 _
  refine ⟨by simpa [fileName] using hslash, ?_, ?_, ?_⟩ <;>
    intro he <;> rw [he] at hlen <;> revert hlen <;> decide

lemma isPlain_temporaryName {key : String} (hslash : '/' ∉ key.toList) :
    Disk.IsPlain (temporaryName key) := by
  have hlen : 5 ≤ (temporaryName key).toList.length := by
    unfold temporaryName
    split
    · decide
    · rw [String.toList_append, List.length_append]
      exact Nat.le_add_left_of_le (by decide)
  have hname : '/' ∉ (temporaryName key).toList := by
    unfold temporaryName
    split
    · decide
    · simpa using hslash
  refine ⟨hname, ?_, ?_, ?_⟩ <;>
    intro he <;> rw [he] at hlen <;> revert hlen <;> decide

/-- The path of a key is that of its name in the directory. -/
lemma fileOf_eq (directory key : String) :
    fileOf directory key = Path.join directory (fileName key) := rfl

/-- The part of the name of a file before its extension is the key. -/
lemma stem?_fileName (key : String) :
    Path.stem? (fileName key).toList = if key = "" then none else some key.toList := by
  have hname : (fileName key).toList.reverse
      = ['n', 'o', 's', 'j'] ++ '.' :: key.toList.reverse := by
    rw [fileName, String.toList_append, List.reverse_append]
    rfl
  have hdrop : ((fileName key).toList.reverse.dropWhile (· != '.')).reverse
      = key.toList ++ ['.'] := by
    rw [hname, List.dropWhile_append_of_pos (by simp)]
    simp
  rw [Path.stem?, hdrop, List.dropLast_concat]
  by_cases hkey : key = ""
  · simp [hkey]
  · have hne : key.toList ≠ [] := by simpa using hkey
    obtain ⟨c, cs, hcs⟩ := List.exists_cons_of_ne_nil hne
    rw [hcs, if_neg hkey]

/-- The temporary path of a key is that of its temporary name in the directory, unless the
key is a single point. -/
lemma temporaryOf_eq (directory : String) {key : String} (hslash : '/' ∉ key.toList)
    (hpoint : key ≠ ".") :
    temporaryOf directory key = Path.join directory (temporaryName key) := by
  have hfile : '/' ∉ (fileName key).toList := by
    simpa [fileName] using hslash
  rw [temporaryOf, fileOf_eq, Path.withExtension, Path.splitName_join hfile, temporaryName]
  dsimp only
  rw [stem?_fileName]
  by_cases hkey : key = ""
  · subst hkey
    rw [if_pos rfl, if_pos rfl, Path.join_eq hfile, Path.join_eq (by decide), String.append_assoc,
      String.append_assoc]
    rfl
  · have hstem : key.toList ≠ ['.'] := fun h => hpoint (String.toList_inj.1 h)
    have htemporary : '/' ∉ (key ++ ".json.tmp").toList := by simpa using hslash
    rw [if_neg hkey, if_neg hkey, Path.join_eq htemporary]
    simp only [if_neg hstem]
    apply String.toList_inj.1
    simp

/-- The temporary path of a single point is that of the directory above. -/
lemma temporaryOf_point (directory : String) :
    temporaryOf directory "." = Path.join directory ".." := by
  have hstem : Path.stem? (fileName ".").toList = some ['.'] := by
    rw [stem?_fileName]
    rfl
  have hslash : '/' ∉ (fileName ".").toList := by decide
  have habove : Path.join directory ".." = Path.before directory ++ ".." :=
    Path.join_eq (by decide)
  rw [temporaryOf, fileOf_eq, Path.withExtension, Path.splitName_join hslash, habove]
  dsimp only
  rw [hstem]
  apply String.toList_inj.1
  simp

/-! ### Keys that fit -/

/-- A key that can be a key of storage in a directory: it is no path and not a single point,
its names are not too long for a file, and its paths not too long to be followed. -/
structure Fits (directory key : String) : Prop where
  no_slash : '/' ∉ key.toList
  no_nul : '\x00' ∉ key.toList
  not_point : key ≠ "."
  fileName_le : (fileName key).utf8ByteSize ≤ Disk.maxNameBytes
  temporaryName_le : (temporaryName key).utf8ByteSize ≤ Disk.maxNameBytes
  fileOf_le : (fileOf directory key).utf8ByteSize ≤ Disk.maxPathBytes
  temporaryOf_le : (temporaryOf directory key).utf8ByteSize ≤ Disk.maxPathBytes

namespace Fits

variable {directory key : String}

lemma isName_file (h : Fits directory key) : Disk.IsName (fileName key) :=
  (isPlain_fileName h.no_slash).isName h.fileName_le

lemma isName_temporary (h : Fits directory key) : Disk.IsName (temporaryName key) :=
  (isPlain_temporaryName h.no_slash).isName h.temporaryName_le

lemma checkPath_file (h : Fits directory key) (hnul : '\x00' ∉ directory.toList) :
    Disk.checkPath (Path.join directory (fileName key)) = .ok () :=
  Disk.checkPath_join h.isName_file (by simpa [fileName] using h.no_nul) hnul h.fileOf_le

lemma checkPath_temporary (h : Fits directory key) (hnul : '\x00' ∉ directory.toList) :
    Disk.checkPath (Path.join directory (temporaryName key)) = .ok () := by
  have hname : '\x00' ∉ (temporaryName key).toList := by
    unfold temporaryName
    split
    · decide
    · simpa using h.no_nul
  refine Disk.checkPath_join h.isName_temporary hname hnul ?_
  rw [← temporaryOf_eq directory h.no_slash h.not_point]
  exact h.temporaryOf_le

/-- The path of the directory is no longer than that of a file in it. -/
lemma directory_le (h : Fits directory key) : directory.utf8ByteSize ≤ Disk.maxPathBytes := by
  refine le_trans ?_ h.fileOf_le
  rw [fileOf_eq, Path.join_eq h.isName_file.no_slash, Path.before, String.utf8ByteSize_append]
  split
  · exact Nat.le_add_right _ _
  · rw [String.utf8ByteSize_append]
    omega

end Fits

instance (directory key : String) : Decidable (Fits directory key) :=
  decidable_of_iff
    ('/' ∉ key.toList ∧ '\x00' ∉ key.toList ∧ key ≠ "." ∧
      (fileName key).utf8ByteSize ≤ Disk.maxNameBytes ∧
      (temporaryName key).utf8ByteSize ≤ Disk.maxNameBytes ∧
      (fileOf directory key).utf8ByteSize ≤ Disk.maxPathBytes ∧
      (temporaryOf directory key).utf8ByteSize ≤ Disk.maxPathBytes)
    ⟨fun ⟨h₁, h₂, h₃, h₄, h₅, h₆, h₇⟩ => ⟨h₁, h₂, h₃, h₄, h₅, h₆, h₇⟩,
      fun ⟨h₁, h₂, h₃, h₄, h₅, h₆, h₇⟩ => ⟨h₁, h₂, h₃, h₄, h₅, h₆, h₇⟩⟩

lemma temporaryOf_ne_fileOf {directory key key' : String} (h : Fits directory key)
    (h' : Fits directory key') : temporaryOf directory key ≠ fileOf directory key' := by
  rw [temporaryOf_eq directory h.no_slash h.not_point, fileOf_eq,
    Path.join_eq h.isName_temporary.no_slash, Path.join_eq h'.isName_file.no_slash]
  intro he
  have hlist := congrArg String.toList he
  rw [String.toList_append, String.toList_append] at hlist
  exact temporaryName_ne_fileName key key' (String.toList_inj.1 (List.append_cancel_left hlist))

end DirectoryStorage

end DeskCalculator
