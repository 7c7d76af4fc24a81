import DeskCalculator.Proofs.Disk.Files
import DeskCalculator.Proofs.Disk.Making

/-!
Files inside a directory.

* `Disk.locateFile_join_eq_ok`: a path into a directory that leads somewhere leads right below the
  place of the directory.
* `Disk.IsTree.node?_of_locateFile_above`: on a tree the path of the directory above leads to one.
* `Disk.read_join_congr`: what is read in a directory depends on what stands right below its place.
-/

namespace DeskCalculator

namespace Disk

variable {d d' : Disk} {p q : Place} {directory name : String}

lemma no_nul_of_checkPath_join (hslash : '/' ∉ name.toList)
    (h : checkPath (Path.join directory name) = .ok ()) : '\x00' ∉ directory.toList := by
  have hnul := (checkPath_eq_ok_iff.1 h).1
  rw [Path.join_eq hslash, String.toList_append, List.mem_append, not_or] at hnul
  rcases Path.before_cases directory with ⟨rfl, -⟩ | ⟨cs, hbefore, hd | ⟨hd, -⟩⟩
  · simp
  · rw [hd, ← hbefore]
    exact hnul.1
  · rw [hd]
    rw [hbefore] at hnul
    exact fun hmem => hnul.1 (List.mem_append_left _ hmem)

/-- The names of a path into a directory are followed from the place of the directory. -/
lemma walk_of_locateFile_join (hslash : '/' ∉ name.toList) (hne : name ≠ "")
    (h : d.locateFile (Path.join directory name) = .ok q) :
    '\x00' ∉ directory.toList ∧
      ∃ p, d.base directory = .ok p ∧ d.walk p [name] = .ok q := by
  obtain ⟨u, hcheck, hwalk⟩ := bind_eq_ok_iff.1 h
  refine ⟨no_nul_of_checkPath_join hslash hcheck, ?_⟩
  have horigin : d.origin (Path.join directory name) = d.origin directory := by
    rw [origin, Path.isAbsolute_join hslash, origin]
  rw [Path.endsInSlash_join hslash hne, Path.names_join hslash hne, horigin] at hwalk
  exact bind_eq_ok_iff.1 ((walk_append d _ _ _).symm.trans hwalk)

/-- A path into a directory leads right below the place of the directory. -/
lemma locateFile_join_eq_ok (hname : IsPlain name)
    (h : d.locateFile (Path.join directory name) = .ok q) :
    '\x00' ∉ directory.toList ∧
      ∃ p, d.base directory = .ok p ∧ d.node? p = some .directory ∧ q = name :: p := by
  obtain ⟨hnul, p, hp, hwalk⟩ := walk_of_locateFile_join hname.no_slash hname.ne_empty h
  refine ⟨hnul, p, hp, ?_⟩
  rw [walk] at hwalk
  split at hwalk
  · cases hwalk
  · cases hwalk
  · case _ hdir =>
    rw [if_neg hname.ne_here, if_neg hname.ne_above] at hwalk
    split at hwalk
    · cases hwalk
    · exact ⟨hdir, (Except.ok.inj hwalk).symm⟩

/-- On a tree the directory above one is there. -/
lemma IsTree.node?_of_locateFile_above (htree : d.IsTree)
    (h : d.locateFile (Path.join directory "..") = .ok q) : d.node? q = some .directory := by
  obtain ⟨-, p, -, hwalk⟩ := walk_of_locateFile_join (by decide) (by decide) h
  rw [walk] at hwalk
  split at hwalk
  · cases hwalk
  · cases hwalk
  · case _ hdir =>
    rw [if_neg (by decide), if_pos rfl] at hwalk
    obtain rfl := Except.ok.inj hwalk
    cases p with
    | nil => rfl
    | cons n p => exact htree n p (by rw [hdir]; simp)

/-- A path cannot be followed on any disk, or on all of them. -/
lemma read_eq_of_checkPath {path : String} (h : checkPath path ≠ .ok ()) :
    d'.read path = d.read path := by
  cases hcheck : checkPath path with
  | ok u => exact absurd hcheck h
  | error t => simp only [read, locateFile, hcheck, error_bind]

lemma read_join_congr (hbase : d.base directory = .ok p) (hp : d.node? p = some .directory)
    (hbase' : d'.base directory = .ok q) (hq : d'.node? q = some .directory) (hname : IsName name)
    (hnode : d'.node? (name :: q) = d.node? (name :: p)) :
    d'.read (Path.join directory name) = d.read (Path.join directory name) := by
  by_cases hcheck : checkPath (Path.join directory name) = .ok ()
  swap
  · exact read_eq_of_checkPath hcheck
  rw [read, read, locateFile_join hname hcheck, locateFile_join hname hcheck, hbase, hbase',
    ok_bind, ok_bind, walk_name hp hname, walk_name hq hname, ok_bind, ok_bind, hnode]

end Disk

end DeskCalculator
