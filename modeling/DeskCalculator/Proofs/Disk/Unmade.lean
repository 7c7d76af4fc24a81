import DeskCalculator.Proofs.Disk.Along
import DeskCalculator.Proofs.Disk.Inside

/-!
What is read in a directory that has still to be made.

Nothing is, as long as the path of the directory comes to nothing. Once directories have been made
along it the path could lead on to something that was there all the time, when it leads back up
behind a directory that was missing, or fail for a name that nobody had to look at before.

* `Disk.EndsPlainly`: behind the place where it comes to nothing a path goes on with names that
  neither lead back up nor are too long.
* `Disk.IsTree.read_join_of_moreAlong`, `Disk.IsTree.read_join_of_mem_directoryStages`: then what is
  read in the directory stays what it was.
* `Disk.IsTree.makeDirectories`: on a tree directories are made in directories.
-/

namespace DeskCalculator

namespace Disk

variable {d d' : Disk} {path directory name : String}

/-! ### Paths that come to nothing -/

/-- Names that lead nowhere for want of a directory come to a place where nothing stands. -/
lemma exists_of_walk_missing {p : Place} {names : List String}
    (h : d.walk p names = .error .missing) :
    ∃ front back q, names = front ++ back ∧ d.walk p front = .ok q ∧ d.node? q = none := by
  induction names generalizing p with
  | nil => cases h
  | cons name names ih =>
      rw [walk] at h
      split at h
      · case _ hp => exact ⟨[], name :: names, p, rfl, rfl, hp⟩
      · cases h
      · case _ hp =>
        have hstep (front : List String) : d.walk p (name :: front) =
            if name = "." then d.walk p front
            else if name = ".." then d.walk p.tail front
            else if maxNameBytes < name.utf8ByteSize then .error .nameTooLong
            else d.walk (name :: p) front := by rw [walk, hp]
        split_ifs at h hstep
        · obtain ⟨front, back, q, rfl, hq, hnone⟩ := ih h
          exact ⟨name :: front, back, q, rfl, by rw [hstep, hq], hnone⟩
        · obtain ⟨front, back, q, rfl, hq, hnone⟩ := ih h
          exact ⟨name :: front, back, q, rfl, by rw [hstep, hq], hnone⟩
        · cases h
        · obtain ⟨front, back, q, rfl, hq, hnone⟩ := ih h
          exact ⟨name :: front, back, q, rfl, by rw [hstep, hq], hnone⟩

lemma ComesToNothing.exists_names (h : d.ComesToNothing path) :
    ∃ front back q, Path.names path = front ++ back ∧ d.walk (d.origin path) front = .ok q ∧
      d.node? q = none := by
  rcases h with hmissing | ⟨q, hq, hnone⟩
  · exact exists_of_walk_missing hmissing
  · exact ⟨Path.names path, [], q, (List.append_nil _).symm, hq, hnone⟩

/-! ### Plain names -/

/-- Behind the place where it comes to nothing a path goes on with names that neither lead back
up nor are too long. -/
def EndsPlainly (d : Disk) (path : String) : Prop :=
  ∀ front name back, Path.names path = front ++ name :: back →
    d.walk (d.origin path) (front ++ [name]) = .error .missing →
      name ≠ ".." ∧ name.utf8ByteSize ≤ maxNameBytes

/-- The names behind a place where nothing stands are such. -/
lemma EndsPlainly.of_mem (h : d.EndsPlainly path) {front back : List String} {q : Place}
    (hnames : Path.names path = front ++ back) (hq : d.walk (d.origin path) front = .ok q)
    (hnone : d.node? q = none) :
    ∀ name ∈ back, name ≠ ".." ∧ name.utf8ByteSize ≤ maxNameBytes := by
  intro name hmem
  obtain ⟨bs, cs, rfl⟩ := List.append_of_mem hmem
  refine h (front ++ bs) name cs (by rw [hnames, List.append_assoc]) ?_
  rw [List.append_assoc, walk_append, hq, ok_bind]
  cases bs with
  | nil => rw [List.nil_append, walk, hnone]
  | cons b bs => rw [List.cons_append, walk, hnone]

/-- Where no file is in the way such names lead to the place they stand for, or to nothing. -/
lemma walk_of_plain {q : Place} {names : List String}
    (hnames : ∀ name ∈ names, name ≠ ".." ∧ name.utf8ByteSize ≤ maxNameBytes)
    (hfile : ∀ front contents, d.node? (front ++ q) ≠ some (.file contents)) :
    d.walk q names = .error .missing ∨
      d.walk q names = .ok ((names.filter (· != ".")).reverse ++ q) := by
  induction names generalizing q with
  | nil => exact Or.inr rfl
  | cons name names ih =>
      obtain ⟨⟨habove, hle⟩, hrest⟩ := List.forall_mem_cons.1 hnames
      rw [walk]
      split
      · exact Or.inl rfl
      · case _ contents hq => exact absurd hq (hfile [] contents)
      · by_cases hhere : name = "."
        · rw [if_pos hhere, List.filter_cons_of_neg (by simpa using hhere)]
          exact ih hrest hfile
        · rw [if_neg hhere, if_neg habove, if_neg (Nat.not_lt.2 hle),
            List.filter_cons_of_pos (by simpa using hhere), List.reverse_cons, List.append_assoc]
          refine ih hrest fun front contents => ?_
          simpa using hfile (front ++ [name]) contents

/-! ### Reading -/

lemma read_join_of_comesToNothing (hname : IsName name)
    (hcheck : checkPath (Path.join directory name) = .ok ()) (h : d.ComesToNothing directory) :
    d.read (Path.join directory name) = .error .missing := by
  rw [read, locateFile_join hname hcheck]
  rcases h with hmissing | ⟨p, hp, hnone⟩
  · rw [hmissing, error_bind, error_bind]
  · rw [hp, ok_bind, walk, hnone, error_bind]

/-- No place further down than the last one on the way is gone through by the path of a directory
that comes to nothing. -/
lemma MoreAlong.length_le (h : MoreAlong d d' directory) {front back : List String} {q r : Place}
    (hnames : Path.names directory = front ++ back)
    (hq : d.walk (d.origin directory) front = .ok q) (hback : ".." ∉ back)
    (hr : d'.GoesThrough directory r) (hnone : d.node? r = none) :
    r.length ≤ (back.filter (· != ".")).length + q.length := by
  obtain ⟨init, hinit, hwalk⟩ := hr
  rw [origin, h.working_eq, ← origin] at hwalk
  rw [Path.steps, hnames, List.filter_append] at hinit
  have hfront := walk_filter hq
  rcases List.prefix_or_prefix_of_prefix hinit (List.prefix_append _ _) with hshort | hlong
  · -- a place before is no new one, unless it is the last one that was led to
    obtain ⟨rest, hrest⟩ := hshort
    rw [← hrest, walk_append] at hfront
    obtain ⟨r', hr', hwalk'⟩ := bind_eq_ok_iff.1 hfront
    obtain rfl : r' = r :=
      Except.ok.inj ((walk_mono (fun _ => h.toMore.directory) hr').symm.trans hwalk)
    cases rest with
    | nil =>
        obtain rfl : r' = q := Except.ok.inj hwalk'
        exact Nat.le_add_left _ _
    | cons n rest =>
        rw [walk, hnone] at hwalk'
        cases hwalk'
  · obtain ⟨mid, rfl⟩ := hlong
    rw [walk_append, walk_mono (fun _ => h.toMore.directory) hfront, ok_bind] at hwalk
    have hmid : mid <+: back.filter (· != ".") := (List.prefix_append_right_inj _).1 hinit
    have hplain : ".." ∉ mid :=
      fun hmem => hback (List.mem_of_mem_filter (hmid.subset hmem))
    rw [eq_of_walk hplain hwalk, List.length_append, List.length_reverse]
    exact Nat.add_le_add_right ((List.length_filter_le _ _).trans hmid.length_le) _

/-- **Directories made along a path bring nothing to light in it**, if the path ends plainly: where
nothing was read in the directory nothing is read afterwards. -/
lemma IsTree.read_join_of_moreAlong (htree : d.IsTree) (hplain : d.EndsPlainly directory)
    (h : MoreAlong d d' directory) (hnothing : d.ComesToNothing directory) (hname : IsName name) :
    d'.read (Path.join directory name) = d.read (Path.join directory name) := by
  by_cases hcheck : checkPath (Path.join directory name) = .ok ()
  swap
  · exact read_eq_of_checkPath hcheck
  rw [read_join_of_comesToNothing hname hcheck hnothing]
  obtain ⟨front, back, q, hnames, hq, hnone⟩ := hnothing.exists_names
  have hbelow (names : List String) : d.node? (names ++ q) = none := htree.node?_append hnone names
  have hback := hplain.of_mem hnames hq hnone
  -- the way goes on with plain names through new directories, as far as there are any
  have hall : ∀ n ∈ back ++ [name], n ≠ ".." ∧ n.utf8ByteSize ≤ maxNameBytes := by
    intro n hn
    rcases List.mem_append.1 hn with hn | hn
    · exact hback n hn
    · exact List.mem_singleton.1 hn ▸ ⟨hname.ne_above, hname.bytes_le⟩
  have hfile (names : List String) (contents : ByteArray) :
      d'.node? (names ++ q) ≠ some (.file contents) := by
    rcases h.node?_eq (names ++ q) with hsame | ⟨-, hdir⟩
    · rw [hsame, hbelow]
      simp
    · rw [hdir]
      simp
  have hlocate : d'.locateFile (Path.join directory name) = d'.walk q (back ++ [name]) := by
    rw [locateFile_join hname hcheck, base, hnames, origin, h.working_eq, ← origin, walk_append,
      walk_mono (fun _ => h.toMore.directory) hq, ok_bind, walk_append]
  rw [read, hlocate]
  rcases walk_of_plain hall hfile with hmissing | hfound
  · rw [hmissing, error_bind]
  · rw [hfound, ok_bind]
    -- what it comes to then is a place further down than any new directory
    have hlength : ((back ++ [name]).filter (· != ".")).length
        = (back.filter (· != ".")).length + 1 := by
      rw [List.filter_append, List.length_append, List.filter_cons_of_pos]
      · rfl
      · simpa using hname.ne_here
    have hvacant : d'.node? (((back ++ [name]).filter (· != ".")).reverse ++ q) = none := by
      rcases h.node?_eq (((back ++ [name]).filter (· != ".")).reverse ++ q) with hsame | ⟨-, hdir⟩
      · rw [hsame, hbelow]
      · have hle := h.length_le hnames hq (fun hmem => (hback _ hmem).1 rfl)
          (h.along _ (hbelow _) hdir) (hbelow _)
        rw [List.length_append, List.length_reverse, hlength] at hle
        omega
    rw [hvacant]

theorem IsTree.read_join_of_mem_directoryStages (htree : d.IsTree)
    (hplain : d.EndsPlainly directory) (hd' : d' ∈ d.directoryStages directory)
    (hname : IsName name) :
    d'.read (Path.join directory name) = d.read (Path.join directory name) := by
  by_cases hnothing : d.ComesToNothing directory
  · exact htree.read_join_of_moreAlong hplain (moreAlong_of_mem_directoryStages hd') hnothing hname
  · rw [eq_of_mem_stages_of_not_comesToNothing hnothing hd']

/-- A path without such names goes on with none of them wherever it comes to nothing. -/
lemma endsPlainly_of_names
    (h : ∀ name ∈ Path.names path, name ≠ ".." ∧ name.utf8ByteSize ≤ maxNameBytes) :
    d.EndsPlainly path :=
  fun front name back hnames _ => h name (by rw [hnames]; simp)

/-! ### Trees -/

/-- What stands in a directory wherever it stands makes a tree. -/
lemma isTree_of_nodes (h : ∀ x ∈ d.nodes, d.node? x.1.tail = some .directory) : d.IsTree := by
  intro name p hne
  obtain ⟨n, hn⟩ := Option.ne_none_iff_exists'.1 (show d.nodes.lookup (name :: p) ≠ none from hne)
  obtain ⟨before, behind, hnodes, -⟩ := List.lookup_eq_some_iff.1 hn
  exact h (name :: p, n) (by rw [hnodes]; simp)

/-- On a tree names lead to nothing from a directory. -/
lemma IsTree.node?_tail_of_walk (htree : d.IsTree) {p q : Place} {names : List String}
    (hne : names ≠ []) (hw : d.walk p names = .ok q) (hnone : d.node? q = none) :
    d.node? q.tail = some .directory := by
  rcases List.eq_nil_or_concat names with rfl | ⟨init, last, rfl⟩
  · exact absurd rfl hne
  rw [List.concat_eq_append, walk_append] at hw
  obtain ⟨r, -, hw⟩ := bind_eq_ok_iff.1 hw
  rw [walk] at hw
  split at hw
  · cases hw
  · cases hw
  · case _ hr =>
    split_ifs at hw
    · obtain rfl := Except.ok.inj hw
      rw [hnone] at hr
      cases hr
    · obtain rfl := Except.ok.inj hw
      -- the directory above one on a tree is there
      cases r with
      | nil => cases hnone
      | cons n r =>
          have hdir := htree n r (by rw [hr]; simp)
          rw [List.tail_cons, hdir] at hnone
          cases hnone
    · obtain rfl := Except.ok.inj hw
      exact hr

lemma names_ne_nil (hne : path ≠ "") (habsolute : Path.isAbsolute path = false) :
    Path.names path ≠ [] := by
  obtain ⟨c, cs, hcs⟩ := List.exists_cons_of_ne_nil (show path.toList ≠ [] by simpa using hne)
  rw [Path.isAbsolute, hcs, beq_eq_false_iff_ne, List.head?_cons, ne_eq, Option.some_inj]
    at habsolute
  obtain ⟨part, parts, hparts⟩ := List.exists_cons_of_ne_nil (splitWhere_ne_nil (· == '/') cs)
  rw [splitWhere] at hparts
  rw [Path.names_eq hcs, splitWhere, List.foldr_cons, hparts, if_neg (by simpa using habsolute)]
  simp [extendFirst]

/-- A directory is made in a directory. -/
lemma IsTree.settle (htree : d.IsTree) (path : String) :
    (d.settle path (d.makeDirectory path)).2.IsTree := by
  cases hmake : d.makeDirectory path with
  | error t =>
      rw [Disk.settle]
      split
      · exact htree
      · exact htree
  | ok made =>
      obtain ⟨q, hlocate, hnone, rfl⟩ := makeDirectory_eq_ok_iff.1 hmake
      have hne : path ≠ "" := (checkPath_eq_ok_iff.1 (checkPath_of_locate hlocate)).2.2
      obtain ⟨u, -, hwalk⟩ := bind_eq_ok_iff.1 hlocate
      have habove : d.node? q.tail = some .directory := by
        refine htree.node?_tail_of_walk (fun hnames => ?_) hwalk hnone
        rw [hnames] at hwalk
        obtain rfl := Except.ok.inj hwalk
        rw [origin] at hnone
        split at hnone
        · cases hnone
        · case _ habsolute => exact names_ne_nil hne (by simpa using habsolute) hnames
      intro n p hp
      change (d.put q .directory).node? (n :: p) ≠ none at hp
      change (d.put q .directory).node? p = some .directory
      rw [node?_put_directory hnone] at hp ⊢
      split at hp
      · case _ hq =>
          rw [← hq, List.tail_cons] at habove
          rw [habove, ite_self]
      · rw [htree n p hp, ite_self]

/-- A tree remains one when a directory is made with those above it. -/
theorem IsTree.makeDirectories (htree : d.IsTree) (path : String) :
    (d.makeDirectories path).2.IsTree := by
  unfold Disk.makeDirectories
  split
  · exact htree
  · exact makeWithin_keeps (fun _ path h => h.settle path) _ _ _ htree

end Disk

end DeskCalculator
