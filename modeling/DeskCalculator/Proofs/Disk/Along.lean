import DeskCalculator.Proofs.Disk.Stages

/-!
Where directories are made.

A directory is made with all those above it that its path names, and as far as that goes they
stay when it fails. Every new directory stands where some of the first names lead.

* `Disk.GoesThrough`: a path goes through a place.
* `Disk.MoreAlong`: a disk with more directories, all of them at places that a path goes through.
* `Disk.moreAlong_of_mem_directoryStages`: making a directory does nothing else, however far it
  comes.
-/

namespace DeskCalculator

namespace Disk

variable {d d' d'' : Disk} {absolute : Bool} {path : String} {above : List String}

/-! ### Along a path -/

/-- Names that lead somewhere lead there without those that stay where they are. -/
lemma walk_filter {p q : Place} {names : List String} (hw : d.walk p names = .ok q) :
    d.walk p (names.filter (· != ".")) = .ok q := by
  induction names generalizing p with
  | nil => exact hw
  | cons name names ih =>
      rw [walk] at hw
      split at hw
      · cases hw
      · cases hw
      · case _ hp =>
        by_cases hhere : name = "."
        · rw [if_pos hhere] at hw
          rw [List.filter_cons_of_neg (by simpa using hhere)]
          exact ih hw
        · rw [if_neg hhere] at hw
          rw [List.filter_cons_of_pos (by simpa using hhere), walk, hp]
          dsimp only
          rw [if_neg hhere]
          split_ifs at hw ⊢
          · exact ih hw
          · exact ih hw

/-- A path goes through a place that some of its first names lead to. -/
def GoesThrough (d : Disk) (path : String) (q : Place) : Prop :=
  ∃ front, front <+: Path.steps path ∧ d.walk (d.origin path) front = .ok q

lemma GoesThrough.mono {q : Place} (hworking : d'.working = d.working)
    (hdir : ∀ q, d.node? q = some .directory → d'.node? q = some .directory)
    (h : d.GoesThrough path q) : d'.GoesThrough path q := by
  obtain ⟨front, hfront, hwalk⟩ := h
  refine ⟨front, hfront, ?_⟩
  rw [origin, hworking]
  exact walk_mono hdir hwalk

lemma More.directory (h : More d d') {q : Place} (hq : d.node? q = some .directory) :
    d'.node? q = some .directory := by
  rcases h.node?_eq q with hsame | ⟨hnone, -⟩
  · rw [hsame, hq]
  · rw [hnone] at hq
    cases hq

/-- A disk with more directories, all of them at places that a path goes through. -/
structure MoreAlong (d d' : Disk) (path : String) : Prop extends More d d' where
  along : ∀ q, d.node? q = none → d'.node? q = some .directory → d'.GoesThrough path q

namespace MoreAlong

lemma refl (d : Disk) (path : String) : MoreAlong d d path :=
  ⟨.refl d, fun q hnone hdir => by rw [hnone] at hdir; cases hdir⟩

lemma trans (h : MoreAlong d d' path) (h' : MoreAlong d' d'' path) : MoreAlong d d'' path := by
  refine ⟨h.toMore.trans h'.toMore, fun q hnone hdir => ?_⟩
  rcases h.node?_eq q with hsame | ⟨-, hdir'⟩
  · exact h'.along q (hsame.trans hnone) hdir
  · exact (h.along q hnone hdir').mono h'.working_eq fun _ => h'.toMore.directory

/-- A longer path goes through the same places, and more. -/
lemma of_prefix {path' : String} (h : MoreAlong d d' path)
    (habsolute : Path.isAbsolute path' = Path.isAbsolute path)
    (hsteps : Path.steps path <+: Path.steps path') : MoreAlong d d' path' := by
  refine ⟨h.toMore, fun q hnone hdir => ?_⟩
  obtain ⟨front, hfront, hwalk⟩ := h.along q hnone hdir
  refine ⟨front, hfront.trans hsteps, ?_⟩
  rw [origin, habsolute]
  exact hwalk

/-- A directory is made at the place its path leads to. -/
lemma settle (d : Disk) (path : String) :
    MoreAlong d (d.settle path (d.makeDirectory path)).2 path := by
  cases h : d.makeDirectory path with
  | error t =>
      rw [Disk.settle]
      split
      · exact .refl d path
      · exact .refl d path
  | ok made =>
      obtain ⟨p, hlocate, hp, rfl⟩ := makeDirectory_eq_ok_iff.1 h
      have hmore : More d (d.put p .directory) := .of_nextStage (Or.inr ⟨p, hp, rfl⟩)
      refine ⟨hmore, fun q hnone hdir => ?_⟩
      change (d.put p .directory).node? q = some .directory at hdir
      rw [node?_put_directory hp] at hdir
      split at hdir
      · case _ hq =>
          obtain ⟨u, -, hwalk⟩ := bind_eq_ok_iff.1 hlocate
          subst hq
          exact ⟨_, List.prefix_rfl, walk_mono (fun _ => hmore.directory) (walk_filter hwalk)⟩
      · rw [hnone] at hdir
        cases hdir

/-- The path of the directory above is the first part of a path. -/
lemma of_above {name : String} (habsolute : Path.isAbsolute path = absolute)
    (habove : (Path.steps path).reverse.tail = name :: above)
    (h : MoreAlong d d' (pathOfNames absolute (name :: above))) : MoreAlong d d' path := by
  refine h.of_prefix (habsolute.trans (names_above absolute habove).2.symm) ?_
  rw [steps_above habove, ← habove, List.tail_reverse, List.reverse_reverse]
  exact List.dropLast_prefix _

lemma makeWithin (d : Disk) (habsolute : Path.isAbsolute path = absolute)
    (habove : (Path.steps path).reverse.tail = above) :
    MoreAlong d (d.makeWithin absolute path above).2 path := by
  induction above generalizing path with
  | nil => exact .settle d path
  | cons name above ih =>
      by_cases hmissing : d.locate path = .error .missing
      · have hfirst := of_above habsolute habove
          (ih (names_above absolute habove).2 (by rw [steps_above habove]; simp))
        rw [makeWithin.eq_def d absolute path, makeDirectory_eq_missing_iff.2 hmissing]
        dsimp only
        split
        · case _ between hbetween =>
            rw [hbetween] at hfirst
            exact hfirst.trans (.settle between path)
        · exact hfirst
      · rw [makeWithin_of_ne_missing hmissing]
        exact .settle d path

lemma of_mem_makeStages (habsolute : Path.isAbsolute path = absolute)
    (habove : (Path.steps path).reverse.tail = above)
    (h : d' ∈ d.makeStages absolute path above) : MoreAlong d d' path := by
  induction above generalizing path with
  | nil =>
      rcases List.mem_pair.1 h with rfl | rfl
      · exact .refl d' path
      · exact .settle d path
  | cons name above ih =>
      rcases mem_makeStages_cons h with rfl | rfl | ⟨-, hmem⟩
      · exact .refl d' path
      · exact .makeWithin d habsolute habove
      · exact of_above habsolute habove
          (ih (names_above absolute habove).2 (by rw [steps_above habove]; simp) hmem)

end MoreAlong

/-- **Directories are made along the path**, however far that comes. -/
theorem moreAlong_of_mem_directoryStages (h : d' ∈ d.directoryStages path) :
    MoreAlong d d' path := by
  unfold directoryStages at h
  split at h
  · rw [List.mem_singleton.1 h]
    exact .refl d path
  · exact .of_mem_makeStages rfl rfl h

lemma makeDirectories_mem_directoryStages (d : Disk) (path : String) :
    (d.makeDirectories path).2 ∈ d.directoryStages path := by
  unfold makeDirectories directoryStages
  split
  · exact List.mem_singleton_self d
  · exact List.mem_of_getLast? (getLast?_makeStages d _ _ _)

end Disk

end DeskCalculator
