import DeskCalculator.Proofs.Disk.Making

/-!
Making directories, cut short.

A directory is made after those above it, one at a time, so the disk passes through stages with
some of them. Making it again from any stage ends with the same disk.

* `Disk.makeStages`, `Disk.directoryStages`: the disks passed through, in order. From one to the
  next at most one directory is made (`Disk.isChain_makeStages`), and the last one is the disk
  after it (`Disk.getLast?_makeStages`).
* `Disk.more_of_mem_directoryStages`: each stage has more directories than the first disk, and
  the last one more than each.
* `Disk.walk_of_more`: names that lead somewhere after directories are made lead there before,
  or to nothing.
* `Disk.leadsToDirectory_above`: a path that leads somewhere goes through a directory.
* `Disk.makeDirectories_of_mem_directoryStages`: making the directory again.
* `Disk.ComesToNothing`: nothing stands where a path leads. Where it does not come to nothing there
  is no stage but the first disk (`Disk.eq_of_mem_stages_of_not_comesToNothing`).
-/

namespace DeskCalculator

namespace Disk

variable {d d' d'' : Disk} {absolute : Bool} {path : String} {above : List String}

/-! ### Stages -/

/-- The disks passed through while a directory is made where there is none yet, and beforehand
those above it. -/
def makeStages (d : Disk) (absolute : Bool) (path : String) : (above : List String) → List Disk
  | [] => [d, (d.makeWithin absolute path []).2]
  | name :: above =>
    (match d.makeDirectory path with
      | .error .missing => d.makeStages absolute (pathOfNames absolute (name :: above)) above
      | _ => [d]) ++ [(d.makeWithin absolute path (name :: above)).2]

/-- The disks passed through while a directory and all those above it are made. -/
def directoryStages (d : Disk) (path : String) : List Disk :=
  if path.isEmpty then [d]
  else d.makeStages (Path.isAbsolute path) path (Path.steps path).reverse.tail

lemma getLast?_makeStages (d : Disk) (absolute : Bool) (path : String) (above : List String) :
    (d.makeStages absolute path above).getLast? = some (d.makeWithin absolute path above).2 := by
  cases above with
  | nil => rfl
  | cons name above => rw [makeStages, List.getLast?_concat]

lemma isChain_makeStages (d : Disk) (absolute : Bool) (path : String) (above : List String) :
    List.IsChain NextStage (d.makeStages absolute path above) := by
  induction above generalizing path with
  | nil => exact List.isChain_pair.2 (nextStage_settle d path)
  | cons name above ih =>
      rw [makeStages, List.isChain_append]
      split
      · case _ hmissing =>
          refine ⟨ih _, List.isChain_singleton _, fun d' hd' d'' hd'' => ?_⟩
          rw [getLast?_makeStages] at hd'
          obtain rfl := Option.some.inj hd'
          obtain rfl := Option.some.inj hd''
          exact nextStage_of_missing (makeDirectory_eq_missing_iff.1 hmissing)
      · case _ hne =>
          refine ⟨List.isChain_singleton d, List.isChain_singleton _, fun d' hd' d'' hd'' => ?_⟩
          obtain rfl := Option.some.inj hd'
          obtain rfl := Option.some.inj hd''
          rw [makeWithin_of_ne_missing (fun h => hne (makeDirectory_eq_missing_iff.2 h))]
          exact nextStage_settle d path

lemma mem_makeStages_cons {name : String} :
    d' ∈ d.makeStages absolute path (name :: above) →
      d' = d ∨ d' = (d.makeWithin absolute path (name :: above)).2 ∨
      d.locate path = .error .missing ∧
        d' ∈ d.makeStages absolute (pathOfNames absolute (name :: above)) above := by
  intro h
  rw [makeStages, List.mem_append, List.mem_singleton] at h
  rcases h with h | h
  · split at h
    · case _ hmissing => exact Or.inr (Or.inr ⟨makeDirectory_eq_missing_iff.1 hmissing, h⟩)
    · exact Or.inl (List.mem_singleton.1 h)
  · exact Or.inr (Or.inl h)

lemma mem_makeStages (d : Disk) (absolute : Bool) (path : String) (above : List String) :
    d ∈ d.makeStages absolute path above := by
  induction above generalizing path with
  | nil => exact List.mem_cons_self
  | cons name above ih =>
      rw [makeStages, List.mem_append]
      refine Or.inl ?_
      split
      · exact ih _
      · exact List.mem_singleton_self d

/-! ### More directories -/

namespace More

lemma of_mem_makeStages (h : d' ∈ d.makeStages absolute path above) : More d d' := by
  induction above generalizing path with
  | nil =>
      rcases List.mem_pair.1 h with rfl | rfl
      · exact .refl d'
      · exact .makeWithin d absolute path []
  | cons name above ih =>
      rcases mem_makeStages_cons h with rfl | rfl | ⟨-, habove⟩
      · exact .refl d'
      · exact .makeWithin d absolute path (name :: above)
      · exact ih habove

/-- The last stage is one with more directories than any. -/
lemma to_makeWithin (h : d' ∈ d.makeStages absolute path above) :
    More d' (d.makeWithin absolute path above).2 := by
  induction above generalizing path with
  | nil =>
      rcases List.mem_pair.1 h with rfl | rfl
      · exact .makeWithin d' absolute path []
      · exact .refl _
  | cons name above ih =>
      rcases mem_makeStages_cons h with rfl | rfl | ⟨hmissing, habove⟩
      · exact .makeWithin d' absolute path (name :: above)
      · exact .refl _
      · exact (ih habove).trans (.of_nextStage (nextStage_of_missing hmissing))

end More

/-- Names that lead somewhere lead there, or to nothing, where there are fewer directories. -/
lemma walk_of_more (h : More d d') {p q : Place} {names : List String}
    (hw : d'.walk p names = .ok q) :
    d.walk p names = .ok q ∨ d.walk p names = .error .missing := by
  induction names generalizing p with
  | nil => exact Or.inl hw
  | cons name names ih =>
      rw [walk] at hw ⊢
      split at hw
      · cases hw
      · cases hw
      · case _ hp =>
        rcases h.node?_eq p with hsame | ⟨hnone, -⟩
        · rw [hsame.symm.trans hp]
          dsimp only
          split_ifs at hw ⊢
          · exact ih hw
          · exact ih hw
          · exact ih hw
        · rw [hnone]
          exact Or.inr rfl

/-! ### Making it again -/

/-- Names that lead somewhere lead through a directory before the last one that does not stay
where it is. -/
lemma walk_of_steps {p q : Place} {names init : List String} {last : String}
    (hw : d.walk p names = .ok q) (hsteps : names.filter (· != ".") = init ++ [last]) :
    ∃ r, d.walk p init = .ok r ∧ d.node? r = some .directory := by
  induction names generalizing p init with
  | nil => simp at hsteps
  | cons name names ih =>
      rw [walk] at hw
      split at hw
      · cases hw
      · cases hw
      · case _ hp =>
        by_cases hhere : name = "."
        · rw [if_pos hhere] at hw
          rw [List.filter_cons_of_neg (by simpa using hhere)] at hsteps
          exact ih hw hsteps
        · rw [List.filter_cons_of_pos (by simpa using hhere)] at hsteps
          cases init with
          | nil => exact ⟨p, rfl, hp⟩
          | cons name' init =>
              obtain ⟨rfl, hrest⟩ := List.cons.inj hsteps
              rw [walk, hp]
              dsimp only
              rw [if_neg hhere] at hw ⊢
              split_ifs at hw ⊢
              · exact ih hw hrest
              · exact ih hw hrest

/-- A path that leads somewhere goes through the directory above. -/
lemma leadsToDirectory_above {name : String} {q : Place}
    (habsolute : Path.isAbsolute path = absolute)
    (habove : (Path.steps path).reverse.tail = name :: above) (hq : d.locate path = .ok q)
    (hcheck : checkPath (pathOfNames absolute (name :: above)) = .ok ()) :
    d.leadsToDirectory (pathOfNames absolute (name :: above)) = true := by
  obtain ⟨hnames, habs⟩ := names_above absolute habove
  obtain ⟨u, -, hwalk⟩ := bind_eq_ok_iff.1 hq
  have hsteps : ∃ last, Path.steps path = (name :: above).reverse ++ [last] := by
    cases hrev : (Path.steps path).reverse with
    | nil =>
        rw [hrev] at habove
        cases habove
    | cons last rest =>
        rw [hrev, List.tail_cons] at habove
        exact ⟨last, by rw [← habove, ← List.reverse_cons, ← hrev, List.reverse_reverse]⟩
  obtain ⟨last, hlast⟩ := hsteps
  obtain ⟨r, hr, hdir⟩ := walk_of_steps hwalk hlast
  refine leadsToDirectory_iff.2 ⟨r, ?_, hdir⟩
  rw [locate_eq_base hcheck, base, hnames, origin, habs, ← habsolute]
  exact hr

/-- **Making a directory again** from any stage ends with the same disk. -/
lemma makeWithin_of_mem_makeStages (habsolute : Path.isAbsolute path = absolute)
    (habove : (Path.steps path).reverse.tail = above)
    (h : d.makeWithin absolute path above = (.ok (), d''))
    (hd' : d' ∈ d.makeStages absolute path above) :
    d'.makeWithin absolute path above = (.ok (), d'') := by
  induction above generalizing path d'' with
  | nil =>
      rcases List.mem_pair.1 hd' with rfl | rfl
      · exact h
      · rw [h]
        exact makeWithin_of_leadsToDirectory (leadsToDirectory_of_makeWithin h)
  | cons name above ih =>
      have hmore := More.to_makeWithin hd'
      rw [h] at hmore
      rcases mem_makeStages_cons hd' with rfl | rfl | ⟨hmissing, hmem⟩
      · exact h
      · rw [h]
        exact makeWithin_of_leadsToDirectory (leadsToDirectory_of_makeWithin h)
      -- the directory above is made first, from this stage as from the first disk
      obtain ⟨between, hbetween, hsettle⟩ := (makeWithin_eq_ok_iff_of_missing hmissing).1 h
      have hagain := ih (names_above absolute habove).2
        (by rw [steps_above habove, List.reverse_reverse, List.tail_cons]) hbetween hmem
      obtain ⟨q, hq, -⟩ := leadsToDirectory_iff.1 (leadsToDirectory_of_makeWithin h)
      have hcheck := checkPath_of_locate hq
      rw [locate_eq_base hcheck, base, origin, hmore.working_eq, ← origin] at hq
      rcases walk_of_more hmore hq with hfound | hnothing
      · -- where the path leads somewhere already the directory above is there
        rw [← base, ← locate_eq_base hcheck] at hfound
        obtain ⟨q', hq', -⟩ := leadsToDirectory_iff.1 (leadsToDirectory_of_makeWithin hbetween)
        have hthere : d'.makeWithin absolute (pathOfNames absolute (name :: above)) above =
            (.ok (), d') := makeWithin_of_leadsToDirectory
          (leadsToDirectory_above habsolute habove hfound (checkPath_of_locate hq'))
        obtain rfl : d' = between := congrArg Prod.snd (hthere.symm.trans hagain)
        rwa [makeWithin_of_ne_missing (by rw [hfound]; simp)]
      · rw [← base, ← locate_eq_base hcheck] at hnothing
        exact (makeWithin_eq_ok_iff_of_missing hnothing).2 ⟨between, hagain, hsettle⟩

/-! ### Whole directories -/

lemma mem_directoryStages (d : Disk) (path : String) : d ∈ d.directoryStages path := by
  rw [directoryStages]
  split
  · exact List.mem_singleton_self d
  · exact mem_makeStages _ _ _ _

theorem more_of_mem_directoryStages (h : d' ∈ d.directoryStages path) :
    More d d' ∧ More d' (d.makeDirectories path).2 := by
  unfold directoryStages at h
  unfold makeDirectories
  split
  · case _ hempty =>
      rw [if_pos hempty, List.mem_singleton] at h
      exact ⟨h ▸ .refl d, h ▸ .refl d⟩
  · case _ hempty =>
      rw [if_neg hempty] at h
      exact ⟨.of_mem_makeStages h, .to_makeWithin h⟩

/-- **Making a directory again** from any stage ends with the same disk. -/
theorem makeDirectories_of_mem_directoryStages (h : d.makeDirectories path = (.ok (), d''))
    (hd' : d' ∈ d.directoryStages path) : d'.makeDirectories path = (.ok (), d'') := by
  unfold directoryStages at hd'
  unfold makeDirectories at h ⊢
  split at h
  · case _ hempty =>
      rw [if_pos hempty, List.mem_singleton] at hd'
      rw [if_pos hempty, hd', h]
  · case _ hempty =>
      rw [if_neg hempty] at hd' ⊢
      exact makeWithin_of_mem_makeStages rfl rfl h hd'

/-! ### Paths that come to nothing -/

/-- Nothing stands where the names of a path lead, or they lead nowhere for want of a
directory. -/
def ComesToNothing (d : Disk) (path : String) : Prop :=
  d.base path = .error .missing ∨ ∃ p, d.base path = .ok p ∧ d.node? p = none

/-- Names that lead to a directory do not come to nothing. -/
lemma not_comesToNothing {p : Place} (hbase : d.base path = .ok p)
    (hdir : d.node? p = some .directory) : ¬ d.ComesToNothing path := by
  rintro (hmissing | ⟨q, hq, hnone⟩)
  · cases hbase.symm.trans hmissing
  · obtain rfl : p = q := Except.ok.inj (hbase.symm.trans hq)
    cases hdir.symm.trans hnone

/-- A directory is made only where nothing stands. -/
lemma settle_of_not_comesToNothing (h : ¬ d.ComesToNothing path) :
    (d.settle path (d.makeDirectory path)).2 = d := by
  cases hmake : d.makeDirectory path with
  | ok made =>
      obtain ⟨p, hlocate, hp, -⟩ := makeDirectory_eq_ok_iff.1 hmake
      rw [locate_eq_base (checkPath_of_locate hlocate)] at hlocate
      exact absurd (Or.inr ⟨p, hlocate, hp⟩) h
  | error t =>
      rw [settle]
      split
      · rfl
      · rfl

theorem eq_of_mem_stages_of_not_comesToNothing (h : ¬ d.ComesToNothing path)
    (hd' : d' ∈ d.directoryStages path) : d' = d := by
  unfold directoryStages at hd'
  split at hd'
  · exact List.mem_singleton.1 hd'
  · case _ hempty =>
    have hne : path ≠ "" := by simpa using hempty
    have hfound : d.locate path ≠ .error .missing := fun hmissing => h <| Or.inl <| by
      rwa [locate_eq_base (checkPath_of_locate_missing hne hmissing)] at hmissing
    have hafter : (d.makeWithin (Path.isAbsolute path) path (Path.steps path).reverse.tail).2
        = d := by
      rw [makeWithin_of_ne_missing hfound, settle_of_not_comesToNothing h]
    cases habove : (Path.steps path).reverse.tail with
    | nil =>
        rw [habove] at hd' hafter
        rcases List.mem_pair.1 hd' with rfl | rfl
        · rfl
        · exact hafter
    | cons name above =>
        rw [habove] at hd' hafter
        rcases mem_makeStages_cons hd' with rfl | rfl | ⟨hmissing, -⟩
        · rfl
        · exact hafter
        · exact absurd hmissing hfound

theorem eq_of_mem_directoryStages (hd : d.leadsToDirectory path = true)
    (h : d' ∈ d.directoryStages path) : d' = d := by
  obtain ⟨p, hp, hdir⟩ := leadsToDirectory_iff.1 hd
  rw [locate_eq_base (checkPath_of_locate hp)] at hp
  exact eq_of_mem_stages_of_not_comesToNothing (not_comesToNothing hp hdir) h

end Disk

end DeskCalculator
