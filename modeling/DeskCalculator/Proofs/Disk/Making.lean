import DeskCalculator.Proofs.Disk.Following

/-!
Making a directory with all those above it.

* `Disk.locate_of_makeDirectories`: it succeeds only where the path leads to a directory or
  to nothing at all.
* `Disk.leadsToDirectory_makeDirectories`: the path leads to a directory afterwards.
* `Disk.More`: a disk with more directories and no other difference. Making a directory does
  nothing else (`Disk.More.makeDirectories`), one at a time (`Disk.NextStage`).
* `Disk.Grown`: a disk with more directories, all of them on the way to a place.
  `Disk.grown_makeDirectories`: what is made by a path that never leads back up is on the way
  to the place it leads to.
* `Disk.IsTree`: what stands somewhere stands in a directory; so nothing stands in a
  directory that has just been made (`Disk.vacant_makeDirectories`).
-/

namespace DeskCalculator

namespace Disk

variable {d d' : Disk}

/-! ### One directory -/

/-- A path can be followed when it is not empty, not too long and without the character
zero. -/
lemma checkPath_eq_ok_iff {path : String} :
    checkPath path = .ok () ↔
      '\x00' ∉ path.toList ∧ path.utf8ByteSize ≤ maxPathBytes ∧ path ≠ "" := by
  unfold checkPath
  split_ifs <;> simp_all

lemma checkPath_join {directory name : String} (hname : IsName name) (hnul : '\x00' ∉ name.toList)
    (hdir : '\x00' ∉ directory.toList)
    (hle : (Path.join directory name).utf8ByteSize ≤ maxPathBytes) :
    checkPath (Path.join directory name) = .ok () := by
  refine checkPath_eq_ok_iff.2 ⟨?_, hle, ?_⟩
  · rw [Path.join_eq hname.no_slash, String.toList_append, List.mem_append, not_or]
    refine ⟨?_, hnul⟩
    rcases Path.before_cases directory with ⟨-, h⟩ | ⟨cs, h, hd | ⟨hd, -⟩⟩ <;> rw [h] <;>
      simp_all
  · rw [Path.join_eq hname.no_slash]
    intro he
    have hlist := congrArg String.toList he
    rw [String.toList_append, String.toList_empty, List.append_eq_nil_iff] at hlist
    exact hname.ne_empty (String.toList_eq_nil_iff.1 hlist.2)

lemma checkPath_of_locate {path : String} {p : Place} (h : d.locate path = .ok p) :
    checkPath path = .ok () := by
  obtain ⟨u, hu, -⟩ := bind_eq_ok_iff.1 h
  exact hu

lemma checkPath_of_locate_missing {path : String} (hne : path ≠ "")
    (h : d.locate path = .error .missing) : checkPath path = .ok () := by
  rcases bind_eq_error_iff.1 h with hc | ⟨u, hu, -⟩
  · rw [checkPath, String.isEmpty_eq_false_iff.2 hne] at hc
    split_ifs at hc <;> simp_all
  · exact hu

/-- A path leads to a directory when one stands at the place it leads to. -/
lemma leadsToDirectory_iff {path : String} :
    d.leadsToDirectory path = true ↔
      ∃ p, d.locate path = .ok p ∧ d.node? p = some .directory := by
  unfold leadsToDirectory
  cases d.locate path with
  | error t => simp
  | ok p =>
      cases hp : d.node? p with
      | none => simp [hp]
      | some n => cases n <;> simp [hp]

lemma makeDirectory_eq_ok_iff {path : String} :
    d.makeDirectory path = .ok d' ↔
      ∃ p, d.locate path = .ok p ∧ d.node? p = none ∧ d' = d.put p .directory := by
  rw [makeDirectory, bind_eq_ok_iff]
  refine exists_congr fun p => and_congr_right fun _ => ?_
  cases d.node? p with
  | none => simpa using eq_comm
  | some n => simp

lemma makeDirectory_eq_missing_iff {path : String} :
    d.makeDirectory path = .error .missing ↔ d.locate path = .error .missing := by
  rw [makeDirectory, bind_eq_error_iff]
  refine or_iff_left ?_
  rintro ⟨p, -, h⟩
  split at h <;> cases h

lemma ne_nil_of_node?_eq_none {p : Place} (h : d.node? p = none) : p ≠ [] := by
  rintro rfl
  cases h

/-- A directory put where nothing stands takes no directory away. -/
lemma node?_put_directory {p : Place} (hp : d.node? p = none) (q : Place) :
    (d.put p .directory).node? q = if q = p then some .directory else d.node? q := by
  rw [node?_put d p q _ (ne_nil_of_node?_eq_none hp)]
  simp

/-- The path of a directory that has been made leads to it. -/
lemma leadsToDirectory_of_makeDirectory {path : String} (h : d.makeDirectory path = .ok d') :
    d'.leadsToDirectory path = true := by
  obtain ⟨p, hlocate, hp, rfl⟩ := makeDirectory_eq_ok_iff.1 h
  have hcheck := checkPath_of_locate hlocate
  rw [locate_eq_base hcheck] at hlocate
  refine leadsToDirectory_iff.2 ⟨p, ?_, by rw [node?_put_directory hp, if_pos rfl]⟩
  rw [locate_eq_base hcheck]
  refine walk_mono (fun q hq => ?_) hlocate
  rw [node?_put_directory hp, hq, ite_self]

lemma settle_eq_ok_iff {path : String} {outcome : Except Trouble Disk} :
    d.settle path outcome = (.ok (), d') ↔
      outcome = .ok d' ∨ (∃ t, outcome = .error t) ∧ d.leadsToDirectory path = true ∧ d = d' := by
  cases outcome with
  | ok d'' => simp [settle]
  | error t =>
      rw [settle]
      cases d.leadsToDirectory path <;> simp

lemma leadsToDirectory_of_settle {path : String}
    (h : d.settle path (d.makeDirectory path) = (.ok (), d')) :
    d'.leadsToDirectory path = true := by
  rcases settle_eq_ok_iff.1 h with h | ⟨-, hd, rfl⟩
  · exact leadsToDirectory_of_makeDirectory h
  · exact hd

/-! ### All those above it -/

lemma makeWithin_of_ne_missing {absolute : Bool} {path : String} {above : List String}
    (h : d.locate path ≠ .error .missing) :
    d.makeWithin absolute path above = d.settle path (d.makeDirectory path) := by
  cases above with
  | nil => rfl
  | cons name above =>
      rw [makeWithin]
      split
      · case _ hmissing => exact absurd (makeDirectory_eq_missing_iff.1 hmissing) h
      · rfl

lemma makeWithin_eq_ok_iff_of_missing {absolute : Bool} {path name : String}
    {above : List String} (h : d.locate path = .error .missing) :
    d.makeWithin absolute path (name :: above) = (.ok (), d') ↔
      ∃ between,
        d.makeWithin absolute (pathOfNames absolute (name :: above)) above = (.ok (), between) ∧
        between.settle path (between.makeDirectory path) = (.ok (), d') := by
  rw [makeWithin, makeDirectory_eq_missing_iff.2 h]
  dsimp only
  split
  · case _ between hbetween =>
      rw [hbetween]
      exact ⟨fun h => ⟨between, rfl, h⟩, fun ⟨_, he, h⟩ => (Prod.mk.inj he).2 ▸ h⟩
  · case _ hfailed =>
      exact ⟨fun h => absurd h (hfailed d'), fun ⟨between, he, _⟩ => absurd he (hfailed between)⟩

/-- How a directory comes to be made: at once, or after the one above it. -/
lemma makeWithin_cases {absolute : Bool} {path : String} {above : List String}
    (h : d.makeWithin absolute path above = (.ok (), d')) :
    d.settle path (d.makeDirectory path) = (.ok (), d') ∨
      ∃ name rest between, above = name :: rest ∧ d.locate path = .error .missing ∧
        d.makeWithin absolute (pathOfNames absolute (name :: rest)) rest = (.ok (), between) ∧
        between.settle path (between.makeDirectory path) = (.ok (), d') := by
  cases above with
  | nil => exact Or.inl h
  | cons name rest =>
      by_cases hmissing : d.locate path = .error .missing
      · obtain ⟨between, hbetween, hsettle⟩ := (makeWithin_eq_ok_iff_of_missing hmissing).1 h
        exact Or.inr ⟨name, rest, between, rfl, hmissing, hbetween, hsettle⟩
      · exact Or.inl (makeWithin_of_ne_missing hmissing ▸ h)

/-- Directories are made only where the path leads to one already or to nothing. -/
lemma locate_of_makeWithin {absolute : Bool} {path : String} {above : List String}
    (h : d.makeWithin absolute path above = (.ok (), d'))
    (hd : d.leadsToDirectory path = false) :
    d.locate path = .error .missing ∨ ∃ p, d.locate path = .ok p ∧ d.node? p = none := by
  rcases makeWithin_cases h with h | ⟨name, rest, between, -, hmissing, -⟩
  · rcases settle_eq_ok_iff.1 h with h | ⟨-, h, -⟩
    · obtain ⟨p, hlocate, hp, -⟩ := makeDirectory_eq_ok_iff.1 h
      exact Or.inr ⟨p, hlocate, hp⟩
    · rw [hd] at h
      cases h
  · exact Or.inl hmissing

/-- The path of a directory that has been made with those above it leads to it. -/
lemma leadsToDirectory_of_makeWithin {absolute : Bool} {path : String} {above : List String}
    (h : d.makeWithin absolute path above = (.ok (), d')) : d'.leadsToDirectory path = true := by
  rcases makeWithin_cases h with h | ⟨name, rest, between, -, -, -, h⟩
  · exact leadsToDirectory_of_settle h
  · exact leadsToDirectory_of_settle h

/-- A directory that is there already is not made again. -/
lemma makeWithin_of_leadsToDirectory {absolute : Bool} {path : String} {above : List String}
    (h : d.leadsToDirectory path = true) :
    d.makeWithin absolute path above = (.ok (), d) := by
  obtain ⟨p, hlocate, hp⟩ := leadsToDirectory_iff.1 h
  rw [makeWithin_of_ne_missing (by rw [hlocate]; simp), settle_eq_ok_iff]
  refine Or.inr ⟨⟨.alreadyThere, ?_⟩, h, rfl⟩
  rw [makeDirectory, hlocate, ok_bind, hp]

/-- What the making of one directory keeps is kept when it is made with those above it. -/
lemma makeWithin_keeps {P : Disk → Prop}
    (hsettle : ∀ (d : Disk) (path : String), P d → P (d.settle path (d.makeDirectory path)).2)
    (absolute : Bool) (path : String) (above : List String) (h : P d) :
    P (d.makeWithin absolute path above).2 := by
  induction above generalizing path with
  | nil => exact hsettle d path h
  | cons name above ih =>
      by_cases hmissing : d.locate path = .error .missing
      · have hfirst := ih (pathOfNames absolute (name :: above))
        rw [makeWithin.eq_def d absolute path, makeDirectory_eq_missing_iff.2 hmissing]
        dsimp only
        split
        · case _ between hbetween =>
            rw [hbetween] at hfirst
            exact hsettle between path hfirst
        · exact hfirst
      · rw [makeWithin_of_ne_missing hmissing]
        exact hsettle d path h

/-! ### More directories -/

section

variable {d'' : Disk} {absolute : Bool} {path : String} {above : List String}

/-- A step of making a directory: at most one directory is made. -/
def NextStage (d d' : Disk) : Prop :=
  d' = d ∨ ∃ p, d.node? p = none ∧ d' = d.put p .directory

lemma nextStage_settle (d : Disk) (path : String) :
    NextStage d (d.settle path (d.makeDirectory path)).2 := by
  cases h : d.makeDirectory path with
  | ok d' =>
      obtain ⟨p, -, hp, rfl⟩ := makeDirectory_eq_ok_iff.1 h
      exact Or.inr ⟨p, hp, rfl⟩
  | error t =>
      rw [settle]
      split
      · exact Or.inl rfl
      · exact Or.inl rfl

lemma nextStage_of_missing {name : String} (h : d.locate path = .error .missing) :
    NextStage (d.makeWithin absolute (pathOfNames absolute (name :: above)) above).2
      (d.makeWithin absolute path (name :: above)).2 := by
  rw [makeWithin.eq_def d absolute path, makeDirectory_eq_missing_iff.2 h]
  dsimp only
  split
  · case _ between hbetween =>
      rw [hbetween]
      exact nextStage_settle between path
  · exact Or.inl rfl

/-- A disk with more directories and no other difference. -/
structure More (d d' : Disk) : Prop where
  working_eq : d'.working = d.working
  node?_eq : ∀ q, d'.node? q = d.node? q ∨ d.node? q = none ∧ d'.node? q = some .directory

namespace More

lemma refl (d : Disk) : More d d := ⟨rfl, fun _ => Or.inl rfl⟩

lemma trans (h : More d d') (h' : More d' d'') : More d d'' := by
  refine ⟨h'.working_eq.trans h.working_eq, fun q => ?_⟩
  rcases h'.node?_eq q with hq | ⟨hq, hq'⟩
  · rw [hq]
    exact h.node?_eq q
  · rcases h.node?_eq q with hsame | ⟨-, hdir⟩
    · exact Or.inr ⟨hsame ▸ hq, hq'⟩
    · rw [hq] at hdir
      cases hdir

/-- Where nothing stands nothing stood before. -/
lemma node?_eq_none (h : More d d') {q : Place} (hq : d'.node? q = none) : d.node? q = none := by
  rcases h.node?_eq q with hsame | ⟨hnone, -⟩
  · rw [← hsame, hq]
  · exact hnone

lemma of_nextStage (h : NextStage d d') : More d d' := by
  rcases h with rfl | ⟨p, hp, rfl⟩
  · exact .refl d'
  · refine ⟨rfl, fun q => ?_⟩
    rw [node?_put_directory hp]
    split
    · case _ hq => exact Or.inr ⟨hq ▸ hp, rfl⟩
    · exact Or.inl rfl

/-- A directory that is made with those above it, as far as they can be. -/
lemma makeWithin (d : Disk) (absolute : Bool) (path : String) (above : List String) :
    More d (d.makeWithin absolute path above).2 :=
  makeWithin_keeps (fun between path h => h.trans (.of_nextStage (nextStage_settle between path)))
    absolute path above (.refl d)

lemma makeDirectories (d : Disk) (path : String) : More d (d.makeDirectories path).2 := by
  unfold Disk.makeDirectories
  split
  · exact .refl d
  · exact .makeWithin d _ _ _

end More

end

/-! ### Where directories are made -/

/-- The place that the names of a path stand for when none of them leads back up. -/
def goal (d : Disk) (path : String) : Place := (Path.steps path).reverse ++ d.origin path

/-- A disk with more directories, all of them on the way to a place. -/
structure Grown (d d' : Disk) (goal : Place) : Prop where
  working_eq : d'.working = d.working
  node?_eq : ∀ q, d'.node? q = d.node? q ∨
    d.node? q = none ∧ d'.node? q = some .directory ∧ q <:+ goal

namespace Grown

variable {p p' : Place} {d'' : Disk}

lemma refl (d : Disk) (p : Place) : Grown d d p := ⟨rfl, fun _ => Or.inl rfl⟩

lemma trans (h : Grown d d' p) (h' : Grown d' d'' p) : Grown d d'' p := by
  refine ⟨h'.working_eq.trans h.working_eq, fun q => ?_⟩
  rcases h.node?_eq q with hq | ⟨hq, hq', hp⟩
  · rw [← hq]
    exact h'.node?_eq q
  · rcases h'.node?_eq q with hq'' | ⟨hq'', -⟩
    · exact Or.inr ⟨hq, hq''.trans hq', hp⟩
    · rw [hq'] at hq''
      cases hq''

lemma mono (h : Grown d d' p) (hp : p <:+ p') : Grown d d' p' := by
  refine ⟨h.working_eq, fun q => ?_⟩
  rcases h.node?_eq q with hq | ⟨hq, hq', hqp⟩
  · exact Or.inl hq
  · exact Or.inr ⟨hq, hq', hqp.trans hp⟩

end Grown

/-- Names none of which leads back up lead to the place they stand for. -/
lemma eq_of_walk {p q : Place} {names : List String} (habove : ".." ∉ names)
    (h : d.walk p names = .ok q) : q = (names.filter (· != ".")).reverse ++ p := by
  induction names generalizing p with
  | nil => exact (Except.ok.inj h).symm
  | cons name names ih =>
      have hrest : ".." ∉ names := fun hmem => habove (List.mem_cons_of_mem name hmem)
      have hname : name ≠ ".." := fun hname => habove (hname ▸ List.mem_cons_self)
      rw [walk] at h
      split at h
      · cases h
      · cases h
      · split_ifs at h with hhere
        · rw [ih hrest h, hhere]
          rfl
        · rw [ih hrest h, List.filter_cons_of_pos (by simpa using hhere)]
          simp

lemma eq_goal_of_locate {path : String} {p : Place} (habove : ".." ∉ Path.names path)
    (h : d.locate path = .ok p) : p = d.goal path := by
  obtain ⟨u, -, h⟩ := bind_eq_ok_iff.1 h
  exact eq_of_walk habove h

/-- A directory is made at the place its path leads to. -/
lemma grown_of_settle {path : String} (habove : ".." ∉ Path.names path)
    (h : d.settle path (d.makeDirectory path) = (.ok (), d')) : Grown d d' (d.goal path) := by
  rcases settle_eq_ok_iff.1 h with h | ⟨-, -, rfl⟩
  · obtain ⟨p, hlocate, hp, rfl⟩ := makeDirectory_eq_ok_iff.1 h
    obtain rfl := eq_goal_of_locate habove hlocate
    refine ⟨rfl, fun q => ?_⟩
    rw [node?_put_directory hp]
    split
    case isTrue hq =>
      subst hq
      exact Or.inr ⟨hp, rfl, List.suffix_rfl⟩
    case isFalse hq => exact Or.inl rfl
  · exact .refl d _

lemma names_pathOfNames {absolute : Bool} {ns : List String}
    (h : ∀ n ∈ ns, n ≠ "" ∧ '/' ∉ n.toList) :
    Path.names (pathOfNames absolute ns) = ns.reverse := by
  have hns : ∀ n ∈ ns.reverse, n ≠ "" ∧ '/' ∉ n.toList :=
    fun n hn => h n (List.mem_reverse.1 hn)
  cases absolute with
  | false => rw [pathOfNames, if_neg (by simp), String.empty_append, Path.names_intercalate hns]
  | true =>
      have hlist : (pathOfNames true ns).toList
          = [] ++ '/' :: ("/".intercalate ns.reverse).toList := by
        rw [pathOfNames, if_pos rfl, String.toList_append]
        rfl
      rw [Path.names_eq hlist, Path.splitWhere_slash, List.filter_append]
      have hread := Path.names_intercalate hns
      rw [Path.names] at hread
      simpa [splitWhere] using hread

lemma isAbsolute_pathOfNames {absolute : Bool} {ns : List String} (hne : ns ≠ [])
    (h : ∀ n ∈ ns, n ≠ "" ∧ '/' ∉ n.toList) :
    Path.isAbsolute (pathOfNames absolute ns) = absolute := by
  cases absolute with
  | true =>
      rw [pathOfNames, if_pos rfl, Path.isAbsolute, String.toList_append]
      rfl
  | false =>
      obtain ⟨n, rest, hn⟩ := List.exists_cons_of_ne_nil (List.reverse_ne_nil_iff.2 hne)
      obtain ⟨hempty, hslash⟩ := h n (List.mem_reverse.1 (hn ▸ List.mem_cons_self))
      have hlist : n.toList ≠ [] := by simpa using hempty
      rw [pathOfNames, if_neg (by simp), String.empty_append, hn]
      cases rest with
      | nil =>
          rw [String.intercalate_singleton]
          exact Path.isAbsolute_of_no_slash hslash
      | cons n' rest =>
          rw [Path.isAbsolute, String.intercalate_cons_cons, String.toList_append,
            String.toList_append, List.append_assoc, List.head?_append_of_ne_nil _ hlist]
          exact Path.isAbsolute_of_no_slash hslash

/-- The names on the way to the directory above are names of the path that do not stay where
they are. -/
lemma of_mem_above {path : String} {above : List String}
    (habove : (Path.steps path).reverse.tail = above) {n : String} (hn : n ∈ above) :
    n ∈ Path.names path ∧ n ≠ "." := by
  rw [← habove] at hn
  have hmem := List.mem_reverse.1 (List.mem_of_mem_tail hn)
  exact ⟨List.mem_of_mem_filter hmem, by simpa using List.of_mem_filter hmem⟩

lemma names_above (absolute : Bool) {path name : String} {above : List String}
    (habove : (Path.steps path).reverse.tail = name :: above) :
    Path.names (pathOfNames absolute (name :: above)) = (name :: above).reverse ∧
      Path.isAbsolute (pathOfNames absolute (name :: above)) = absolute :=
  ⟨names_pathOfNames fun _ hn => Path.of_mem_names (of_mem_above habove hn).1,
    isAbsolute_pathOfNames (List.cons_ne_nil _ _)
      fun _ hn => Path.of_mem_names (of_mem_above habove hn).1⟩

lemma steps_above {absolute : Bool} {path name : String} {above : List String}
    (habove : (Path.steps path).reverse.tail = name :: above) :
    Path.steps (pathOfNames absolute (name :: above)) = (name :: above).reverse := by
  rw [Path.steps, (names_above absolute habove).1, List.filter_eq_self]
  intro n hn
  simpa using (of_mem_above habove (List.mem_reverse.1 hn)).2

/-- What is made with a directory is on the way to the place its path leads to. -/
lemma grown_of_makeWithin {absolute : Bool} {path : String} {above : List String}
    (habsolute : Path.isAbsolute path = absolute) (hback : ".." ∉ Path.names path)
    (habove : (Path.steps path).reverse.tail = above)
    (h : d.makeWithin absolute path above = (.ok (), d')) : Grown d d' (d.goal path) := by
  induction above generalizing path d' with
  | nil =>
      rcases makeWithin_cases h with h | ⟨name, rest, between, ⟨⟩, -⟩
      exact grown_of_settle hback h
  | cons name rest ih =>
      rcases makeWithin_cases h with h | ⟨_, _, between, ⟨⟩, -, hbetween, hsettle⟩
      · exact grown_of_settle hback h
      obtain ⟨hnames, habs⟩ := names_above absolute habove
      have hsteps : Path.steps (pathOfNames absolute (name :: rest)) = (name :: rest).reverse :=
        steps_above habove
      have hfirst := ih habs (by
        rw [hnames, List.mem_reverse]
        exact fun hmem => hback (of_mem_above habove hmem).1) (by rw [hsteps]; simp) hbetween
      have hway : d.goal (pathOfNames absolute (name :: rest)) <:+ d.goal path := by
        rw [goal, goal, origin, origin, habs, habsolute, hsteps, List.reverse_reverse, ← habove]
        obtain ⟨last, hlast⟩ := List.tail_suffix (Path.steps path).reverse
        exact ⟨last, by rw [← List.append_assoc, hlast]⟩
      have hgoal : between.goal path = d.goal path := by
        rw [goal, goal, origin, origin, hfirst.working_eq]
      exact (hfirst.mono hway).trans (hgoal ▸ grown_of_settle hback hsettle)

/-! ### Whole directories -/

/-- What stands somewhere below the root stands in a directory. -/
def IsTree (d : Disk) : Prop :=
  ∀ (name : String) (p : Place), d.node? (name :: p) ≠ none → d.node? p = some .directory

lemma IsTree.node?_append (h : d.IsTree) {p : Place} (hp : d.node? p = none)
    (names : List String) : d.node? (names ++ p) = none := by
  induction names with
  | nil => exact hp
  | cons name names ih =>
      by_contra hne
      have hdir := h name (names ++ p) hne
      rw [ih] at hdir
      cases hdir

lemma IsTree.node?_of_walk_missing (h : d.IsTree) {p : Place} {names : List String}
    (hback : ".." ∉ names) (hw : d.walk p names = .error .missing) :
    d.node? ((names.filter (· != ".")).reverse ++ p) = none := by
  induction names generalizing p with
  | nil => cases hw
  | cons name names ih =>
      have hrest : ".." ∉ names := fun hmem => hback (List.mem_cons_of_mem name hmem)
      have hname : name ≠ ".." := fun hname => hback (hname ▸ List.mem_cons_self)
      rw [walk] at hw
      split at hw
      · case _ hp => exact h.node?_append hp _
      · cases hw
      · split_ifs at hw with hhere hlong
        · rw [hhere]
          exact ih hrest hw
        · cases hw
        · have hbelow := ih hrest hw
          rw [List.filter_cons_of_pos (by simpa using hhere)]
          simpa using hbelow

/-- Where a directory can be made that is not there yet, its path leads to nothing. -/
theorem locate_of_makeDirectories {path : String} (hne : path ≠ "")
    (h : d.makeDirectories path = (.ok (), d')) (hd : d.leadsToDirectory path = false) :
    d.locate path = .error .missing ∨ ∃ p, d.locate path = .ok p ∧ d.node? p = none := by
  rw [makeDirectories, String.isEmpty_eq_false_iff.2 hne] at h
  exact locate_of_makeWithin h hd

/-- The path of a directory that has been made leads to it. -/
theorem leadsToDirectory_makeDirectories {path : String} (hne : path ≠ "")
    (h : d.makeDirectories path = (.ok (), d')) : d'.leadsToDirectory path = true := by
  rw [makeDirectories, String.isEmpty_eq_false_iff.2 hne] at h
  exact leadsToDirectory_of_makeWithin h

/-- What is made is on the way to the place the path leads to. -/
theorem grown_makeDirectories {path : String} (hback : ".." ∉ Path.names path)
    (h : d.makeDirectories path = (.ok (), d')) : Grown d d' (d.goal path) := by
  unfold makeDirectories at h
  split at h
  · cases h
    exact .refl d _
  · exact grown_of_makeWithin rfl hback rfl h

/-- A directory that is there already is not made again. -/
theorem makeDirectories_of_leadsToDirectory {path : String}
    (h : d.leadsToDirectory path = true) : d.makeDirectories path = (.ok (), d) := by
  unfold makeDirectories
  split
  · rfl
  · exact makeWithin_of_leadsToDirectory h

/-- **A directory that has just been made is empty**: on a tree nothing stands inside it, if
its path never leads back up. -/
theorem vacant_makeDirectories (htree : d.IsTree) {path : String} (hne : path ≠ "")
    (hback : ".." ∉ Path.names path) (h : d.makeDirectories path = (.ok (), d'))
    (hd : d.leadsToDirectory path = false) :
    ∃ p, d'.locate path = .ok p ∧ d'.node? p = some .directory ∧
      ∀ name : String, d'.node? (name :: p) = none := by
  obtain ⟨p, hlocate, hp⟩ := leadsToDirectory_iff.1 (leadsToDirectory_makeDirectories hne h)
  have hgrown := grown_makeDirectories hback h
  have hgoal : p = d.goal path := by
    rw [eq_goal_of_locate hback hlocate, goal, goal, origin, origin, hgrown.working_eq]
  have hnone : d.node? (d.goal path) = none := by
    rcases locate_of_makeDirectories hne h hd with hmissing | ⟨q, hq, hnone⟩
    · rw [locate_eq_base (checkPath_of_locate_missing hne hmissing)] at hmissing
      exact htree.node?_of_walk_missing hback hmissing
    · rwa [← eq_goal_of_locate hback hq]
  refine ⟨p, hlocate, hp, fun name => ?_⟩
  rw [hgoal]
  rcases hgrown.node?_eq (name :: d.goal path) with hsame | ⟨-, -, hway⟩
  · rw [hsame]
    exact htree.node?_append hnone [name]
  · exact absurd hway.length_le (by simp)

end Disk

end DeskCalculator
