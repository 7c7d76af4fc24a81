import DeskCalculator.Proofs.Disk.Unmade
import DeskCalculator.Proofs.Storage.Crash

/-!
What each step of a write does.

A step either fails and leaves everything as it is or acts right below the place of the directory,
under a name of the key, provided that the key is no path. The directory itself is made along its
path, and that may come to an end before it is there.

* `snd_prepare`, `fill_cases`, `commit_cases`, `dropKey_cases`: the single steps. The temporary
  path of a single point is that of the directory above, which on a tree is no file.
* `mem_stages_cases`: the stages of a write, and `putKey_of_error`: where one that fails ends.
* `find?_of_making`, `find?_fill`, `find?_commit`, `find?_dropKey`: under which keys the same is
  found after a step as before, and `find?_putKey`: after a whole write.
-/

namespace DeskCalculator

namespace DirectoryStorage

variable {s s' : DirectoryStorage} {p q : Place} {key key' text : String}

/-! ### Single steps -/

lemma Opened.place_eq (h : s.Opened p) (h' : s.Opened q) : p = q :=
  Except.ok.inj (h.base_eq.symm.trans h'.base_eq)

/-- A name in the directory that leads somewhere leads right below the place of the directory. -/
lemma exists_opened_of_locateFile {name : String} (hname : Disk.IsPlain name)
    (h : s.disk.locateFile (Path.join s.directory name) = .ok q) :
    ∃ p, s.Opened p ∧ q = name :: p := by
  obtain ⟨hnul, p, hbase, hdir, rfl⟩ := Disk.locateFile_join_eq_ok hname h
  exact ⟨p, ⟨hnul, hbase, hdir⟩, rfl⟩

/-- The directory is made as far as it can be. -/
lemma snd_prepare (s : DirectoryStorage) :
    s.prepare.2 = { s with disk := (s.disk.makeDirectories s.directory).2 } := by
  rw [prepare]
  split <;> simp_all

lemma isTree_prepare (htree : s.disk.IsTree) : s.prepare.2.disk.IsTree := by
  rw [snd_prepare]
  exact htree.makeDirectories s.directory

/-- The temporary file is filled right below the place of the directory, where no directory
stands. -/
lemma fill_cases (hslash : '/' ∉ key.toList) (hkey : key ≠ "." ∨ s.disk.IsTree)
    (contents : ByteArray) :
    (∃ e, s.fill key contents = (.error e, s)) ∨
      ∃ p, key ≠ "." ∧ s.Opened p ∧ s.disk.node? (temporaryName key :: p) ≠ some .directory ∧
        s.fill key contents
          = (.ok (), { s with disk := s.disk.put (temporaryName key :: p) (.file contents) }) := by
  dsimp only [fill]
  cases hwrite : s.disk.write (temporaryOf s.directory key) contents with
  | error t => exact Or.inl ⟨_, rfl⟩
  | ok disk =>
      obtain ⟨q, hlocate, hq, rfl⟩ := Disk.write_eq_ok_iff.1 hwrite
      by_cases hpoint : key = "."
      · -- on a tree the directory above is in the way
        subst hpoint
        rw [temporaryOf_point] at hlocate
        have htree := hkey.resolve_left fun h => h rfl
        exact absurd (htree.node?_of_locateFile_above hlocate) hq
      · rw [temporaryOf_eq _ hslash hpoint] at hlocate
        obtain ⟨p, hopened, rfl⟩ :=
          exists_opened_of_locateFile (isPlain_temporaryName hslash) hlocate
        exact Or.inr ⟨p, hpoint, hopened, hq, rfl⟩

lemma exists_of_fill (hslash : '/' ∉ key.toList) (hkey : key ≠ "." ∨ s.disk.IsTree)
    {contents : ByteArray} (h : s.fill key contents = (.ok (), s')) :
    key ≠ "." ∧ ∃ p, s.Opened p ∧ s.disk.node? (temporaryName key :: p) ≠ some .directory ∧
      s' = { s with disk := s.disk.put (temporaryName key :: p) (.file contents) } := by
  rcases fill_cases hslash hkey contents with ⟨e, he⟩ | ⟨p, hpoint, hopened, hvacant, hfill⟩
  · cases (Prod.mk.inj (he.symm.trans h)).1
  · exact ⟨hpoint, p, hopened, hvacant, (Prod.mk.inj (h.symm.trans hfill)).2⟩

lemma node?_of_fill (hslash : '/' ∉ key.toList) (hkey : key ≠ "." ∨ s.disk.IsTree)
    {contents : ByteArray} (h : s.fill key contents = (.ok (), s')) (hopened : s'.Opened p) :
    s'.disk.node? (temporaryName key :: p) = some (.file contents) := by
  obtain ⟨-, p', hopened', hvacant, rfl⟩ := exists_of_fill hslash hkey h
  obtain rfl := hopened.place_eq (hopened'.put_file hvacant contents)
  rw [Disk.node?_put _ _ _ _ (List.cons_ne_nil _ _), beq_self_eq_true, if_pos rfl]

/-- The temporary file takes the place of the file. -/
lemma commit_cases (hslash : '/' ∉ key.toList) (hpoint : key ≠ ".") :
    (∃ e, s.commit key = (.error e, s)) ∨
      ∃ p contents, s.Opened p ∧
        s.disk.node? (temporaryName key :: p) = some (.file contents) ∧
        s.disk.node? (fileName key :: p) ≠ some .directory ∧
        s.commit key = (.ok (), { s with disk :=
          (s.disk.erase (temporaryName key :: p)).put (fileName key :: p) (.file contents) }) := by
  dsimp only [commit]
  cases hrename : s.disk.rename (temporaryOf s.directory key) (fileOf s.directory key) with
  | error t => exact Or.inl ⟨_, rfl⟩
  | ok disk =>
      obtain ⟨q, q', contents, hlocate, hlocate', hfile, hq', rfl⟩ :=
        Disk.rename_eq_ok_iff.1 hrename
      rw [temporaryOf_eq _ hslash hpoint] at hlocate
      obtain ⟨p, hopened, rfl⟩ :=
        exists_opened_of_locateFile (isPlain_temporaryName hslash) hlocate
      obtain ⟨p', hopened', rfl⟩ := exists_opened_of_locateFile (isPlain_fileName hslash) hlocate'
      obtain rfl := hopened.place_eq hopened'
      exact Or.inr ⟨p, contents, hopened, hfile, hq', rfl⟩

/-- The file for a key is removed, and nothing else is. -/
lemma dropKey_cases (hslash : '/' ∉ key.toList) :
    (s.dropKey key).2 = s ∨
      ∃ p contents, s.Opened p ∧ s.disk.node? (fileName key :: p) = some (.file contents) ∧
        s.dropKey key = (.ok (), { s with disk := s.disk.erase (fileName key :: p) }) := by
  unfold dropKey
  dsimp only
  cases hremove : s.disk.remove (fileOf s.directory key) with
  | error t => cases t <;> exact Or.inl rfl
  | ok disk =>
      obtain ⟨q, contents, hlocate, hfile, rfl⟩ := Disk.remove_eq_ok_iff.1 hremove
      obtain ⟨p, hopened, rfl⟩ := exists_opened_of_locateFile (isPlain_fileName hslash) hlocate
      exact Or.inr ⟨p, contents, hopened, hfile, rfl⟩

/-- What stands somewhere once the temporary file has taken the place of the file. -/
lemma node?_commit (s : DirectoryStorage) (p : Place) (key : String) (contents : ByteArray)
    (q : Place) :
    ((s.disk.erase (temporaryName key :: p)).put (fileName key :: p) (.file contents)).node? q =
      if q = fileName key :: p then some (.file contents)
      else if q = temporaryName key :: p then none
      else s.disk.node? q := by
  rw [Disk.node?_put _ _ _ _ (List.cons_ne_nil _ _), Disk.node?_erase _ _ _ (List.cons_ne_nil _ _)]
  simp only [beq_iff_eq]

lemma Opened.commit (h : s.Opened p) {contents : ByteArray}
    (htemporary : s.disk.node? (temporaryName key :: p) = some (.file contents))
    (hfile : s.disk.node? (fileName key :: p) ≠ some .directory) :
    Opened { s with disk :=
      (s.disk.erase (temporaryName key :: p)).put (fileName key :: p) (.file contents) } p := by
  refine h.of_disk rfl fun q hq => ?_
  rw [node?_commit, if_neg, if_neg, hq]
  · rintro rfl
    rw [htemporary] at hq
    cases hq
  · rintro rfl
    exact hfile hq

/-! ### Whole writes -/

/-- A write ends with the step that fails, or with the rename. -/
lemma putKey_cases (s : DirectoryStorage) (key text : String) :
    (∃ e, s.putKey key text = (.error e, s.prepare.2)) ∨
      (∃ e, s.putKey key text = (.error e, (s.prepare.2.fill key text.toUTF8).2)) ∨
      ∃ filled, s.prepare.2.fill key text.toUTF8 = (.ok (), filled) ∧
        s.putKey key text = filled.commit key := by
  rw [putKey]
  generalize s.prepare = prepared
  obtain ⟨outcome, prepared⟩ := prepared
  cases outcome with
  | error e => exact Or.inl ⟨e, rfl⟩
  | ok u =>
      rw [andThen]
      dsimp only
      generalize prepared.fill key text.toUTF8 = filled
      obtain ⟨outcome, filled⟩ := filled
      cases outcome with
      | error e => exact Or.inr (Or.inl ⟨e, rfl⟩)
      | ok u => exact Or.inr (Or.inr ⟨filled, rfl, by rw [andThen]⟩)

lemma snd_putKey_mem_stages (s : DirectoryStorage) (key text : String) :
    (s.putKey key text).2 ∈ s.stages key text := by
  rw [stages, List.mem_append, List.mem_singleton]
  exact Or.inr rfl

/-- A stage of a write is one where the directory is being made, one where the temporary file has
been filled with something, or the one behind the rename. -/
lemma mem_stages_cases (h : s' ∈ s.stages key text) :
    (∃ disk ∈ s.disk.directoryStages s.directory, s' = { s with disk }) ∨
      (∃ contents, s' = (s.prepare.2.fill key contents).2) ∨
      ∃ filled, s.prepare.2.fill key text.toUTF8 = (.ok (), filled) ∧
        s' = (filled.commit key).2 := by
  rw [stages, List.mem_append, List.mem_append, List.mem_singleton] at h
  rcases h with (h | h) | rfl
  · obtain ⟨disk, hdisk, rfl⟩ := List.mem_map.1 h
    exact Or.inl ⟨disk, hdisk, rfl⟩
  · split at h
    · case _ prepared hprepare =>
        obtain ⟨n, -, rfl⟩ := List.mem_map.1 h
        exact Or.inr (Or.inl ⟨_, by rw [hprepare]⟩)
    · cases h
  · rcases s.putKey_cases key text with ⟨e, he⟩ | ⟨e, he⟩ | ⟨filled, hfill, he⟩
    · refine Or.inl ⟨_, s.disk.makeDirectories_mem_directoryStages s.directory, ?_⟩
      rw [he, ← snd_prepare]
    · exact Or.inr (Or.inl ⟨_, by rw [he]⟩)
    · exact Or.inr (Or.inr ⟨filled, hfill, by rw [he]⟩)

/-! ### What is found -/

lemma find?_of_making (htree : s.disk.IsTree) (hplain : s.disk.EndsPlainly s.directory)
    (hname : Disk.IsName (fileName key)) {disk : Disk}
    (hdisk : disk ∈ s.disk.directoryStages s.directory) :
    Storage.find? ({ s with disk } : DirectoryStorage) key = Storage.find? s key :=
  find?_congr_of_read rfl (htree.read_join_of_mem_directoryStages hplain hdisk hname)

lemma find?_prepare (htree : s.disk.IsTree) (hplain : s.disk.EndsPlainly s.directory)
    (hname : Disk.IsName (fileName key)) :
    Storage.find? s.prepare.2 key = Storage.find? s key := by
  rw [snd_prepare]
  exact find?_of_making htree hplain hname (s.disk.makeDirectories_mem_directoryStages s.directory)

/-- No temporary file is found under a key. -/
lemma find?_fill (hslash : '/' ∉ key.toList) (hkey : key ≠ "." ∨ s.disk.IsTree)
    (hname : Disk.IsName (fileName key')) (contents : ByteArray) :
    Storage.find? (s.fill key contents).2 key' = Storage.find? s key' := by
  rcases fill_cases hslash hkey contents with ⟨e, he⟩ | ⟨p, -, hopened, hvacant, hfill⟩
  · rw [he]
  · rw [hfill]
    refine hopened.find?_congr (hopened.put_file hvacant contents) rfl hname ?_
    rw [Disk.node?_put _ _ _ _ (List.cons_ne_nil _ _), if_neg]
    rw [beq_iff_eq]
    exact fun he => temporaryName_ne_fileName key key' (List.cons.inj he).1.symm

/-- The file of another key is none of those that the rename concerns. -/
lemma find?_commit (hslash : '/' ∉ key.toList) (hpoint : key ≠ ".") (hne : key' ≠ key)
    (hname : Disk.IsName (fileName key')) :
    Storage.find? (s.commit key).2 key' = Storage.find? s key' := by
  rcases commit_cases hslash hpoint with
    ⟨e, he⟩ | ⟨p, contents, hopened, htemporary, hfile, hcommit⟩
  · rw [he]
  · rw [hcommit]
    refine hopened.find?_congr (hopened.commit htemporary hfile) rfl hname ?_
    rw [node?_commit, if_neg, if_neg]
    · exact fun he => temporaryName_ne_fileName key key' (List.cons.inj he).1.symm
    · exact fun he => hne (fileName_injective (List.cons.inj he).1)

lemma find?_dropKey (hslash : '/' ∉ key.toList) (hne : key' ≠ key)
    (hname : Disk.IsName (fileName key')) :
    Storage.find? (s.dropKey key).2 key' = Storage.find? s key' := by
  rcases dropKey_cases hslash with he | ⟨p, contents, hopened, hfile, hdrop⟩
  · rw [he]
  · rw [hdrop]
    have hnode : s.disk.node? (fileName key :: p) ≠ some .directory := by
      rw [hfile]
      simp
    refine hopened.find?_congr (hopened.of_disk rfl fun _ => Disk.node?_erase_file hnode) rfl
      hname ?_
    rw [Disk.node?_erase _ _ _ (List.cons_ne_nil _ _), if_neg]
    rw [beq_iff_eq]
    exact fun he => hne (fileName_injective (List.cons.inj he).1)

lemma find?_putKey (htree : s.disk.IsTree) (hplain : s.disk.EndsPlainly s.directory)
    (hslash : '/' ∉ key.toList) (hne : key' ≠ key) (hname : Disk.IsName (fileName key'))
    (text : String) : Storage.find? (s.putKey key text).2 key' = Storage.find? s key' := by
  have htree' := isTree_prepare htree
  have hfill := find?_fill hslash (Or.inr htree') hname text.toUTF8
  rw [← find?_prepare htree hplain hname]
  rcases s.putKey_cases key text with ⟨e, he⟩ | ⟨e, he⟩ | ⟨filled, hfilled, he⟩
  · rw [he]
  · rw [he, hfill]
  · have hpoint := (exists_of_fill hslash (Or.inr htree') hfilled).1
    rw [hfilled] at hfill
    rw [he, find?_commit hslash hpoint hne hname, hfill]

end DirectoryStorage

end DeskCalculator
