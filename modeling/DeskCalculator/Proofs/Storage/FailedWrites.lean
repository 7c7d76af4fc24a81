import DeskCalculator.Proofs.Storage.Effects

/-!
Writes that fail.

A write has several steps, and what the first of them did stays when a later one fails: new
directories, and a temporary file. Nothing of that is found under any key.

* `InsertFailsQuietly`, `EraseFailsQuietly`, `FailsQuietly`: a storage where writes of one kind, of
  the other, or of both change no answer when they fail, and so no logbook that is read from it.
* `MemoryStorage.failsQuietly`: storage in memory is such.
* `DirectoryStorage.eraseFailsQuietly`, `DirectoryStorage.insertFailsQuietly`: storage in a
  directory is such for texts that are removed, and for texts that are put if the directory is on a
  tree and its path ends plainly.
* `failed_writes_change_no_answer`: the result.
* `failed_write_changes_answer`, `failed_write_changes_answer_of_long_name`: what becomes of it
  where the path does not end plainly.
-/

namespace DeskCalculator

/-! ### Storage of any kind -/

section

variable {σ : Type} [Storage σ] {s : σ} {keys : Set String}

/-- A text that cannot be put under one of some keys changes no answer under any of them, and
neither does a note that cannot be stored, so that a logbook is read as before. -/
structure InsertFailsQuietly (s : σ) (keys : Set String) : Prop where
  insert : ∀ key ∈ keys, ∀ text e s', Storage.insert s key text = (.error e, s') →
    ∀ key' ∈ keys, Storage.find? s' key' = Storage.find? s key'
  enter : ∀ book : Logbook, book.key ∈ keys → ∀ note e s',
    (book.enter s note).2 = (.error e, s') →
      ∀ key' ∈ keys, Logbook.stored key' s' = Logbook.stored key' s

/-- A text that cannot be removed under any of some keys changes no answer under them, and a
logbook that cannot be wiped is left as it is, with what is stored of it. -/
structure EraseFailsQuietly (s : σ) (keys : Set String) : Prop where
  erase : ∀ key ∈ keys, ∀ e s', Storage.erase s key = (.error e, s') →
    ∀ key' ∈ keys, Storage.find? s' key' = Storage.find? s key'
  wipe : ∀ book : Logbook, book.key ∈ keys → ∀ e s', (book.wipe s).2 = (.error e, s') →
    (book.wipe s).1 = book ∧ ∀ key' ∈ keys, Logbook.stored key' s' = Logbook.stored key' s

/-- Writes of either kind change nothing when they fail. -/
structure FailsQuietly (s : σ) (keys : Set String) : Prop
    extends InsertFailsQuietly s keys, EraseFailsQuietly s keys

/-- The logbooks that are read follow from the texts. -/
lemma InsertFailsQuietly.of_insert
    (hinsert : ∀ key ∈ keys, ∀ text e s', Storage.insert s key text = (.error e, s') →
      ∀ key' ∈ keys, Storage.find? s' key' = Storage.find? s key') :
    InsertFailsQuietly s keys :=
  ⟨hinsert, fun book hbook _ e s' h key' hkey' =>
    Logbook.stored_congr (hinsert book.key hbook _ e s' h key' hkey')⟩

lemma EraseFailsQuietly.of_erase
    (herase : ∀ key ∈ keys, ∀ e s', Storage.erase s key = (.error e, s') →
      ∀ key' ∈ keys, Storage.find? s' key' = Storage.find? s key') :
    EraseFailsQuietly s keys := by
  refine ⟨herase, fun book hbook e s' h => ?_⟩
  rw [Logbook.wipe] at h ⊢
  split at h
  · cases h
  · case _ e' s'' hfailed =>
      obtain rfl := (Prod.mk.inj h).2
      exact ⟨rfl, fun key' hkey' =>
        Logbook.stored_congr (herase book.key hbook e' s'' hfailed key' hkey')⟩

lemma EraseFailsQuietly.mono {keys' : Set String} (h : EraseFailsQuietly s keys)
    (hkeys : keys' ⊆ keys) : EraseFailsQuietly s keys' :=
  ⟨fun key hkey e s' he key' hkey' => h.erase key (hkeys hkey) e s' he key' (hkeys hkey'),
    fun book hbook e s' he =>
      ⟨(h.wipe book (hkeys hbook) e s' he).1,
        fun key' hkey' => (h.wipe book (hkeys hbook) e s' he).2 key' (hkeys hkey')⟩⟩

end

/-! ### Storage in memory -/

/-- Storage in memory that refuses a write stays as it is. -/
lemma MemoryStorage.failsQuietly (m : MemoryStorage) : FailsQuietly m Set.univ := by
  have hwrite {change : MemoryStorage → MemoryStorage} {e : StorageFailure} {m' : MemoryStorage}
      (h : m.write change = (.error e, m')) : m' = m := by
    rw [MemoryStorage.write] at h
    split at h
    · exact (Prod.mk.inj h).2.symm
    · cases h
  exact ⟨.of_insert fun key _ text e m' h key' _ => by rw [hwrite h],
    .of_erase fun key _ e m' h key' _ => by rw [hwrite h]⟩

namespace DirectoryStorage

variable {s s' : DirectoryStorage} {key text : String} {e : StorageFailure}

/-! ### Storage in a directory -/

/-- The keys that are no paths and not too long for the name of a file. -/
def shortKeys : Set String :=
  {key | '/' ∉ key.toList ∧ (fileName key).utf8ByteSize ≤ Disk.maxNameBytes}

lemma isName_of_mem_shortKeys (h : key ∈ shortKeys) : Disk.IsName (fileName key) :=
  (isPlain_fileName h.1).isName h.2

/-- A write that fails ends when the directory has been made as far as it can be, or has been
made and the temporary file filled as far as that can be. -/
lemma putKey_of_error (hslash : '/' ∉ key.toList) (htree : s.prepare.2.disk.IsTree)
    (h : s.putKey key text = (.error e, s')) :
    s' = s.prepare.2 ∨ s' = (s.prepare.2.fill key text.toUTF8).2 := by
  rcases s.putKey_cases key text with ⟨e', he'⟩ | ⟨e', he'⟩ | ⟨filled, hfill, hcommit⟩
  · exact Or.inl (Prod.mk.inj (h.symm.trans he')).2
  · exact Or.inr (Prod.mk.inj (h.symm.trans he')).2
  · -- the rename leaves all as it is when it fails
    refine Or.inr ?_
    rw [hfill]
    have hpoint := (exists_of_fill hslash (Or.inr htree) hfill).1
    rcases commit_cases hslash hpoint with ⟨e', he'⟩ | ⟨p, contents, -, -, -, hok⟩
    · exact (Prod.mk.inj (h.symm.trans (hcommit.trans he'))).2
    · cases (Prod.mk.inj (h.symm.trans (hcommit.trans hok))).1

/-- A file that cannot be removed stays. -/
lemma dropKey_of_error (h : s.dropKey key = (.error e, s')) : s' = s := by
  unfold dropKey at h
  dsimp only at h
  split at h
  · cases h
  · cases hremove : s.disk.remove (fileOf s.directory key) with
    | ok disk =>
        rw [hremove] at h
        cases h
    | error t =>
        rw [hremove] at h
        exact (Prod.mk.inj h).2.symm

/-- In any directory, and under any keys, files that cannot be removed change no answer. -/
lemma eraseFailsQuietly (s : DirectoryStorage) : EraseFailsQuietly s Set.univ := by
  refine .of_erase fun key _ e s' h key' _ => ?_
  change s.dropKey key = _ at h
  rw [dropKey_of_error h]

/-- On a tree, in a directory whose path ends plainly, texts that cannot be put change none. -/
lemma insertFailsQuietly (htree : s.disk.IsTree) (hplain : s.disk.EndsPlainly s.directory) :
    InsertFailsQuietly s shortKeys := by
  refine .of_insert fun key hkey text e s' h key' hkey' => ?_
  change s.putKey key text = _ at h
  have hname := isName_of_mem_shortKeys hkey'
  have htree' := isTree_prepare htree
  have hprepare := find?_prepare htree hplain hname
  rcases putKey_of_error hkey.1 htree' h with hs' | hs'
  · rw [hs', hprepare]
  · rw [hs', find?_fill hkey.1 (Or.inr htree') hname, hprepare]

end DirectoryStorage

open DirectoryStorage

/-- **A write that fails changes no answer.** Whatever stands in the way of the directory, of a
file or of a temporary file, an answer is the same text, none, or the same failure as before.

* A text that cannot be removed leaves every key with the answer it had, on any disk and in any
  directory. So a logbook that could not be wiped is left as it is, and so is what is stored of it.
* A text that cannot be put does so, too, under keys that are no paths, on any disk that is a tree
  of directories and files, where the path of the directory, behind the place where it comes to
  nothing, goes on with names that neither lead back up nor are too long. So the logbook that is
  read after a note could not be stored is the one that was stored before.
* It is the same with storage in memory that refuses writes, under any keys. -/
theorem failed_writes_change_no_answer (s : DirectoryStorage) (m : MemoryStorage) :
    EraseFailsQuietly s Set.univ ∧
    (s.disk.IsTree → s.disk.EndsPlainly s.directory → FailsQuietly s shortKeys) ∧
    FailsQuietly m Set.univ :=
  ⟨s.eraseFailsQuietly,
    fun htree hplain =>
      ⟨insertFailsQuietly htree hplain, s.eraseFailsQuietly.mono (Set.subset_univ _)⟩,
    m.failsQuietly⟩

/-- A temporary file that is a directory, in a directory that is there, and a file in the way of
one that is not. -/
theorem failed_writes_change_no_answer_of_obstacles :
    let s : DirectoryStorage := ⟨"store", ⟨[(["k.json", "store"], .file "old".toUTF8),
      (["k.json.tmp", "store"], .directory), (["store"], .directory)], []⟩⟩
    let t : DirectoryStorage := ⟨"x/store", ⟨[(["x"], .file "".toUTF8)], []⟩⟩
    ((Storage.insert s "k" "new").1 = .error (.disk "store/k.json.tmp" .isDirectory) ∧
      Storage.find? (Storage.insert s "k" "new").2 "k" = .ok (some "old")) ∧
    (Storage.insert t "k" "new").1 = .error (.disk "x/store" .notDirectory) ∧
      Storage.find? (Storage.insert t "k" "new").2 "k"
        = .error (.disk "x/store/k.json" .notDirectory) := by
  intro s t
  have hkey : "k" ∈ shortKeys := ⟨by decide, by decide⟩
  have hs := (failed_writes_change_no_answer s .empty).2.1
    (Disk.isTree_of_nodes (by simp [s, Disk.node?, List.lookup_cons]))
    (Disk.endsPlainly_of_names (by decide))
  have ht := (failed_writes_change_no_answer t .empty).2.1
    (Disk.isTree_of_nodes (by simp [t, Disk.node?, List.lookup_cons]))
    (Disk.endsPlainly_of_names (by decide))
  have hs' : (Storage.insert s "k" "new").1 = .error (.disk "store/k.json.tmp" .isDirectory) := by
    decide +kernel
  have ht' : (Storage.insert t "k" "new").1 = .error (.disk "x/store" .notDirectory) := by
    decide +kernel
  refine ⟨⟨hs', ?_⟩, ht', ?_⟩
  · rw [hs.insert "k" hkey "new" _ _ (Prod.ext hs' rfl) "k" hkey]
    decide +kernel
  · rw [ht.insert "k" hkey "new" _ _ (Prod.ext ht' rfl) "k" hkey]
    decide +kernel

/-- Where the path leads back up from a directory that is missing, a write that fails changes the
answer: the directory that it made brings a text to light. -/
theorem failed_write_changes_answer :
    let s : DirectoryStorage := ⟨"x/../store", ⟨[(["k.json", "store"], .file "old".toUTF8),
      (["k.json.tmp", "store"], .directory), (["store"], .directory)], []⟩⟩
    s.disk.IsTree ∧ "k" ∈ shortKeys ∧ Storage.find? s "k" = .ok none ∧
      (Storage.insert s "k" "new").1 = .error (.disk "x/../store/k.json.tmp" .isDirectory) ∧
      Storage.find? (Storage.insert s "k" "new").2 "k" = .ok (some "old") := by
  intro s
  refine ⟨Disk.isTree_of_nodes (by simp [s, Disk.node?, List.lookup_cons]), ⟨by decide, by decide⟩,
    ?_, ?_, ?_⟩
  all_goals decide +kernel

/-- Where it leads on to a name that is too long, it does so, too: no directory is made with that
name, but the one that is missing is, and from then on the long name is in the way. -/
theorem failed_write_changes_answer_of_long_name {name : String} (hname : Disk.IsPlain name)
    (hlong : Disk.maxNameBytes < name.utf8ByteSize)
    (hcheck : Disk.checkPath (Path.join "x" name) = .ok ())
    (hcheck' : Disk.checkPath (Path.join (Path.join "x" name) (fileName "k")) = .ok ())
    (text : String) :
    let t : DirectoryStorage := ⟨Path.join "x" name, ⟨[], []⟩⟩
    Storage.find? t "k" = .ok none ∧
      (Storage.insert t "k" text).1 = .error (.disk t.directory .nameTooLong) ∧
      Storage.find? (Storage.insert t "k" text).2 "k"
        = .error (.disk (fileOf t.directory "k") .nameTooLong) := by
  intro t
  have hkey : Disk.IsName (fileName "k") := (isPlain_fileName (by decide)).isName (by decide)
  have hnames : Path.names t.directory = ["x", name] :=
    Path.names_join hname.no_slash hname.ne_empty
  have horigin (d : Disk) (hd : d.working = []) : d.origin t.directory = [] := by
    rw [Disk.origin, hd, ite_self]
  have hbase : t.disk.base t.directory = .error .missing := by
    rw [Disk.base, hnames, horigin _ rfl]
    rfl
  have hbase' : (⟨[(["x"], .directory)], []⟩ : Disk).base t.directory = .error .nameTooLong := by
    rw [Disk.base, hnames, horigin _ rfl]
    simp [Disk.walk, Disk.node?, hname.ne_here, hname.ne_above, hlong]
  have hmake : t.disk.makeDirectories t.directory
      = (.error .nameTooLong, ⟨[(["x"], .directory)], []⟩) := by
    have hne : t.directory ≠ "" := (Disk.checkPath_eq_ok_iff.1 hcheck).2.2
    have hsteps : (Path.steps t.directory).reverse.tail = ["x"] := by
      rw [Path.steps, hnames]
      simp [hname.ne_here]
    have habove : t.disk.makeWithin false (Disk.pathOfNames false ["x"]) []
        = (.ok (), ⟨[(["x"], .directory)], []⟩) := rfl
    rw [Disk.makeDirectories, if_neg (by simpa using hne), hsteps,
      show Path.isAbsolute t.directory = false from Path.isAbsolute_join hname.no_slash,
      Disk.makeWithin,
      Disk.makeDirectory_eq_missing_iff.2 (by rwa [Disk.locate_eq_base hcheck]), habove]
    dsimp only
    rw [Disk.makeDirectory, Disk.locate_eq_base hcheck, hbase', error_bind, Disk.settle,
      Disk.leadsToDirectory, Disk.locate_eq_base hcheck, hbase']
    rfl
  have hinsert : Storage.insert t "k" text = (.error (.disk t.directory .nameTooLong),
      ⟨t.directory, ⟨[(["x"], .directory)], []⟩⟩) := by
    change t.putKey "k" text = _
    rw [putKey, prepare, hmake]
    rfl
  rw [hinsert]
  refine ⟨find?_of_missing (Disk.read_join_of_comesToNothing hkey hcheck' (Or.inl hbase)), rfl, ?_⟩
  change lookup _ "k" = _
  unfold lookup
  dsimp only
  rw [Disk.readText, Disk.read, fileOf_eq, Disk.locateFile_join hkey hcheck', hbase']
  rfl

end DeskCalculator
