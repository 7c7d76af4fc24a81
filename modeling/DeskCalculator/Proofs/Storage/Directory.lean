import DeskCalculator.Proofs.Disk.Files
import DeskCalculator.Proofs.Storage.FileNames
import DeskCalculator.Proofs.Text.Bytes
import DeskCalculator.Storage.Memory

/-!
Storage in a directory answers as storage in memory does.

* `Opened`: the directory stands at a place, and the paths of a key lead inside it
  (`Opened.locateFile_file`, `Opened.locateFile_temporary`).
* `Mirrors`, `Awaits`: a directory with the texts of a storage in memory, and one that has
  still to be made for a storage in memory with nothing in it.
* `Mirrors.withText`, `Mirrors.dropped`, `Awaits.prepare`: what each write preserves.
* `Like`: either of the two. `Like.perform`: one access is answered alike and leaves them
  alike. `Like.run`: so it is with any accesses.
* `SamePlace`: no access changes the path of the directory or the working directory.
* `directory_answers_as_memory`: the result, with what is found under a key afterwards.
-/

namespace DeskCalculator

namespace DirectoryStorage

/-! ### The directory -/

variable {s : DirectoryStorage} {p : Place} {key : String}

/-- The directory stands at a place. -/
structure Opened (s : DirectoryStorage) (p : Place) : Prop where
  no_nul : '\x00' ∉ s.directory.toList
  base_eq : s.disk.base s.directory = .ok p
  node?_eq : s.disk.node? p = some .directory

namespace Opened

lemma of_disk (h : s.Opened p) {disk : Disk} (hworking : disk.working = s.disk.working)
    (hdir : ∀ q, s.disk.node? q = some .directory → disk.node? q = some .directory) :
    Opened { s with disk } p := by
  refine ⟨h.no_nul, ?_, hdir p h.node?_eq⟩
  have hbase := Disk.walk_mono hdir h.base_eq
  rwa [Disk.origin, ← hworking] at hbase

lemma put_file (h : s.Opened p) {q : Place} (hq : s.disk.node? q ≠ some .directory)
    (contents : ByteArray) : Opened { s with disk := s.disk.put q (.file contents) } p :=
  h.of_disk rfl fun _ hdir => Disk.node?_put_file hq contents hdir

/-- A name in the directory leads to the place below it. -/
lemma locateFile_join (h : s.Opened p) {name : String} (hname : Disk.IsName name)
    (hcheck : Disk.checkPath (Path.join s.directory name) = .ok ()) :
    s.disk.locateFile (Path.join s.directory name) = .ok (name :: p) := by
  rw [Disk.locateFile_join hname hcheck, h.base_eq, ok_bind, Disk.walk_name h.node?_eq hname]

lemma locateFile_file (h : s.Opened p) (hfits : Fits s.directory key) :
    s.disk.locateFile (fileOf s.directory key) = .ok (fileName key :: p) :=
  h.locateFile_join hfits.isName_file (hfits.checkPath_file h.no_nul)

lemma locateFile_temporary (h : s.Opened p) (hfits : Fits s.directory key) :
    s.disk.locateFile (temporaryOf s.directory key) = .ok (temporaryName key :: p) := by
  rw [temporaryOf_eq s.directory hfits.no_slash hfits.not_point]
  exact h.locateFile_join hfits.isName_temporary (hfits.checkPath_temporary h.no_nul)

lemma leadsToDirectory (h : s.Opened p) (hfits : Fits s.directory key) (hne : s.directory ≠ "") :
    s.disk.leadsToDirectory s.directory = true := by
  refine Disk.leadsToDirectory_iff.2 ⟨p, ?_, h.node?_eq⟩
  rw [Disk.locate_eq_base (Disk.checkPath_eq_ok_iff.2 ⟨h.no_nul, hfits.directory_le, hne⟩)]
  exact h.base_eq

lemma prepare_eq (h : s.Opened p) (hfits : Fits s.directory key) : s.prepare = (.ok (), s) := by
  have hmake : s.disk.makeDirectories s.directory = (.ok (), s.disk) := by
    by_cases hempty : s.directory = ""
    · rw [hempty]
      rfl
    · exact Disk.makeDirectories_of_leadsToDirectory (h.leadsToDirectory hfits hempty)
  rw [prepare, hmake]

/-- Filling the temporary file, which is no directory. -/
lemma fill_eq (h : s.Opened p) (hfits : Fits s.directory key)
    (htemporary : s.disk.node? (temporaryName key :: p) ≠ some .directory)
    (contents : ByteArray) :
    s.fill key contents
      = (.ok (), { s with disk := s.disk.put (temporaryName key :: p) (.file contents) }) := by
  have hwrite : s.disk.write (temporaryOf s.directory key) contents
      = .ok (s.disk.put (temporaryName key :: p) (.file contents)) := by
    rw [Disk.write, h.locateFile_temporary hfits, ok_bind]
    split
    · case _ hdir => exact absurd hdir htemporary
    · rfl
  simp only [fill, after, hwrite]

/-- Renaming the temporary file to the file, which is no directory either. -/
lemma commit_eq (h : s.Opened p) (hfits : Fits s.directory key) {contents : ByteArray}
    (htemporary : s.disk.node? (temporaryName key :: p) = some (.file contents))
    (hfile : s.disk.node? (fileName key :: p) ≠ some .directory) :
    s.commit key = (.ok (), { s with disk :=
      (s.disk.erase (temporaryName key :: p)).put (fileName key :: p) (.file contents) }) := by
  have hrename : s.disk.rename (temporaryOf s.directory key) (fileOf s.directory key)
      = .ok ((s.disk.erase (temporaryName key :: p)).put (fileName key :: p)
          (.file contents)) := by
    rw [Disk.rename, h.locateFile_temporary hfits, ok_bind, h.locateFile_file hfits, ok_bind,
      htemporary]
    split <;> simp_all
  simp only [commit, after, hrename]

end Opened

/-! ### The files of the keys -/

/-- The file for a key holds a text, or is missing when there is none. -/
def Holds (s : DirectoryStorage) (p : Place) (key : String) : Option String → Prop
  | none => s.disk.node? (fileName key :: p) = none
  | some text => ∃ contents, s.disk.node? (fileName key :: p) = some (.file contents) ∧
      String.fromUTF8? contents = some text

lemma Holds.ne_directory {text? : Option String} (h : s.Holds p key text?) :
    s.disk.node? (fileName key :: p) ≠ some .directory := by
  cases text? with
  | none =>
      rw [show s.disk.node? (fileName key :: p) = none from h]
      simp
  | some text =>
      obtain ⟨contents, hnode, -⟩ := h
      simp [hnode]

lemma Holds.congr {s' : DirectoryStorage} {text? : Option String} (h : s.Holds p key text?)
    (hnode : s'.disk.node? (fileName key :: p) = s.disk.node? (fileName key :: p)) :
    s'.Holds p key text? := by
  cases text? with
  | none => exact hnode.trans h
  | some text =>
      obtain ⟨contents, hfile, htext⟩ := h
      exact ⟨contents, hnode.trans hfile, htext⟩

/-- What is found under a key is what its file holds. -/
lemma Opened.lookup_eq (h : s.Opened p) (hfits : Fits s.directory key) {text? : Option String}
    (hholds : s.Holds p key text?) : s.lookup key = .ok text? := by
  unfold lookup
  rw [Disk.readText, Disk.read, h.locateFile_file hfits, ok_bind]
  cases text? with
  | none =>
      rw [show s.disk.node? (fileName key :: p) = none from hholds]
      rfl
  | some text =>
      obtain ⟨contents, hnode, htext⟩ := hholds
      rw [hnode]
      simp [htext]

/-- The storage after a text has been put under a key. -/
def withText (s : DirectoryStorage) (p : Place) (key text : String) : DirectoryStorage :=
  { s with disk :=
      ((s.disk.put (temporaryName key :: p) (.file text.toUTF8)).erase
        (temporaryName key :: p)).put (fileName key :: p) (.file text.toUTF8) }

/-- The file holds the text, the temporary file is gone, and nothing else moves. -/
lemma node?_withText (s : DirectoryStorage) (p : Place) (key text : String) (q : Place) :
    (s.withText p key text).disk.node? q =
      if q = fileName key :: p then some (.file text.toUTF8)
      else if q = temporaryName key :: p then none
      else s.disk.node? q := by
  have hfile : fileName key :: p ≠ [] := List.cons_ne_nil _ _
  have htemporary : temporaryName key :: p ≠ [] := List.cons_ne_nil _ _
  rw [withText, Disk.node?_put _ _ _ _ hfile, Disk.node?_erase _ _ _ htemporary,
    Disk.node?_put _ _ _ _ htemporary]
  simp only [beq_iff_eq]
  split_ifs <;> rfl

lemma Opened.withText (h : s.Opened p)
    (htemporary : s.disk.node? (temporaryName key :: p) ≠ some .directory)
    (hfile : s.disk.node? (fileName key :: p) ≠ some .directory) (text : String) :
    (s.withText p key text).Opened p := by
  refine h.of_disk rfl fun q hq => ?_
  change (s.withText p key text).disk.node? q = _
  rw [node?_withText, if_neg, if_neg, hq]
  · rintro rfl
    exact htemporary hq
  · rintro rfl
    exact hfile hq

/-- Putting a text under a key: the directory, the temporary file and the rename. -/
lemma Opened.putKey_eq (h : s.Opened p) (hfits : Fits s.directory key)
    (htemporary : s.disk.node? (temporaryName key :: p) ≠ some .directory)
    (hfile : s.disk.node? (fileName key :: p) ≠ some .directory) (text : String) :
    s.putKey key text = (.ok (), s.withText p key text) := by
  have hne : fileName key :: p ≠ temporaryName key :: p :=
    fun he => temporaryName_ne_fileName key key (List.cons.inj he).1.symm
  have hput : ∀ q, (s.disk.put (temporaryName key :: p) (.file text.toUTF8)).node? q
      = if q = temporaryName key :: p then some (.file text.toUTF8) else s.disk.node? q := by
    intro q
    rw [Disk.node?_put _ _ _ _ (List.cons_ne_nil _ _)]
    simp
  have hfilled := h.put_file htemporary text.toUTF8
  rw [putKey, h.prepare_eq hfits, andThen, h.fill_eq hfits htemporary, andThen]
  exact hfilled.commit_eq hfits (by rw [hput, if_pos rfl]) (by rw [hput, if_neg hne]; exact hfile)

lemma Opened.dropKey_eq (h : s.Opened p) (hfits : Fits s.directory key) {text? : Option String}
    (hholds : s.Holds p key text?) :
    s.dropKey key = (.ok (),
      { s with disk := if text?.isSome then s.disk.erase (fileName key :: p) else s.disk }) := by
  unfold dropKey
  dsimp only
  rw [Disk.remove, h.locateFile_file hfits, ok_bind]
  cases text? with
  | none =>
      rw [show s.disk.node? (fileName key :: p) = none from hholds]
      rfl
  | some text =>
      obtain ⟨contents, hnode, -⟩ := hholds
      rw [hnode]
      rfl

/-! ### A directory with the texts of a storage in memory -/

variable {keys : Set String} {m : MemoryStorage}

/-- The directory stands at a place, the files of the keys in use hold what the storage in
memory has, and no temporary file of theirs is a directory. -/
structure Mirrors (s : DirectoryStorage) (keys : Set String) (p : Place) (m : MemoryStorage) :
    Prop extends Opened s p where
  holds : ∀ key ∈ keys, s.Holds p key (m.lookup key)
  temporary : ∀ key ∈ keys, s.disk.node? (temporaryName key :: p) ≠ some .directory

namespace Mirrors

/-- Putting a text under a key in both keeps them alike. -/
lemma withText (h : s.Mirrors keys p m) (hkey : key ∈ keys) (text : String) :
    (s.withText p key text).Mirrors keys p (m.putKey key text) := by
  have hopened : (s.withText p key text).Opened p :=
    h.toOpened.withText (h.temporary key hkey) (h.holds key hkey).ne_directory text
  refine ⟨hopened, fun key' hkey' => ?_, fun key' hkey' => ?_⟩
  · rw [MemoryStorage.lookup_putKey]
    by_cases hk : key' = key
    · subst hk
      rw [beq_self_eq_true, if_pos rfl]
      exact ⟨_, by rw [node?_withText, if_pos rfl], fromUTF8?_toUTF8 text⟩
    · rw [if_neg (by simpa using hk)]
      refine (h.holds key' hkey').congr ?_
      rw [node?_withText, if_neg, if_neg]
      · exact fun he => temporaryName_ne_fileName key key' (List.cons.inj he).1.symm
      · exact fun he => hk (fileName_injective (List.cons.inj he).1)
  · rw [node?_withText, if_neg]
    · split
      · simp
      · exact h.temporary key' hkey'
    · exact fun he => temporaryName_ne_fileName key' key (List.cons.inj he).1

lemma dropped (h : s.Mirrors keys p m) (hkey : key ∈ keys) :
    Mirrors { s with disk :=
      if (m.lookup key).isSome then s.disk.erase (fileName key :: p) else s.disk }
      keys p (m.dropKey key) := by
  generalize hdisk : (if (m.lookup key).isSome then s.disk.erase (fileName key :: p)
    else s.disk) = disk
  have hworking : disk.working = s.disk.working := by
    rw [← hdisk]
    split <;> rfl
  have hnode : ∀ q, disk.node? q = if q = fileName key :: p then none else s.disk.node? q := by
    intro q
    have hfile := h.holds key hkey
    rw [← hdisk]
    cases hlookup : m.lookup key with
    | none =>
        rw [hlookup] at hfile
        rw [Option.isSome_none, if_neg Bool.false_ne_true]
        split
        case isTrue hq => exact hq ▸ hfile
        case isFalse => rfl
    | some text =>
        rw [Option.isSome_some, if_pos rfl, Disk.node?_erase _ _ _ (List.cons_ne_nil _ _)]
        simp
  have hopened : Opened { s with disk } p := by
    refine h.of_disk hworking fun q hq => ?_
    rw [hnode, if_neg, hq]
    rintro rfl
    exact (h.holds key hkey).ne_directory hq
  refine ⟨hopened, fun key' hkey' => ?_, fun key' hkey' => ?_⟩
  · rw [MemoryStorage.lookup_dropKey]
    by_cases hk : key' = key
    · subst hk
      rw [beq_self_eq_true, if_pos rfl]
      exact (hnode _).trans (if_pos rfl)
    · rw [if_neg (by simpa using hk)]
      refine (h.holds key' hkey').congr ?_
      exact (hnode _).trans (if_neg fun he => hk (fileName_injective (List.cons.inj he).1))
  · rw [hnode]
    split
    · simp
    · exact h.temporary key' hkey'

end Mirrors

/-- The directory is not there but can be made, by a path that never leads back up, and the
storage in memory has nothing under the keys in use. -/
structure Awaits (s : DirectoryStorage) (keys : Set String) (m : MemoryStorage) : Prop where
  isTree : s.disk.IsTree
  ne_empty : s.directory ≠ ""
  not_back : ".." ∉ Path.names s.directory
  absent : s.disk.leadsToDirectory s.directory = false
  creatable : (s.disk.makeDirectories s.directory).1 = .ok ()
  empty : ∀ key ∈ keys, m.lookup key = none

namespace Awaits

lemma locate (h : s.Awaits keys m) :
    s.disk.locate s.directory = .error .missing ∨
      ∃ p, s.disk.locate s.directory = .ok p ∧ s.disk.node? p = none :=
  Disk.locate_of_makeDirectories h.ne_empty (Prod.ext h.creatable rfl) h.absent

lemma locateFile_eq (h : s.Awaits keys m) (hfits : Fits s.directory key) :
    s.disk.locateFile (fileOf s.directory key) = .error .missing := by
  have hcheck : Disk.checkPath s.directory = .ok () := by
    rcases h.locate with hmissing | ⟨q, hq, -⟩
    · exact Disk.checkPath_of_locate_missing h.ne_empty hmissing
    · exact Disk.checkPath_of_locate hq
  rw [fileOf_eq, Disk.locateFile_join hfits.isName_file
    (hfits.checkPath_file (Disk.checkPath_eq_ok_iff.1 hcheck).1), ← Disk.locate_eq_base hcheck]
  rcases h.locate with hmissing | ⟨q, hq, hnone⟩
  · rw [hmissing, error_bind]
  · rw [hq, ok_bind, Disk.walk, hnone]

lemma prepare (h : s.Awaits keys m) :
    ∃ (disk : Disk) (p : Place), s.prepare = (.ok (), { s with disk }) ∧
      Mirrors { s with disk } keys p m := by
  obtain ⟨p, hlocate, hp, hvacant⟩ := Disk.vacant_makeDirectories h.isTree h.ne_empty h.not_back
    (Prod.ext h.creatable rfl) h.absent
  have hcheck := Disk.checkPath_of_locate hlocate
  refine ⟨(s.disk.makeDirectories s.directory).2, p, ?_, ⟨?_, ?_, hp⟩, fun key hkey => ?_,
    fun key hkey => ?_⟩
  · rw [DirectoryStorage.prepare, ← Prod.mk.eta (p := s.disk.makeDirectories s.directory),
      h.creatable]
  · exact (Disk.checkPath_eq_ok_iff.1 hcheck).1
  · rw [← Disk.locate_eq_base hcheck]
    exact hlocate
  · rw [h.empty key hkey]
    exact hvacant _
  · rw [hvacant]
    simp

lemma lookup_eq (h : s.Awaits keys m) (hfits : Fits s.directory key) : s.lookup key = .ok none := by
  unfold lookup
  rw [Disk.readText, Disk.read, h.locateFile_eq hfits]
  rfl

lemma dropKey_eq (h : s.Awaits keys m) (hfits : Fits s.directory key) :
    s.dropKey key = (.ok (), s) := by
  unfold dropKey
  dsimp only
  rw [Disk.remove, h.locateFile_eq hfits]
  rfl

end Awaits

/-! ### Any accesses -/

/-- A directory that answers as a storage in memory does: it has the same texts under the keys
in use, which fit, or has still to be made. -/
structure Like (s : DirectoryStorage) (keys : Set String) (m : MemoryStorage) : Prop where
  fits : ∀ key ∈ keys, Fits s.directory key
  writable : m.refusesWrites = false
  texts : (∃ p, s.Mirrors keys p m) ∨ s.Awaits keys m

namespace Like

lemma find?_eq (h : s.Like keys m) (hkey : key ∈ keys) :
    Storage.find? s key = .ok (m.lookup key) := by
  rcases h.texts with ⟨p, hmirrors⟩ | hawaits
  · exact hmirrors.lookup_eq (h.fits key hkey) (hmirrors.holds key hkey)
  · rw [hawaits.empty key hkey]
    exact hawaits.lookup_eq (h.fits key hkey)

/-- Putting a text under a key succeeds, keeps them alike and leaves no temporary file. -/
lemma insert (h : s.Like keys m) (hkey : key ∈ keys) (text : String) :
    ∃ s', Storage.insert s key text = (.ok (), s') ∧ s'.Like keys (m.putKey key text) ∧
      s'.disk.read (temporaryOf s.directory key) = .error .missing := by
  have hfits := h.fits key hkey
  -- the directory stands after the first step of the write, whether it did so before or not
  obtain ⟨disk, p, hprepare, hmirrors⟩ : ∃ (disk : Disk) (p : Place),
      s.prepare = (.ok (), { s with disk }) ∧ Mirrors { s with disk } keys p m := by
    rcases h.texts with ⟨p, hmirrors⟩ | hawaits
    · exact ⟨s.disk, p, hmirrors.prepare_eq hfits, hmirrors⟩
    · exact hawaits.prepare
  have hput : s.putKey key text =
      (.ok (), DirectoryStorage.withText { s with disk } p key text) := by
    rw [← hmirrors.putKey_eq hfits (hmirrors.temporary key hkey)
      (hmirrors.holds key hkey).ne_directory text, putKey, putKey, hprepare,
      hmirrors.prepare_eq hfits]
  have hafter := hmirrors.withText hkey text
  have hlocate : (DirectoryStorage.withText { s with disk } p key text).disk.locateFile
      (temporaryOf s.directory key) = .ok (temporaryName key :: p) :=
    hafter.locateFile_temporary hfits
  refine ⟨_, hput, ⟨h.fits, h.writable, Or.inl ⟨p, hafter⟩⟩, ?_⟩
  rw [Disk.read, hlocate, ok_bind, node?_withText, if_neg, if_pos rfl]
  exact fun he => temporaryName_ne_fileName key key (List.cons.inj he).1

/-- Removing the text under a key succeeds and keeps them alike. -/
lemma erase (h : s.Like keys m) (hkey : key ∈ keys) :
    ∃ s', Storage.erase s key = (.ok (), s') ∧ s'.Like keys (m.dropKey key) := by
  have hfits := h.fits key hkey
  rcases h.texts with ⟨p, hmirrors⟩ | hawaits
  · exact ⟨_, hmirrors.dropKey_eq hfits (hmirrors.holds key hkey),
      h.fits, h.writable, Or.inl ⟨p, hmirrors.dropped hkey⟩⟩
  · refine ⟨s, hawaits.dropKey_eq hfits, h.fits, h.writable,
      Or.inr { hawaits with empty := fun key' hkey' => ?_ }⟩
    rw [MemoryStorage.lookup_dropKey, hawaits.empty key' hkey', ite_self]

end Like

end DirectoryStorage

/-- An access to storage. -/
inductive Access where
  | find (key : String)
  | insert (key text : String)
  | erase (key : String)

/-- What an access answers: a text, if there is one, or that something has been written. -/
inductive Answer where
  | found (text? : Option String)
  | written

namespace Access

/-- The key of an access. -/
def key : Access → String
  | find key => key
  | insert key _ => key
  | erase key => key

/-- The answer to an access, and the storage afterwards. -/
def perform {σ : Type} [Storage σ] (s : σ) : Access → Except StorageFailure Answer × σ
  | find key => (.found <$> Storage.find? s key, s)
  | insert key text => (Storage.insert s key text).map ((fun _ => .written) <$> ·) id
  | erase key => (Storage.erase s key).map ((fun _ => .written) <$> ·) id

/-- The storage after accesses. -/
def afterAll {σ : Type} [Storage σ] (s : σ) (accesses : List Access) : σ :=
  accesses.foldl (fun s a => (a.perform s).2) s

/-- The answers to accesses. -/
def answers {σ : Type} [Storage σ] (s : σ) : List Access → List (Except StorageFailure Answer)
  | [] => []
  | a :: accesses => (a.perform s).1 :: answers (a.perform s).2 accesses

/-- The text under a key after an access. -/
def textAfter (key : String) (text? : Option String) : Access → Option String
  | find _ => text?
  | insert key' text => if key = key' then some text else text?
  | erase key' => if key = key' then none else text?

/-- The text under a key after accesses: the last one put under it, if it has not been
removed since. -/
def lastText (key : String) (text? : Option String) (accesses : List Access) : Option String :=
  accesses.foldl (textAfter key) text?

end Access

namespace DirectoryStorage

open Access

variable {s : DirectoryStorage} {keys : Set String} {m : MemoryStorage}

/-- One access is answered alike and leaves them alike. -/
lemma Like.perform (h : s.Like keys m) {a : Access} (ha : a.key ∈ keys) :
    (a.perform s).1 = (a.perform m).1 ∧ (a.perform s).2.Like keys (a.perform m).2 ∧
      ∀ key, (a.perform m).2.lookup key = textAfter key (m.lookup key) a := by
  have hwrite : ∀ change, m.write change = (.ok (), change m) := fun change => by
    rw [MemoryStorage.write, h.writable, if_neg Bool.false_ne_true]
  cases a with
  | find key =>
      have hs : Storage.find? s key = .ok (m.lookup key) := h.find?_eq ha
      refine ⟨?_, h, fun _ => rfl⟩
      rw [Access.perform, hs]
      rfl
  | insert key text =>
      obtain ⟨s', hs, hlike, -⟩ : ∃ s', Storage.insert s key text = (.ok (), s') ∧ _ :=
        h.insert ha text
      have hm : Storage.insert m key text = (.ok (), m.putKey key text) := hwrite _
      rw [Access.perform, Access.perform, hs, hm]
      exact ⟨rfl, hlike, fun key' => by simp [textAfter]⟩
  | erase key =>
      obtain ⟨s', hs, hlike⟩ : ∃ s', Storage.erase s key = (.ok (), s') ∧ _ := h.erase ha
      have hm : Storage.erase m key = (.ok (), m.dropKey key) := hwrite _
      rw [Access.perform, Access.perform, hs, hm]
      exact ⟨rfl, hlike, fun key' => by simp [textAfter]⟩

lemma Like.run (h : s.Like keys m) {accesses : List Access} (ha : ∀ a ∈ accesses, a.key ∈ keys) :
    answers s accesses = answers m accesses ∧
      (afterAll s accesses).Like keys (afterAll m accesses) ∧
      ∀ key, (afterAll m accesses).lookup key = lastText key (m.lookup key) accesses := by
  induction accesses generalizing s m with
  | nil => exact ⟨rfl, h, fun _ => rfl⟩
  | cons a accesses ih =>
      obtain ⟨hanswer, hlike, htext⟩ := h.perform (ha a List.mem_cons_self)
      obtain ⟨hanswers, hafter, hlast⟩ := ih hlike fun b hb => ha b (List.mem_cons_of_mem a hb)
      refine ⟨?_, hafter, fun key => ?_⟩
      · rw [answers, answers, hanswer, hanswers]
      · rw [afterAll, List.foldl_cons, ← afterAll, hlast, htext]
        rfl

/-- A storage in the same directory, with the same working directory. -/
structure SamePlace (s s' : DirectoryStorage) : Prop where
  directory_eq : s'.directory = s.directory
  working_eq : s'.disk.working = s.disk.working

namespace SamePlace

lemma refl (s : DirectoryStorage) : s.SamePlace s := ⟨rfl, rfl⟩

lemma trans {s' s'' : DirectoryStorage} (h : s.SamePlace s') (h' : s'.SamePlace s'') :
    s.SamePlace s'' :=
  ⟨h'.directory_eq.trans h.directory_eq, h'.working_eq.trans h.working_eq⟩

end SamePlace

lemma samePlace_after (s : DirectoryStorage) (path : String) {outcome : Except Trouble Disk}
    (h : ∀ disk, outcome = .ok disk → disk.working = s.disk.working) :
    s.SamePlace (s.after path outcome).2 := by
  cases outcome with
  | error t => exact .refl s
  | ok disk => exact ⟨rfl, h disk rfl⟩

lemma samePlace_andThen {first : Written DirectoryStorage}
    {next : DirectoryStorage → Written DirectoryStorage} (hfirst : s.SamePlace first.2)
    (hnext : ∀ s, SamePlace s (next s).2) : s.SamePlace (andThen first next).2 := by
  obtain ⟨outcome, s'⟩ := first
  cases outcome with
  | error e => exact hfirst
  | ok u => exact hfirst.trans (hnext s')

lemma samePlace_prepare (s : DirectoryStorage) : s.SamePlace s.prepare.2 := by
  have hworking := (Disk.More.makeDirectories s.disk s.directory).working_eq
  rw [prepare]
  split
  · case _ hmake =>
      rw [hmake] at hworking
      exact ⟨rfl, hworking⟩
  · case _ hmake =>
      rw [hmake] at hworking
      exact ⟨rfl, hworking⟩

lemma samePlace_fill (s : DirectoryStorage) (key : String) (contents : ByteArray) :
    s.SamePlace (s.fill key contents).2 := by
  dsimp only [fill]
  refine s.samePlace_after _ fun disk hdisk => ?_
  obtain ⟨p, -, -, rfl⟩ := Disk.write_eq_ok_iff.1 hdisk
  rfl

lemma samePlace_commit (s : DirectoryStorage) (key : String) :
    s.SamePlace (s.commit key).2 := by
  dsimp only [commit]
  refine s.samePlace_after _ fun disk hdisk => ?_
  obtain ⟨p, q, contents, -, -, -, -, rfl⟩ := Disk.rename_eq_ok_iff.1 hdisk
  rfl

lemma samePlace_putKey (s : DirectoryStorage) (key text : String) :
    s.SamePlace (s.putKey key text).2 := by
  rw [putKey]
  refine samePlace_andThen s.samePlace_prepare fun s => ?_
  exact samePlace_andThen (s.samePlace_fill key text.toUTF8) fun s => s.samePlace_commit key

lemma samePlace_dropKey (s : DirectoryStorage) (key : String) :
    s.SamePlace (s.dropKey key).2 := by
  unfold dropKey
  dsimp only
  split
  · exact .refl s
  · refine s.samePlace_after _ fun disk hdisk => ?_
    obtain ⟨p, contents, -, -, rfl⟩ := Disk.remove_eq_ok_iff.1 hdisk
    rfl

lemma samePlace_perform (s : DirectoryStorage) (a : Access) : s.SamePlace (a.perform s).2 := by
  cases a with
  | find key => exact .refl s
  | insert key text => exact s.samePlace_putKey key text
  | erase key => exact s.samePlace_dropKey key

lemma samePlace_afterAll (s : DirectoryStorage) (accesses : List Access) :
    s.SamePlace (afterAll s accesses) := by
  induction accesses generalizing s with
  | nil => exact .refl s
  | cons a accesses ih => exact (s.samePlace_perform a).trans (ih _)

/-- The text under a key depends on the accesses under that key alone. -/
lemma lastText_filter (key : String) (text? : Option String) (accesses : List Access) :
    lastText key text? (accesses.filter (·.key = key)) = lastText key text? accesses := by
  induction accesses generalizing text? with
  | nil => rfl
  | cons a accesses ih =>
      by_cases ha : a.key = key
      · rw [List.filter_cons_of_pos (by simpa using ha)]
        exact ih _
      · have hsame : textAfter key text? a = text? := by
          cases a with
          | find key' => rfl
          | insert key' text => exact if_neg fun h => ha h.symm
          | erase key' => exact if_neg fun h => ha h.symm
        rw [List.filter_cons_of_neg (by simpa using ha), ih, lastText, lastText, List.foldl_cons,
          hsame]

end DirectoryStorage

open DirectoryStorage Access in
/-- **Storage in a directory answers as storage in memory does**, whatever accesses there are
under keys that fit: whether the directory has the same texts or has still to be made. What is
found under a key is the last text put under it unless that has been removed, whatever is done
under other keys, whose files are none of its temporary files; and putting a text under a key
leaves no temporary file. -/
theorem directory_answers_as_memory {s : DirectoryStorage} {m : MemoryStorage}
    {keys : Set String} (h : s.Like keys m) {accesses : List Access}
    (ha : ∀ a ∈ accesses, a.key ∈ keys) :
    answers s accesses = answers m accesses ∧
      ∀ key ∈ keys,
        Storage.find? (afterAll s accesses) key = .ok (lastText key (m.lookup key) accesses) ∧
        Storage.find? (afterAll s accesses) key
          = Storage.find? (afterAll s (accesses.filter (·.key = key))) key ∧
        (∀ key' ∈ keys, temporaryOf s.directory key ≠ fileOf s.directory key') ∧
        ∀ text, ∃ s', Storage.insert (afterAll s accesses) key text = (.ok (), s') ∧
          s'.disk.read (temporaryOf s.directory key) = .error .missing := by
  obtain ⟨hanswers, hafter, htext⟩ := h.run ha
  refine ⟨hanswers, fun key hkey => ⟨?_, ?_, fun key' hkey' => ?_, fun text => ?_⟩⟩
  · rw [hafter.find?_eq hkey, htext]
  · have ha' : ∀ a ∈ accesses.filter (·.key = key), a.key ∈ keys :=
      fun a hmem => ha a (List.mem_of_mem_filter hmem)
    obtain ⟨-, hafter', htext'⟩ := h.run ha'
    rw [hafter.find?_eq hkey, hafter'.find?_eq hkey, htext, htext', lastText_filter]
  · exact temporaryOf_ne_fileOf (h.fits key hkey) (h.fits key' hkey')
  · obtain ⟨s', hinsert, -, hread⟩ := hafter.insert hkey text
    rw [(s.samePlace_afterAll accesses).directory_eq] at hread
    exact ⟨s', hinsert, hread⟩

open DirectoryStorage Access in
/-- A directory with a text under a key, and one that has still to be made. -/
theorem directory_answers_as_memory_of_two_keys :
    answers (⟨"/data", ⟨[(["a.json", "data"], .file "1".toUTF8), (["data"], .directory)], []⟩⟩ :
        DirectoryStorage)
      [.find "a", .insert "" "2", .erase "a", .find "", .find "a"]
      = [.ok (.found (some "1")), .ok .written, .ok .written, .ok (.found (some "2")),
          .ok (.found none)] ∧
    answers (⟨"data/store", ⟨[], []⟩⟩ : DirectoryStorage)
      [.erase "a", .insert "" "2", .find "", .find "a"]
      = [.ok .written, .ok .written, .ok (.found (some "2")), .ok (.found none)] := by
  have hthere : Like ⟨"/data", ⟨[(["a.json", "data"], .file "1".toUTF8), (["data"], .directory)],
      []⟩⟩ {"", "a"} ⟨[("a", "1")], false⟩ := by
    refine ⟨?_, rfl, Or.inl ⟨["data"], ⟨by decide, rfl, rfl⟩, ?_, ?_⟩⟩
    · rintro key (rfl | rfl) <;> decide
    · rintro key (rfl | rfl)
      · rfl
      · exact ⟨_, rfl, fromUTF8?_toUTF8 "1"⟩
    · rintro key (rfl | rfl) <;> exact fun h => by cases h
  have hmissing : Like ⟨"data/store", ⟨[], []⟩⟩ {"", "a"} .empty := by
    refine ⟨?_, rfl, Or.inr ⟨fun name p h => absurd rfl h, by decide, by decide, by decide, rfl,
      fun key _ => rfl⟩⟩
    rintro key (rfl | rfl) <;> decide
  exact ⟨(directory_answers_as_memory hthere (by simp [Access.key])).1.trans rfl,
    (directory_answers_as_memory hmissing (by simp [Access.key])).1.trans rfl⟩

open Access in
/-- A key that is a single point does not fit: its temporary path is that of the directory
above. -/
theorem directory_ne_memory_of_point :
    answers (⟨"store", ⟨[], []⟩⟩ : DirectoryStorage) [.insert "." "v"]
      = [.error (.disk "store/.." .isDirectory)] ∧
    answers MemoryStorage.empty [.insert "." "v"] = [.ok .written] :=
  ⟨rfl, rfl⟩

end DeskCalculator
