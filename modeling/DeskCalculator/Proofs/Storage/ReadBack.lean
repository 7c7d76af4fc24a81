import DeskCalculator.Proofs.Storage.Directory

/-!
What a directory is told is read back.

This needs no more than that the write succeeds: whatever else is on the disk, and whatever key
it is, the steps of the write and the reading after them follow the paths to the same places.

* `find?_of_insert`, `find?_of_erase`: what is found after a write that succeeded.
* `Serves`: writes under a key succeed, now and after any accesses under it. Directories that
  answer as storage in memory does are such (`Like.serves`).
-/

namespace DeskCalculator

namespace DirectoryStorage

variable {s s' : DirectoryStorage} {key : String}

/-! ### Writes that succeed -/

lemma andThen_eq_ok_iff {first : Written DirectoryStorage}
    {next : DirectoryStorage → Written DirectoryStorage} :
    andThen first next = (.ok (), s') ↔ ∃ s₁, first = (.ok (), s₁) ∧ next s₁ = (.ok (), s') := by
  obtain ⟨outcome, s₁⟩ := first
  cases outcome with
  | error e => simp [andThen]
  | ok u => simp [andThen]

lemma after_eq_ok_iff {path : String} {outcome : Except Trouble Disk} :
    s.after path outcome = (.ok (), s') ↔ ∃ disk, outcome = .ok disk ∧ s' = { s with disk } := by
  cases outcome with
  | error t => simp [after]
  | ok disk => simp [after, eq_comm]

/-- A text is found when its bytes are read. -/
lemma find?_of_read {text : String}
    (h : s.disk.read (fileOf s.directory key) = .ok text.toUTF8) :
    Storage.find? s key = .ok (some text) := by
  change lookup s key = _
  unfold lookup
  rw [Disk.readText, h, ok_bind, fromUTF8?_toUTF8]

lemma find?_of_missing (h : s.disk.read (fileOf s.directory key) = .error .missing) :
    Storage.find? s key = .ok none := by
  change lookup s key = _
  unfold lookup
  rw [Disk.readText, h, error_bind]

/-- What has been put under a key is found there. -/
theorem find?_of_insert {text : String} (h : Storage.insert s key text = (.ok (), s')) :
    Storage.find? s' key = .ok (some text) := by
  change putKey s key text = _ at h
  rw [putKey] at h
  obtain ⟨s₁, -, h⟩ := andThen_eq_ok_iff.1 h
  obtain ⟨s₂, hfill, hcommit⟩ := andThen_eq_ok_iff.1 h
  dsimp only [fill] at hfill
  obtain ⟨d₂, hwrite, rfl⟩ := after_eq_ok_iff.1 hfill
  dsimp only [commit] at hcommit
  obtain ⟨d₃, hrename, rfl⟩ := after_eq_ok_iff.1 hcommit
  exact find?_of_read ((Disk.read_of_rename hrename).trans (Disk.read_of_write hwrite))

/-- What has been removed is not found any more. -/
theorem find?_of_erase (h : Storage.erase s key = (.ok (), s')) :
    Storage.find? s' key = .ok none := by
  refine find?_of_missing ?_
  change dropKey s key = _ at h
  unfold dropKey at h
  dsimp only at h
  split at h
  · case _ hmissing =>
      obtain rfl : s = s' := congrArg Prod.snd h
      exact Disk.remove_eq_missing_iff.1 hmissing
  · obtain ⟨disk, hremove, rfl⟩ := after_eq_ok_iff.1 h
    exact Disk.read_of_remove hremove

/-- From another working directory the same is found in a directory at a path from the root. -/
lemma find?_seenFrom (directory : String) (disk : Disk) {working : Place}
    (hkey : '/' ∉ key.toList)
    (h : Path.isAbsolute directory = true ∨ working = disk.working) :
    Storage.find? (⟨directory, disk.seenFrom working⟩ : DirectoryStorage) key
      = Storage.find? (⟨directory, disk⟩ : DirectoryStorage) key := by
  rcases h with habsolute | rfl
  · have hfile : Path.isAbsolute (fileOf directory key) = true := by
      rw [fileOf_eq, Path.isAbsolute_join (by simpa [fileName] using hkey), habsolute]
    change lookup _ key = lookup _ key
    unfold lookup
    dsimp only
    rw [Disk.readText, Disk.readText, disk.read_seenFrom working hfile]
  · rfl

/-! ### Storage that serves -/

open Access

/-- Writes under a key succeed, now and after any accesses under it. -/
def Serves (s : DirectoryStorage) (key : String) : Prop :=
  ∀ accesses : List Access, (∀ a ∈ accesses, a.key = key) →
    (∀ text, (Storage.insert (afterAll s accesses) key text).1 = .ok ()) ∧
      (Storage.erase (afterAll s accesses) key).1 = .ok ()

namespace Serves

lemma perform (h : s.Serves key) {a : Access} (ha : a.key = key) : (a.perform s).2.Serves key :=
  fun accesses hkeys => h (a :: accesses) (List.forall_mem_cons.2 ⟨ha, hkeys⟩)

/-- A text is put under the key, and is found there from then on. -/
lemma insert (h : s.Serves key) (text : String) :
    ∃ s', Storage.insert s key text = (.ok (), s') ∧ s.SamePlace s' ∧ s'.Serves key ∧
      Storage.find? s' key = .ok (some text) := by
  have hok : Storage.insert s key text = (.ok (), (Storage.insert s key text).2) :=
    Prod.ext ((h [] (by simp)).1 text) rfl
  exact ⟨_, hok, s.samePlace_putKey key text, h.perform (a := .insert key text) rfl,
    find?_of_insert hok⟩

/-- The text under the key is removed, and nothing is found there from then on. -/
lemma erase (h : s.Serves key) :
    ∃ s', Storage.erase s key = (.ok (), s') ∧ s.SamePlace s' ∧ s'.Serves key ∧
      Storage.find? s' key = .ok none := by
  have hok : Storage.erase s key = (.ok (), (Storage.erase s key).2) :=
    Prod.ext (h [] (by simp)).2 rfl
  exact ⟨_, hok, s.samePlace_dropKey key, h.perform (a := .erase key) rfl, find?_of_erase hok⟩

end Serves

/-- A directory that answers as a storage in memory does serves the keys in use. -/
lemma Like.serves {keys : Set String} {m : MemoryStorage} (h : s.Like keys m) (hkey : key ∈ keys) :
    s.Serves key := by
  intro accesses hkeys
  obtain ⟨-, hlike, -⟩ := h.run fun a ha => (hkeys a ha).symm ▸ hkey
  refine ⟨fun text => ?_, ?_⟩
  · obtain ⟨s', hinsert, -⟩ := hlike.insert hkey text
    rw [hinsert]
  · obtain ⟨s', herase, -⟩ := hlike.erase hkey
    rw [herase]

end DirectoryStorage

end DeskCalculator
