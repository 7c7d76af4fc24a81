import DeskCalculator.Proofs.Storage.Effects

/-!
What a write touches.

Under a key that is no path a write makes the directory, if that is not there, and it changes two
files in it. Nothing else on the disk changes, wherever the write ends.

* `Becomes`: what may become of a place. `Touches`: a storage that is another one after writes
  under a key, one place after the other. It is so at every stage of a write
  (`Touches.of_mem_stages`) and after the file for the key is removed (`Touches.dropKey`).
* `SparesFiles`: no file is gone but a temporary one that has taken the place of the file
  (`SparesFiles.of_mem_stages`).
* `RemovesOnly`: nothing changes but that the file for a key is gone (`RemovesOnly.dropKey`).
-/

namespace DeskCalculator

namespace DirectoryStorage

variable {s s' s'' : DirectoryStorage} {p q : Place} {key text : String}

/-! ### Places -/

/-- What may become of a place when something is written under a key: it stays as it is; or the
directory, which was not there, has been made with those above it, and its path goes through the
place; or it is the place of one of the two files of the key in the directory. -/
inductive Becomes (s s' : DirectoryStorage) (key : String) (q : Place) : Prop
  | same (h : s'.disk.node? q = s.disk.node? q)
  | made (closed : ∀ p, ¬ s.Opened p) (before : s.disk.node? q = none)
      (after : s'.disk.node? q = some .directory) (through : s'.disk.GoesThrough s.directory q)
  | written (p : Place) (opened : s'.Opened p)
      (place : q = fileName key :: p ∨ q = temporaryName key :: p)
      (before : s.disk.node? q ≠ some .directory) (after : s'.disk.node? q ≠ some .directory)

/-- A storage in the same place after writes under a key. -/
structure Touches (s s' : DirectoryStorage) (key : String) : Prop extends SamePlace s s' where
  becomes : ∀ q, Becomes s s' key q

namespace Touches

lemma directory (h : s.Touches s' key) (hq : s.disk.node? q = some .directory) :
    s'.disk.node? q = some .directory := by
  cases h.becomes q with
  | same hsame => rw [hsame, hq]
  | made _ before _ _ =>
      rw [hq] at before
      cases before
  | written p _ _ before _ => exact absurd hq before

lemma opened (h : s.Touches s' key) (hs : s.Opened p) : s'.Opened p := by
  have hopened := hs.of_disk h.working_eq fun _ => h.directory
  rwa [← h.directory_eq] at hopened

lemma refl (s : DirectoryStorage) (key : String) : s.Touches s key :=
  ⟨.refl s, fun _ => .same rfl⟩

lemma trans (h : s.Touches s' key) (h' : s'.Touches s'' key) : s.Touches s'' key := by
  refine ⟨h.toSamePlace.trans h'.toSamePlace, fun q => ?_⟩
  cases h'.becomes q with
  | same hsame =>
      cases h.becomes q with
      | same hsame' => exact .same (hsame.trans hsame')
      | made closed before after through =>
          refine .made closed before (hsame.trans after) (through.mono h'.working_eq fun _ => ?_)
          exact h'.directory
      | written p opened place before after =>
          exact .written p (h'.opened opened) place before (hsame ▸ after)
  | made closed before after through =>
      rw [h.directory_eq] at through
      cases h.becomes q with
      | same hsame =>
          exact .made (fun p hp => closed p (h.opened hp)) (hsame ▸ before) after through
      | made _ _ after' _ =>
          rw [after'] at before
          cases before
      | written p opened _ _ _ => exact absurd opened (closed p)
  | written p opened place before after =>
      refine .written p opened place (fun hq => before (h.directory hq)) after

/-! ### Steps -/

lemma of_making {disk : Disk} (h : disk ∈ s.disk.directoryStages s.directory) :
    s.Touches { s with disk } key := by
  have halong := Disk.moreAlong_of_mem_directoryStages h
  refine ⟨⟨rfl, halong.working_eq⟩, fun q => ?_⟩
  rcases halong.node?_eq q with hsame | ⟨hnone, hdir⟩
  · exact .same hsame
  · refine .made (fun p hp => ?_) hnone hdir (halong.along q hnone hdir)
    -- where the directory is there already none is made
    have hthere := Disk.not_comesToNothing hp.base_eq hp.node?_eq
    rw [Disk.eq_of_mem_stages_of_not_comesToNothing hthere h, hnone] at hdir
    cases hdir

lemma prepare (s : DirectoryStorage) (key : String) : s.Touches s.prepare.2 key := by
  rw [snd_prepare]
  exact .of_making (s.disk.makeDirectories_mem_directoryStages s.directory)

lemma fill (hslash : '/' ∉ key.toList) (hkey : key ≠ "." ∨ s.disk.IsTree)
    (contents : ByteArray) : s.Touches (s.fill key contents).2 key := by
  rcases fill_cases hslash hkey contents with ⟨e, he⟩ | ⟨p, -, hopened, hvacant, hfill⟩
  · rw [he]
    exact .refl s key
  · rw [hfill]
    refine ⟨⟨rfl, rfl⟩, fun q => ?_⟩
    have hnode := s.disk.node?_put (temporaryName key :: p) q (.file contents)
      (List.cons_ne_nil _ _)
    by_cases hq : q = temporaryName key :: p
    · subst hq
      rw [beq_self_eq_true, if_pos rfl] at hnode
      refine .written p (hopened.put_file hvacant contents) (Or.inr rfl) hvacant ?_
      rw [hnode]
      simp
    · rw [if_neg (by simpa using hq)] at hnode
      exact .same hnode

lemma commit (hslash : '/' ∉ key.toList) (hpoint : key ≠ ".") :
    s.Touches (s.commit key).2 key := by
  rcases commit_cases hslash hpoint with
    ⟨e, he⟩ | ⟨p, contents, hopened, htemporary, hfile, hcommit⟩
  · rw [he]
    exact .refl s key
  · rw [hcommit]
    refine ⟨⟨rfl, rfl⟩, fun q => ?_⟩
    have hopened' := hopened.commit htemporary hfile
    have hnode := s.node?_commit p key contents q
    split_ifs at hnode with hq hq'
    · subst hq
      refine .written p hopened' (Or.inl rfl) hfile ?_
      rw [hnode]
      simp
    · subst hq'
      refine .written p hopened' (Or.inr rfl) ?_ ?_
      · rw [htemporary]
        simp
      · rw [hnode]
        simp
    · exact .same hnode

theorem of_mem_stages (hslash : '/' ∉ key.toList) (hkey : key ≠ "." ∨ s.disk.IsTree)
    (h : s' ∈ s.stages key text) : s.Touches s' key := by
  have hprepare := Touches.prepare s key
  have hkey' : key ≠ "." ∨ s.prepare.2.disk.IsTree := hkey.imp_right isTree_prepare
  rcases mem_stages_cases h with ⟨disk, hdisk, rfl⟩ | ⟨contents, hs'⟩ | ⟨filled, hfill, hs'⟩
  · exact .of_making hdisk
  · rw [hs']
    exact hprepare.trans (.fill hslash hkey' contents)
  · have hfilled := Touches.fill hslash hkey' text.toUTF8
    rw [hfill] at hfilled
    rw [hs']
    exact (hprepare.trans hfilled).trans (.commit hslash (exists_of_fill hslash hkey' hfill).1)

end Touches

/-! ### Files that stay -/

/-- No file is gone, unless it is the temporary one of a key and its text, which was the given one,
has become that of the file. -/
def SparesFiles (s s' : DirectoryStorage) (key text : String) : Prop :=
  ∀ q contents, s.disk.node? q = some (.file contents) →
    (∃ contents', s'.disk.node? q = some (.file contents')) ∨
      ∃ p, s'.Opened p ∧ q = temporaryName key :: p ∧
        s'.disk.node? (fileName key :: p) = some (.file text.toUTF8)

namespace SparesFiles

/-- Making a directory leaves every file as it is. -/
lemma of_making {disk : Disk} (h : disk ∈ s.disk.directoryStages s.directory)
    {contents : ByteArray} (hq : s.disk.node? q = some (.file contents)) :
    disk.node? q = some (.file contents) := by
  rcases (Disk.more_of_mem_directoryStages h).1.node?_eq q with hsame | ⟨hnone, -⟩
  · rw [hsame, hq]
  · rw [hq] at hnone
    cases hnone

/-- Filling the temporary file changes no other and takes none away. -/
lemma of_fill (hslash : '/' ∉ key.toList) (hkey : key ≠ "." ∨ s.disk.IsTree)
    (contents : ByteArray) {contents' : ByteArray} (hq : s.disk.node? q = some (.file contents')) :
    ∃ contents'', (s.fill key contents).2.disk.node? q = some (.file contents'') := by
  rcases fill_cases hslash hkey contents with ⟨e, he⟩ | ⟨p, -, -, -, hfill⟩
  · rw [he]
    exact ⟨contents', hq⟩
  · rw [hfill]
    dsimp only
    rw [Disk.node?_put _ _ _ _ (List.cons_ne_nil _ _)]
    split
    · exact ⟨contents, rfl⟩
    · exact ⟨contents', hq⟩

theorem of_mem_stages (hslash : '/' ∉ key.toList) (hkey : key ≠ "." ∨ s.disk.IsTree)
    (h : s' ∈ s.stages key text) : s.SparesFiles s' key text := by
  intro q contents hq
  have hkey' : key ≠ "." ∨ s.prepare.2.disk.IsTree := hkey.imp_right isTree_prepare
  have hprepare : s.prepare.2.disk.node? q = some (.file contents) := by
    rw [snd_prepare]
    exact of_making (s.disk.makeDirectories_mem_directoryStages s.directory) hq
  rcases mem_stages_cases h with ⟨disk, hdisk, rfl⟩ | ⟨contents', hs'⟩ | ⟨filled, hfill, hs'⟩
  · exact Or.inl ⟨contents, of_making hdisk hq⟩
  · rw [hs']
    exact Or.inl (of_fill hslash hkey' contents' hprepare)
  · have hfilled := of_fill hslash hkey' text.toUTF8 hprepare
    rw [hfill] at hfilled
    rw [hs']
    rcases commit_cases hslash (exists_of_fill hslash hkey' hfill).1 with
      ⟨e, he⟩ | ⟨p, contents', hopened, htemporary, hfile, hcommit⟩
    · rw [he]
      exact Or.inl hfilled
    · rw [hcommit]
      have hnode := filled.node?_commit p key contents'
      have hopened' := hopened.commit htemporary hfile
      by_cases hq' : q = temporaryName key :: p
      · -- what has become the file is what the temporary one has been filled with
        rw [node?_of_fill hslash hkey' hfill hopened] at htemporary
        obtain rfl := Node.file.inj (Option.some.inj htemporary)
        exact Or.inr ⟨p, hopened', hq', (hnode _).trans (if_pos rfl)⟩
      · refine Or.inl ?_
        dsimp only
        rw [hnode, if_neg hq']
        split
        · exact ⟨contents', rfl⟩
        · exact hfilled

end SparesFiles

/-! ### Removing -/

/-- Nothing has changed but that the file for a key is gone. -/
structure RemovesOnly (s s' : DirectoryStorage) (key : String) : Prop extends SamePlace s s' where
  node?_eq : ∀ q, s'.disk.node? q = s.disk.node? q ∨
    ∃ p contents, s.Opened p ∧ q = fileName key :: p ∧
      s.disk.node? q = some (.file contents) ∧ s'.disk.node? q = none

namespace RemovesOnly

lemma refl (s : DirectoryStorage) (key : String) : s.RemovesOnly s key :=
  ⟨.refl s, fun _ => Or.inl rfl⟩

/-- Removing the file does nothing else, and nothing at all when it fails. -/
theorem dropKey (hslash : '/' ∉ key.toList) : s.RemovesOnly (s.dropKey key).2 key := by
  rcases dropKey_cases hslash with he | ⟨p, contents, hopened, hfile, hdrop⟩
  · rw [he]
    exact .refl s key
  · rw [hdrop]
    refine ⟨⟨rfl, rfl⟩, fun q => ?_⟩
    have hnode := s.disk.node?_erase (fileName key :: p) q (List.cons_ne_nil _ _)
    by_cases hq : q = fileName key :: p
    · subst hq
      rw [beq_self_eq_true, if_pos rfl] at hnode
      exact Or.inr ⟨p, contents, hopened, rfl, hfile, hnode⟩
    · rw [if_neg (by simpa using hq)] at hnode
      exact Or.inl hnode

lemma touches (h : s.RemovesOnly s' key) : s.Touches s' key := by
  refine ⟨h.toSamePlace, fun q => ?_⟩
  rcases h.node?_eq q with hsame | ⟨p, contents, hopened, hq, hfile, hnone⟩
  · exact .same hsame
  · have hopened' : s'.Opened p := by
      have hmove := hopened.of_disk h.working_eq (fun r hr => ?_)
      · rwa [← h.directory_eq] at hmove
      · rcases h.node?_eq r with hsame | ⟨-, contents', -, -, hfile', -⟩
        · rw [hsame, hr]
        · rw [hr] at hfile'
          cases hfile'
    exact .written p hopened' (Or.inl hq) (by rw [hfile]; simp) (by rw [hnone]; simp)

end RemovesOnly

end DirectoryStorage

end DeskCalculator
