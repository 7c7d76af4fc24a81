import DeskCalculator.Proofs.Disk.Following

/-!
Steps on files.

* `Disk.write_eq_ok_iff`, `Disk.rename_eq_ok_iff`, `Disk.remove_eq_ok_iff`: what a successful
  step does to the disk.
* `Disk.node?_put_file`, `Disk.node?_erase_file`: no directory is taken away, so that a path
  leads to the same place afterwards (`Disk.locateFile_mono`).
* `Disk.read_of_write`, `Disk.read_of_rename`, `Disk.read_of_remove`: what is read after it.
* `Disk.seenFrom`: the disk with another working directory, which paths from the root do not
  depend on (`Disk.read_seenFrom`).
-/

namespace DeskCalculator

namespace Disk

variable {d d' : Disk} {p : Place}

/-! ### Successful steps -/

lemma write_eq_ok_iff {path : String} {contents : ByteArray} :
    d.write path contents = .ok d' ↔
      ∃ p, d.locateFile path = .ok p ∧ d.node? p ≠ some .directory ∧
        d' = d.put p (.file contents) := by
  rw [write, bind_eq_ok_iff]
  refine exists_congr fun p => and_congr_right fun _ => ?_
  cases d.node? p with
  | none => simp [eq_comm]
  | some n => cases n <;> simp [eq_comm]

lemma rename_eq_ok_iff {source target : String} :
    d.rename source target = .ok d' ↔
      ∃ p q contents, d.locateFile source = .ok p ∧ d.locateFile target = .ok q ∧
        d.node? p = some (.file contents) ∧ d.node? q ≠ some .directory ∧
        d' = (d.erase p).put q (.file contents) := by
  rw [rename, bind_eq_ok_iff]
  constructor
  · rintro ⟨p, hp, h⟩
    obtain ⟨q, hq, h⟩ := bind_eq_ok_iff.1 h
    split at h
    · cases h
    · cases h
    · cases h
    · case _ contents hfile htarget =>
        exact ⟨p, q, contents, hp, hq, hfile, htarget, (Except.ok.inj h).symm⟩
  · rintro ⟨p, q, contents, hp, hq, hfile, htarget, rfl⟩
    refine ⟨p, hp, bind_eq_ok_iff.2 ⟨q, hq, ?_⟩⟩
    rw [hfile]
    split <;> simp_all

lemma remove_eq_ok_iff {path : String} :
    d.remove path = .ok d' ↔
      ∃ p contents, d.locateFile path = .ok p ∧ d.node? p = some (.file contents) ∧
        d' = d.erase p := by
  rw [remove, bind_eq_ok_iff]
  refine exists_congr fun p => ?_
  cases d.node? p with
  | none => simp
  | some n => cases n <;> simp [eq_comm]

lemma remove_eq_missing_iff {path : String} :
    d.remove path = .error .missing ↔ d.read path = .error .missing := by
  rw [remove, read]
  cases d.locateFile path with
  | error t => simp
  | ok p =>
      rw [ok_bind, ok_bind]
      cases d.node? p with
      | none => simp
      | some n => cases n <;> simp

/-! ### What they leave alone -/

lemma ne_nil_of_ne_directory (hp : d.node? p ≠ some .directory) : p ≠ [] := by
  rintro rfl
  exact hp rfl

/-- No directory is taken away by a file that is put where none stands. -/
lemma node?_put_file (hp : d.node? p ≠ some .directory) (contents : ByteArray) {q : Place}
    (hq : d.node? q = some .directory) :
    (d.put p (.file contents)).node? q = some .directory := by
  rw [node?_put _ _ _ _ (ne_nil_of_ne_directory hp), if_neg, hq]
  rw [beq_iff_eq]
  rintro rfl
  exact hp hq

lemma node?_erase_file (hp : d.node? p ≠ some .directory) {q : Place}
    (hq : d.node? q = some .directory) : (d.erase p).node? q = some .directory := by
  rw [node?_erase _ _ _ (ne_nil_of_ne_directory hp), if_neg, hq]
  rw [beq_iff_eq]
  rintro rfl
  exact hp hq

lemma locateFile_mono (hworking : d'.working = d.working)
    (h : ∀ q, d.node? q = some .directory → d'.node? q = some .directory) {path : String}
    (hp : d.locateFile path = .ok p) : d'.locateFile path = .ok p := by
  obtain ⟨u, hcheck, hwalk⟩ := bind_eq_ok_iff.1 hp
  rw [locateFile, hcheck, ok_bind, origin, hworking]
  exact walk_mono h hwalk

/-! ### What is read after them -/

/-- A file that has been written is read. -/
lemma read_of_write {path : String} {contents : ByteArray}
    (h : d.write path contents = .ok d') : d'.read path = .ok contents := by
  obtain ⟨p, hp, hvacant, rfl⟩ := write_eq_ok_iff.1 h
  have hlocate : (d.put p (.file contents)).locateFile path = .ok p :=
    locateFile_mono (d := d) (by rfl) (fun _ hr => node?_put_file hvacant contents hr) hp
  rw [read, hlocate, ok_bind, node?_put _ _ _ _ (ne_nil_of_ne_directory hvacant),
    beq_self_eq_true, if_pos rfl]

/-- What was read of a file that has been moved is read at its new path. -/
lemma read_of_rename {source target : String} (h : d.rename source target = .ok d') :
    d'.read target = d.read source := by
  obtain ⟨p, q, contents, hp, hq, hfile, htarget, rfl⟩ := rename_eq_ok_iff.1 h
  have hsource : d.node? p ≠ some .directory := by
    rw [hfile]
    simp
  have hvacant : (d.erase p).node? q ≠ some .directory := by
    rw [node?_erase _ _ _ (ne_nil_of_ne_directory hsource)]
    split
    · simp
    · exact htarget
  have hlocate : ((d.erase p).put q (.file contents)).locateFile target = .ok q :=
    locateFile_mono (d := d) (by rfl)
      (fun _ hr => node?_put_file hvacant contents (node?_erase_file hsource hr)) hq
  rw [read, hlocate, ok_bind, node?_put _ _ _ _ (ne_nil_of_ne_directory hvacant),
    beq_self_eq_true, if_pos rfl, read, hp, ok_bind, hfile]

lemma read_of_remove {path : String} (h : d.remove path = .ok d') :
    d'.read path = .error .missing := by
  obtain ⟨p, contents, hp, hfile, rfl⟩ := remove_eq_ok_iff.1 h
  have hne : d.node? p ≠ some .directory := by
    rw [hfile]
    simp
  have hlocate : (d.erase p).locateFile path = .ok p :=
    locateFile_mono (d := d) (by rfl) (fun _ hr => node?_erase_file hne hr) hp
  rw [read, hlocate, ok_bind, node?_erase _ _ _ (ne_nil_of_ne_directory hne), beq_self_eq_true,
    if_pos rfl]

/-! ### The working directory -/

/-- The disk as it is seen from another working directory. -/
def seenFrom (d : Disk) (working : Place) : Disk := { d with working }

lemma walk_seenFrom (d : Disk) (working p : Place) (names : List String) :
    (d.seenFrom working).walk p names = d.walk p names := by
  induction names generalizing p with
  | nil => rfl
  | cons name names ih =>
      have hnode : (d.seenFrom working).node? p = d.node? p := rfl
      rw [walk, walk, hnode, ih, ih, ih]

lemma read_seenFrom (d : Disk) (working : Place) {path : String}
    (h : Path.isAbsolute path = true) : (d.seenFrom working).read path = d.read path := by
  rw [read, read, locateFile, locateFile, origin, origin, h, walk_seenFrom]
  rfl

end Disk

end DeskCalculator
