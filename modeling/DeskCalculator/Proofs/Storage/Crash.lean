import DeskCalculator.Proofs.Disk.Inside
import DeskCalculator.Proofs.Disk.Stages
import DeskCalculator.Proofs.Logbook.Copy
import DeskCalculator.Proofs.Storage.ReadBack

/-!
A write that is cut short.

The file of a key is only touched by the last step of a write, so whatever step a write is cut
short at, the old text is found or the new one, and what is left behind is in the way of no
later write.

* `stages`: the storages that a write passes through.
* `Clear`: the directory is there or can be made, and no directory stands in it where the files
  of the key do (`Clear.of_opened`, `Clear.of_awaits`). A write succeeds (`Clear.insert`).
* `find?_of_more`: before the directory is made nothing is found in it.
* `Clear.of_making`, `Clear.of_filling`, `Clear.of_putKey`: what is found at a stage of each
  kind, and that it is clear again.
* `write_cut_short`: the result. `found_after_writes_cut_short`: so it is after several writes
  that are cut short.
-/

namespace DeskCalculator

namespace DirectoryStorage

variable {s s' : DirectoryStorage} {p : Place} {key text : String}

/-! ### Stages -/

/-- The storages that a write passes through, in order: those where the directory is being made,
those where the temporary file has been emptied and holds more and more of the bytes, and the
one behind the rename. A write that fails ends with the storage it fails at. -/
def stages (s : DirectoryStorage) (key text : String) : List DirectoryStorage :=
  (s.disk.directoryStages s.directory).map (fun disk => { s with disk }) ++
  (match s.prepare with
    | (.ok (), s) =>
      (List.range (text.toUTF8.size + 1)).map fun n => (s.fill key (text.toUTF8.extract 0 n)).2
    | _ => []) ++
  [(s.putKey key text).2]

lemma mem_stages (s : DirectoryStorage) (key text : String) : s ∈ s.stages key text := by
  rw [stages, List.append_assoc, List.mem_append]
  exact Or.inl (List.mem_map.2 ⟨s.disk, s.disk.mem_directoryStages s.directory, rfl⟩)

lemma fill_mem_stages (h : s.prepare.1 = .ok ()) {n : ℕ} (hn : n ≤ text.toUTF8.size) :
    (s.prepare.2.fill key (text.toUTF8.extract 0 n)).2 ∈ s.stages key text := by
  have hprepare : s.prepare = (.ok (), s.prepare.2) := Prod.ext h rfl
  rw [stages, hprepare, List.mem_append, List.mem_append]
  exact Or.inl (Or.inr (List.mem_map.2 ⟨n, List.mem_range.2 (Nat.lt_succ_of_le hn), rfl⟩))

/-! ### Storage that is clear -/

/-- The directory can be made, or is there, and stands at a place where neither file of a key is
a directory. If it is still to be made, the key has no file in it. -/
structure Clear (s : DirectoryStorage) (key : String) (p : Place) : Prop where
  creatable : s.prepare.1 = .ok ()
  opened : s.prepare.2.Opened p
  file : s.prepare.2.disk.node? (fileName key :: p) ≠ some .directory
  temporary : s.prepare.2.disk.node? (temporaryName key :: p) ≠ some .directory
  there : s.Opened p ∨ s.prepare.2.disk.node? (fileName key :: p) = none

namespace Clear

lemma of_opened (h : s.Opened p) (hfits : Fits s.directory key)
    (hfile : s.disk.node? (fileName key :: p) ≠ some .directory)
    (htemporary : s.disk.node? (temporaryName key :: p) ≠ some .directory) : s.Clear key p := by
  have hprepare := h.prepare_eq hfits
  refine ⟨?_, ?_, ?_, ?_, Or.inl h⟩
  all_goals rw [hprepare]
  · exact h
  · exact hfile
  · exact htemporary

/-- So it is where the directory is not there but can be made, by a path that never leads back
up. -/
lemma of_awaits (h : s.Awaits {key} .empty) : ∃ p, s.Clear key p := by
  obtain ⟨disk, p, hprepare, hmirrors⟩ := h.prepare
  have hnone : disk.node? (fileName key :: p) = none := hmirrors.holds key rfl
  refine ⟨p, ⟨?_, ?_, ?_, ?_, Or.inr ?_⟩⟩
  all_goals rw [hprepare]
  · exact hmirrors.toOpened
  · rw [hnone]
    simp
  · exact hmirrors.temporary key rfl
  · exact hnone

lemma putKey_eq (h : s.Clear key p) (hfits : Fits s.directory key) (text : String) :
    s.putKey key text = (.ok (), s.prepare.2.withText p key text) := by
  have hprepare : s.prepare = (.ok (), s.prepare.2) := Prod.ext h.creatable rfl
  have hfits' : Fits s.prepare.2.directory key := by rwa [s.samePlace_prepare.directory_eq]
  rw [← h.opened.putKey_eq hfits' h.temporary h.file text, putKey, putKey,
    h.opened.prepare_eq hfits', hprepare]

lemma insert (h : s.Clear key p) (hfits : Fits s.directory key) (text : String) :
    ∃ s', Storage.insert s key text = (.ok (), s') ∧ Storage.find? s' key = .ok (some text) :=
  ⟨_, h.putKey_eq hfits text, find?_of_insert (h.putKey_eq hfits text)⟩

end Clear

/-! ### What is found -/

lemma find?_congr_of_read (hdirectory : s'.directory = s.directory)
    (hread : s'.disk.read (fileOf s.directory key) = s.disk.read (fileOf s.directory key)) :
    Storage.find? s' key = Storage.find? s key := by
  change lookup s' key = lookup s key
  unfold lookup
  rw [Disk.readText, Disk.readText, hdirectory, hread]

lemma Opened.find?_congr (h : s.Opened p) (h' : s'.Opened p)
    (hdirectory : s'.directory = s.directory) (hname : Disk.IsName (fileName key))
    (hnode : s'.disk.node? (fileName key :: p) = s.disk.node? (fileName key :: p)) :
    Storage.find? s' key = Storage.find? s key := by
  refine find?_congr_of_read hdirectory ?_
  have hbase' := h'.base_eq
  rw [hdirectory] at hbase'
  exact Disk.read_join_congr h.base_eq h.node?_eq hbase' h'.node?_eq hname hnode

lemma find?_of_more {made : Disk} (hmore : Disk.More s.disk made)
    (hopened : Opened { s with disk := made } p) (hfits : Fits s.directory key)
    (hnone : made.node? (fileName key :: p) = none) : Storage.find? s key = .ok none := by
  refine find?_of_missing ?_
  have hwalk : s.disk.base s.directory = .ok p ∨ s.disk.base s.directory = .error .missing := by
    have hbase := hopened.base_eq
    rw [Disk.base, Disk.origin, hmore.working_eq] at hbase
    exact Disk.walk_of_more hmore hbase
  rw [Disk.read, fileOf_eq, Disk.locateFile_join hfits.isName_file
    (hfits.checkPath_file hopened.no_nul)]
  rcases hwalk with hbase | hbase
  · rw [hbase, ok_bind]
    rcases hmore.node?_eq p with hsame | ⟨hp, -⟩
    · have hdir : s.disk.node? p = some .directory := hsame.symm.trans hopened.node?_eq
      rw [Disk.walk_name hdir hfits.isName_file, ok_bind, hmore.node?_eq_none hnone]
    · rw [Disk.walk, hp, error_bind]
  · rw [hbase, error_bind, error_bind]

/-! ### The stages of a write -/

/-- What a write that is cut short leaves: the old text is found, or the new one, and the storage
is clear again. -/
structure CutShort (s : DirectoryStorage) (key text : String) (p : Place)
    (s' : DirectoryStorage) : Prop where
  place : s.SamePlace s'
  found : Storage.find? s' key = Storage.find? s key ∨ Storage.find? s' key = .ok (some text)
  clear : s'.Clear key p

namespace Clear

/-- The directory is made with those above it. -/
lemma makeDirectories_eq (h : s.Clear key p) :
    ∃ made, s.disk.makeDirectories s.directory = (.ok (), made) ∧
      s.prepare = (.ok (), { s with disk := made }) := by
  have hcreatable := h.creatable
  rw [prepare] at hcreatable ⊢
  split at hcreatable
  · case _ made hmake => exact ⟨made, hmake, rfl⟩
  · cases hcreatable

lemma of_making (h : s.Clear key p) (hfits : Fits s.directory key) {disk : Disk}
    (hdisk : disk ∈ s.disk.directoryStages s.directory) :
    CutShort s key text p { s with disk } := by
  obtain ⟨made, hmake, hprepare⟩ := h.makeDirectories_eq
  have hagain : prepare { s with disk } = (.ok (), { s with disk := made }) := by
    rw [prepare, Disk.makeDirectories_of_mem_directoryStages hmake hdisk]
  obtain ⟨hmore, hmore'⟩ := Disk.more_of_mem_directoryStages hdisk
  rw [hmake] at hmore'
  obtain ⟨-, hopened, hfile, htemporary, hthere⟩ := h
  rw [hprepare] at hopened hfile htemporary hthere
  have hclear (ht : Opened { s with disk } p ∨ made.node? (fileName key :: p) = none) :
      Clear { s with disk } key p := by
    refine ⟨?_, ?_, ?_, ?_, ?_⟩
    all_goals rw [hagain]
    · exact hopened
    · exact hfile
    · exact htemporary
    · exact ht
  rcases hthere with hthere | hnone
  · -- where the directory is there already no stage is another disk
    have hsame : disk = s.disk := by
      by_cases hempty : s.directory = ""
      · rw [hempty] at hdisk
        exact List.mem_singleton.1 hdisk
      · exact Disk.eq_of_mem_directoryStages (hthere.leadsToDirectory hfits hempty) hdisk
    subst hsame
    exact ⟨.refl s, Or.inl rfl, hclear (Or.inl hthere)⟩
  · have hbefore : Storage.find? s key = .ok none :=
      find?_of_more (hmore.trans hmore') hopened hfits hnone
    have hstage : Storage.find? ({ s with disk } : DirectoryStorage) key = .ok none :=
      find?_of_more hmore' hopened hfits hnone
    exact ⟨⟨rfl, hmore.working_eq⟩, Or.inl (hstage.trans hbefore.symm), hclear (Or.inr hnone)⟩

lemma find?_prepare (h : s.Clear key p) (hfits : Fits s.directory key) :
    Storage.find? s.prepare.2 key = Storage.find? s key := by
  obtain ⟨made, hmake, hprepare⟩ := h.makeDirectories_eq
  obtain ⟨-, hopened, -, -, hthere⟩ := h
  rw [hprepare] at hopened hthere ⊢
  rcases hthere with hthere | hnone
  · have hsame : s = { s with disk := made } :=
      congrArg Prod.snd ((hthere.prepare_eq hfits).symm.trans hprepare)
    rw [← hsame]
  · have hmore := (Disk.more_of_mem_directoryStages (s.disk.mem_directoryStages s.directory)).2
    rw [hmake] at hmore
    have hbefore : Storage.find? s key = .ok none := find?_of_more hmore hopened hfits hnone
    have hafter : Storage.find? ({ s with disk := made } : DirectoryStorage) key = .ok none :=
      find?_of_more (.refl made) hopened hfits hnone
    exact hafter.trans hbefore.symm

lemma of_filling (h : s.Clear key p) (hfits : Fits s.directory key) (contents : ByteArray) :
    CutShort s key text p (s.prepare.2.fill key contents).2 := by
  have hplace := s.samePlace_prepare
  have hfits' : Fits s.prepare.2.directory key := by rwa [hplace.directory_eq]
  have hfill := h.opened.fill_eq hfits' h.temporary contents
  have hopened := h.opened.put_file h.temporary contents
  have hnode (q : Place) :
      (s.prepare.2.disk.put (temporaryName key :: p) (.file contents)).node? q
        = if q = temporaryName key :: p then some (.file contents)
          else s.prepare.2.disk.node? q := by
    rw [Disk.node?_put _ _ _ _ (List.cons_ne_nil _ _)]
    simp
  have hne : fileName key :: p ≠ temporaryName key :: p :=
    fun he => temporaryName_ne_fileName key key (List.cons.inj he).1.symm
  have hfile := (hnode (fileName key :: p)).trans (if_neg hne)
  refine ⟨hplace.trans (s.prepare.2.samePlace_fill key contents), Or.inl ?_, ?_⟩
  · rw [hfill, ← h.find?_prepare hfits]
    exact h.opened.find?_congr hopened rfl hfits'.isName_file hfile
  · rw [hfill]
    refine of_opened hopened hfits' ?_ ?_
    · rw [hfile]
      exact h.file
    · rw [hnode, if_pos rfl]
      simp

lemma of_putKey (h : s.Clear key p) (hfits : Fits s.directory key) :
    CutShort s key text p (s.putKey key text).2 := by
  have hput := h.putKey_eq hfits text
  have hfits' : Fits s.prepare.2.directory key := by rwa [s.samePlace_prepare.directory_eq]
  refine ⟨s.samePlace_putKey key text, Or.inr ?_, ?_⟩
  · rw [hput]
    exact find?_of_insert hput
  · rw [hput]
    refine of_opened (h.opened.withText h.temporary h.file text) hfits' ?_ ?_
    · rw [node?_withText, if_pos rfl]
      simp
    · rw [node?_withText, if_neg, if_pos rfl]
      · simp
      · exact fun he => temporaryName_ne_fileName key key (List.cons.inj he).1

lemma of_mem_stages (h : s.Clear key p) (hfits : Fits s.directory key)
    (hs' : s' ∈ s.stages key text) : CutShort s key text p s' := by
  have hprepare : s.prepare = (.ok (), s.prepare.2) := Prod.ext h.creatable rfl
  rw [stages, hprepare, List.mem_append, List.mem_append, List.mem_singleton] at hs'
  rcases hs' with (hmaking | hfilling) | rfl
  · obtain ⟨disk, hdisk, rfl⟩ := List.mem_map.1 hmaking
    exact h.of_making hfits hdisk
  · obtain ⟨n, -, rfl⟩ := List.mem_map.1 hfilling
    exact h.of_filling hfits _
  · exact h.of_putKey hfits

end Clear

/-! ### Several writes -/

/-- What writes under a key leave, one after the other, each of them cut short somewhere. -/
def LeftBehind (s : DirectoryStorage) (key : String) : List String → DirectoryStorage → Prop
  | [], s'' => s'' = s
  | text :: texts, s'' => ∃ s' ∈ s.stages key text, s'.LeftBehind key texts s''

end DirectoryStorage

open DirectoryStorage

variable {s s' : DirectoryStorage} {p : Place} {key text : String}

/-- **A write that is cut short** leaves the old text or the new one. Take any directory that is
clear for a key that fits, whatever else is on the disk and whatever an earlier write has left
of its temporary file, and any stage of a write under the key. A storage opened on what is left
is in the same directory, and

* what is found under the key is what was found before, or the text;
* the next write succeeds, and its text is found;
* if the text was that of a logbook with a new note, a logbook opened on what is left is the one
  stored before or the one with the note. -/
theorem write_cut_short (hfits : Fits s.directory key) (h : s.Clear key p)
    (hs' : s' ∈ s.stages key text) :
    s'.directory = s.directory ∧
    (Storage.find? s' key = Storage.find? s key ∨
      Storage.find? s' key = .ok (some text)) ∧
    (∀ text', ∃ s'', Storage.insert s' key text' = (.ok (), s'') ∧
      Storage.find? s'' key = .ok (some text')) ∧
    ∀ (book : Logbook) (note : String), book.key = key →
      text = StringArray.encode (book.push note).notes →
      Logbook.stored key s' = Logbook.stored key s ∨ Logbook.stored key s' = book.push note := by
  obtain ⟨hplace, hfound, hclear⟩ := h.of_mem_stages hfits hs'
  refine ⟨hplace.directory_eq, hfound, fun text' => ?_, fun book note hkey htext => ?_⟩
  · exact hclear.insert (by rwa [hplace.directory_eq]) text'
  · subst hkey
    refine hfound.imp Logbook.stored_congr fun hnew => ?_
    exact Logbook.stored_of_encode (book.push note) (htext ▸ hnew)

/-- A write is cut short while the temporary file is being filled, in a directory with a text and
a temporary file that an earlier one has left, and in one that has been made for it. -/
theorem write_cut_short_of_filling :
    let s : DirectoryStorage := ⟨"/data", ⟨[(["a.json.tmp", "data"], .file "12".toUTF8),
      (["a.json", "data"], .file "1".toUTF8), (["data"], .directory)], []⟩⟩
    let s' := (s.prepare.2.fill "a" ("23".toUTF8.extract 0 1)).2
    let t : DirectoryStorage := ⟨"data/store", ⟨[], []⟩⟩
    let t' := (t.prepare.2.fill "a" ("23".toUTF8.extract 0 1)).2
    (Fits s.directory "a" ∧ s.Clear "a" ["data"] ∧ s' ∈ s.stages "a" "23" ∧
      (Storage.find? s' "a" = Storage.find? s "a" ∨ Storage.find? s' "a" = .ok (some "23"))) ∧
    Fits t.directory "a" ∧ (∃ p, t.Clear "a" p) ∧ t' ∈ t.stages "a" "23" ∧
      ∃ t'', Storage.insert t' "a" "4" = (.ok (), t'') ∧
        Storage.find? t'' "a" = .ok (some "4") := by
  intro s s' t t'
  have hfits : Fits "/data" "a" := by decide
  have hclear : s.Clear "a" ["data"] :=
    .of_opened ⟨by decide, by decide +kernel, rfl⟩ hfits (fun h => by cases h) (fun h => by cases h)
  have hs' : s' ∈ s.stages "a" "23" := fill_mem_stages hclear.creatable (by decide)
  have hfits' : Fits "data/store" "a" := by decide
  obtain ⟨p, hclear'⟩ : ∃ p, Clear ⟨"data/store", ⟨[], []⟩⟩ "a" p :=
    Clear.of_awaits
      ⟨fun name p h => absurd rfl h, by decide, by decide, by decide, rfl, fun key _ => rfl⟩
  have ht' : t' ∈ t.stages "a" "23" := fill_mem_stages hclear'.creatable (by decide)
  exact ⟨⟨hfits, hclear, hs', (write_cut_short hfits hclear hs').2.1⟩, hfits', ⟨p, hclear'⟩, ht',
    (write_cut_short hfits' hclear' ht').2.2.1 "4"⟩

/-- Where a directory is missing it is not enough that no file of a key is one. With a file in the
way the directory cannot be made, and the next write fails; and where the path leads back up
from a directory that is missing, making that one brings to light a text that is neither the
old one nor the new one. -/
theorem write_cut_short_needs_clear :
    let s : DirectoryStorage := ⟨"x/store", ⟨[(["x"], .file "".toUTF8)], []⟩⟩
    let t : DirectoryStorage := ⟨"x/../store",
      ⟨[(["k.json", "store"], .file "old".toUTF8), (["store"], .directory)], []⟩⟩
    (Fits s.directory "k" ∧ s.disk.leadsToDirectory s.directory = false ∧
      s.disk.leadsToDirectory (fileOf s.directory "k") = false ∧
      s.disk.leadsToDirectory (temporaryOf s.directory "k") = false ∧
      s ∈ s.stages "k" "v" ∧
      (Storage.insert s "k" "w").1 = .error (.disk "x/store" .notDirectory)) ∧
    Fits t.directory "k" ∧ t.disk.leadsToDirectory t.directory = false ∧
      t.disk.leadsToDirectory (fileOf t.directory "k") = false ∧
      t.disk.leadsToDirectory (temporaryOf t.directory "k") = false ∧
      Storage.find? t "k" = .ok none ∧
      ∃ t' ∈ t.stages "k" "v", Storage.find? t' "k" = .ok (some "old") := by
  intro s t
  have hcreatable : t.prepare.1 = .ok () := by decide +kernel
  exact ⟨⟨by decide, by decide, by decide, by decide, s.mem_stages "k" "v", by decide +kernel⟩,
    by decide, by decide, by decide, by decide, by decide +kernel, _,
    fill_mem_stages hcreatable (Nat.zero_le _), by decide +kernel⟩

/-- After several writes that are cut short the text of one of them is found, or what was found
before, and the next write succeeds. -/
theorem found_after_writes_cut_short (hfits : Fits s.directory key) (h : s.Clear key p)
    {texts : List String} (hs' : s.LeftBehind key texts s') :
    (Storage.find? s' key = Storage.find? s key ∨
      ∃ text ∈ texts, Storage.find? s' key = .ok (some text)) ∧
    ∀ text', ∃ s'', Storage.insert s' key text' = (.ok (), s'') ∧
      Storage.find? s'' key = .ok (some text') := by
  induction texts generalizing s with
  | nil =>
      obtain rfl : s' = s := hs'
      exact ⟨Or.inl rfl, h.insert hfits⟩
  | cons text texts ih =>
      obtain ⟨s₁, hs₁, hrest⟩ := hs'
      obtain ⟨hplace, hfound, hclear⟩ := h.of_mem_stages hfits hs₁
      obtain ⟨hlast, hnext⟩ := ih (by rwa [hplace.directory_eq]) hclear hrest
      refine ⟨?_, hnext⟩
      rcases hlast with hsame | ⟨text', hmem, htext'⟩
      · rw [hsame]
        exact hfound.imp_right fun hnew => ⟨text, List.mem_cons_self, hnew⟩
      · exact Or.inr ⟨text', List.mem_cons_of_mem text hmem, htext'⟩

end DeskCalculator
