import DeskCalculator.Proofs.Storage.FailedWrites
import DeskCalculator.Proofs.Storage.Touches

/-!
A directory keeps its keys apart.

A key is put into a path as it is. As long as it is no path itself it has files of its own right in
the directory; otherwise it may be another name of the file of another key, or lead out of the
directory.

* `keys_kept_apart`: what is done under a key that is no path stays in the directory and is not seen
  under any other such key.
* `paths_not_kept_apart`: what becomes of keys that are paths.
-/

namespace DeskCalculator

open DirectoryStorage

variable {s : DirectoryStorage} {key : String}

/-- **A directory keeps its keys apart** as long as they are no paths. On a tree of directories and
files a text put under such a key touches nothing but two files right in the directory, and the
directories on the way to that if it has still to be made; removing the text touches one of the two.
Under every other such key, if it is not too long for the name of a file, the same is found as
before, whether the write succeeds or not, provided that the path of the directory, behind the
place where it comes to nothing, goes on with names that neither lead back up nor are too long. -/
theorem keys_kept_apart (htree : s.disk.IsTree) (hslash : '/' ∉ key.toList) :
    (∀ text, s.Touches (Storage.insert s key text).2 key) ∧
    s.RemovesOnly (Storage.erase s key).2 key ∧
    (s.disk.EndsPlainly s.directory → ∀ key' ∈ shortKeys, key' ≠ key →
      (∀ text, Storage.find? (Storage.insert s key text).2 key' = Storage.find? s key') ∧
        Storage.find? (Storage.erase s key).2 key' = Storage.find? s key') := by
  refine ⟨fun text => ?_, RemovesOnly.dropKey hslash, fun hplain key' hkey' hne => ?_⟩
  · exact Touches.of_mem_stages hslash (Or.inr htree) (s.snd_putKey_mem_stages key text)
  · have hname := isName_of_mem_shortKeys hkey'
    exact ⟨fun text => find?_putKey htree hplain hslash hne hname text,
      find?_dropKey hslash hne hname⟩

/-- A text under one key, and others put and removed under the empty one and one with points. -/
theorem keys_kept_apart_of_points :
    let s : DirectoryStorage := ⟨"/data",
      ⟨[(["a.json", "data"], .file "1".toUTF8), (["data"], .directory)], []⟩⟩
    Storage.find? (Storage.insert s "" "2").2 "a" = .ok (some "1") ∧
      Storage.find? (Storage.erase s "..").2 "a" = .ok (some "1") := by
  intro s
  have htree : s.disk.IsTree := Disk.isTree_of_nodes (by simp [s, Disk.node?, List.lookup_cons])
  have hplain : s.disk.EndsPlainly s.directory := Disk.endsPlainly_of_names (by decide)
  have hkey : "a" ∈ shortKeys := ⟨by decide, by decide⟩
  have hfound : Storage.find? s "a" = .ok (some "1") := by decide +kernel
  have hempty : '/' ∉ "".toList := by decide
  have hpoints : '/' ∉ "..".toList := by decide
  have hinsert := ((keys_kept_apart htree hempty).2.2 hplain "a" hkey (by decide)).1 "2"
  have herase := ((keys_kept_apart htree hpoints).2.2 hplain "a" hkey (by decide)).2
  exact ⟨hinsert.trans hfound, herase.trans hfound⟩

/-- A key that is a path may be another name of a key: what is put under the one is found under the
other, and it is gone when the other one is removed. Or it leads out of the directory, by the names
that are in it or from the root. -/
theorem paths_not_kept_apart :
    let s : DirectoryStorage := ⟨"store", ⟨[], []⟩⟩
    let s' := (Storage.insert s "a" "1").2
    Storage.find? s "./a" = .ok none ∧
    Storage.find? s' "./a" = .ok (some "1") ∧
    Storage.find? (Storage.erase s' "./a").2 "a" = .ok none ∧
    (Storage.insert s "../a" "1").2.disk.node? ["a.json"] = some (.file "1".toUTF8) ∧
    (Storage.insert s "/a" "1").2.disk.node? ["a.json"] = some (.file "1".toUTF8) ∧
    (Storage.erase (Storage.insert s "/a" "1").2 "../a").2.disk.node? ["a.json"] = none := by
  refine ⟨?_, ?_, ?_, rfl, rfl, rfl⟩
  all_goals decide +kernel

end DeskCalculator
