import Mathlib.Tactic
import DeskCalculator.Disk.Basic
import DeskCalculator.Proofs.Outcome

/-!
Following paths into a directory.

* `Path.names_join`, `Path.splitName_join`: a name inside a directory is the last name of its
  path.
* `Path.names_intercalate`: names with slashes between them are the names of a path.
* `Disk.walk_append`, `Disk.walk_mono`: names are followed one after the other, and they
  lead to the same place as long as no directory is taken away.
* `Disk.base`: the place that the names of a path lead to.
* `Disk.locateFile_join`: a path into a directory leads through the place of that.
-/

namespace DeskCalculator

/-! ### Paths as texts -/

namespace Path

/-- What stands before a name inside a directory. -/
def before (directory : String) : String :=
  if directory.isEmpty || endsInSlash directory then directory else directory ++ "/"

lemma isAbsolute_of_no_slash {name : String} (h : '/' ∉ name.toList) :
    isAbsolute name = false := by
  rw [isAbsolute, beq_eq_false_iff_ne]
  exact fun hhead => h (List.mem_of_mem_head? hhead)

/-- A name without slashes is put behind the directory. -/
lemma join_eq {directory name : String} (h : '/' ∉ name.toList) :
    join directory name = before directory ++ name := by
  rw [join, isAbsolute_of_no_slash h, before]
  cases directory.isEmpty || endsInSlash directory <;> rfl

/-- What stands before a name is empty or ends in a slash. -/
lemma before_cases (directory : String) :
    directory = "" ∧ before directory = "" ∨
      ∃ cs, (before directory).toList = cs ++ ['/'] ∧
        (directory.toList = cs ++ ['/'] ∨ directory.toList = cs ∧ cs ≠ []) := by
  by_cases hempty : directory = ""
  · subst hempty
    exact Or.inl ⟨rfl, rfl⟩
  · have hne : directory.toList ≠ [] := by simpa using hempty
    refine Or.inr ?_
    rw [before, String.isEmpty_eq_false_iff.2 hempty, Bool.false_or]
    split
    case isTrue h =>
      rw [endsInSlash, beq_iff_eq, List.getLast?_eq_some_iff] at h
      obtain ⟨cs, hcs⟩ := h
      exact ⟨cs, hcs, Or.inl hcs⟩
    case isFalse h =>
      exact ⟨directory.toList, by simp, Or.inr ⟨rfl, hne⟩⟩

lemma names_eq {path : String} {cs : List Char} (h : path.toList = cs) :
    names path = ((splitWhere (· == '/') cs).filter (!·.isEmpty)).map .ofList := by
  rw [names, h]

lemma splitWhere_of_no_slash {cs : List Char} (h : '/' ∉ cs) :
    splitWhere (· == '/') cs = [cs] := by
  induction cs with
  | nil => rfl
  | cons c cs ih =>
      have hc : (c == '/') = false := beq_eq_false_iff_ne.2 fun hc => h (hc ▸ List.mem_cons_self)
      rw [splitWhere, List.foldr_cons]
      rw [splitWhere] at ih
      rw [ih fun hcs => h (List.mem_cons_of_mem c hcs), hc]
      rfl

/-- A slash parts what is before it from what is behind. -/
lemma splitWhere_slash (cs ds : List Char) :
    splitWhere (· == '/') (cs ++ '/' :: ds)
      = splitWhere (· == '/') cs ++ splitWhere (· == '/') ds :=
  splitWhere_append_cons (· == '/') rfl cs ds

lemma names_join {directory name : String} (hslash : '/' ∉ name.toList) (hne : name ≠ "") :
    names (join directory name) = names directory ++ [name] := by
  have hname : (splitWhere (· == '/') name.toList).filter (!·.isEmpty) = [name.toList] := by
    rw [splitWhere_of_no_slash hslash]
    simpa [List.isEmpty_eq_false_iff] using hne
  have hjoin : (join directory name).toList = (before directory).toList ++ name.toList := by
    rw [join_eq hslash, String.toList_append]
  rcases before_cases directory with ⟨rfl, h⟩ | ⟨cs, h, hd | ⟨hd, -⟩⟩
  · rw [h] at hjoin
    have hnone : names "" = [] := by simp [names, splitWhere]
    rw [names_eq hjoin, hnone]
    simp [hname]
  · rw [h, List.append_assoc, List.singleton_append] at hjoin
    rw [names_eq hjoin, names_eq hd, splitWhere_slash, splitWhere_slash, List.filter_append, hname]
    simp [splitWhere]
  · rw [h, List.append_assoc, List.singleton_append] at hjoin
    rw [names_eq hjoin, names_eq hd, splitWhere_slash, List.filter_append, hname]
    simp

lemma no_slash_of_mem_splitWhere {cs part : List Char}
    (h : part ∈ splitWhere (· == '/') cs) : '/' ∉ part := by
  induction cs generalizing part with
  | nil =>
      rw [List.mem_singleton.1 h]
      exact List.not_mem_nil
  | cons c cs ih =>
      have hne := splitWhere_ne_nil (· == '/') cs
      rw [splitWhere, List.foldr_cons, ← splitWhere] at h
      obtain ⟨first, parts, hparts⟩ := List.exists_cons_of_ne_nil hne
      rw [hparts] at h ih
      split at h
      case isTrue => 
        rcases List.mem_cons.1 h with rfl | h
        · exact List.not_mem_nil
        · exact ih h
      case isFalse hc =>
        rcases List.mem_cons.1 h with rfl | h
        · intro hmem
          rcases List.mem_cons.1 hmem with rfl | hmem
          · exact hc rfl
          · exact ih List.mem_cons_self hmem
        · exact ih (List.mem_cons_of_mem first h)

lemma of_mem_names {path name : String} (h : name ∈ names path) :
    name ≠ "" ∧ '/' ∉ name.toList := by
  obtain ⟨part, hpart, rfl⟩ := List.mem_map.1 h
  obtain ⟨hmem, hne⟩ := List.mem_filter.1 hpart
  refine ⟨?_, by simpa using no_slash_of_mem_splitWhere hmem⟩
  simpa using hne

lemma names_intercalate {ns : List String} (h : ∀ n ∈ ns, n ≠ "" ∧ '/' ∉ n.toList) :
    names ("/".intercalate ns) = ns := by
  induction ns with
  | nil => simp [names, splitWhere]
  | cons n ns ih =>
      obtain ⟨hne, hslash⟩ := h n List.mem_cons_self
      have hn : (splitWhere (· == '/') n.toList).filter (!·.isEmpty) = [n.toList] := by
        rw [splitWhere_of_no_slash hslash]
        simpa [List.isEmpty_eq_false_iff] using hne
      cases ns with
      | nil =>
          rw [names, String.intercalate_singleton, hn]
          simp
      | cons n' ns =>
          have hlist : ("/".intercalate (n :: n' :: ns)).toList
              = n.toList ++ '/' :: ("/".intercalate (n' :: ns)).toList := by
            rw [String.intercalate_cons_cons]
            simp
          have hrest := ih fun m hm => h m (List.mem_cons_of_mem n hm)
          rw [names_eq hlist, splitWhere_slash, List.filter_append, hn, List.map_append]
          rw [names] at hrest
          rw [hrest]
          simp

lemma isAbsolute_join {directory name : String} (hslash : '/' ∉ name.toList) :
    isAbsolute (join directory name) = isAbsolute directory := by
  have hjoin : (join directory name).toList = (before directory).toList ++ name.toList := by
    rw [join_eq hslash, String.toList_append]
  rcases before_cases directory with ⟨rfl, h⟩ | ⟨cs, h, hd | ⟨hd, hcs⟩⟩
  · rw [join_eq hslash, h, String.empty_append, isAbsolute_of_no_slash hslash]
    rfl
  · rw [isAbsolute, isAbsolute, hjoin, h, hd]
    cases cs <;> rfl
  · rw [isAbsolute, isAbsolute, hjoin, h, hd]
    obtain ⟨c, cs, rfl⟩ := List.exists_cons_of_ne_nil hcs
    rfl

lemma endsInSlash_join {directory name : String} (hslash : '/' ∉ name.toList) (hne : name ≠ "") :
    endsInSlash (join directory name) = false := by
  have hname : name.toList ≠ [] := by simpa using hne
  rw [join_eq hslash, endsInSlash, String.toList_append, List.getLast?_append_of_ne_nil _ hname,
    beq_eq_false_iff_ne]
  exact fun hlast => hslash (List.mem_of_mem_getLast? hlast)

/-- The last name of a path, and what stands before it. -/
lemma splitName_join {directory name : String} (hslash : '/' ∉ name.toList) :
    splitName (join directory name).toList = ((before directory).toList, name.toList) := by
  have hname : ∀ c ∈ name.toList.reverse, (c != '/') = true := by
    intro c hc
    rw [bne_iff_ne]
    rintro rfl
    exact hslash (List.mem_reverse.1 hc)
  have hbefore : (before directory).toList.reverse.takeWhile (· != '/') = [] ∧
      (before directory).toList.reverse.dropWhile (· != '/')
        = (before directory).toList.reverse := by
    rcases before_cases directory with ⟨-, h⟩ | ⟨cs, h, -⟩ <;> rw [h] <;> simp
  rw [splitName, join_eq hslash, String.toList_append, List.reverse_append,
    List.dropWhile_append_of_pos hname, List.takeWhile_append_of_pos hname, hbefore.1, hbefore.2]
  simp

end Path

/-! ### Places -/

namespace Disk

variable {d d' : Disk}

lemma walk_append (d : Disk) (p : Place) (names names' : List String) :
    d.walk p (names ++ names') = d.walk p names >>= fun q => d.walk q names' := by
  induction names generalizing p with
  | nil => rfl
  | cons name names ih =>
      rw [List.cons_append, walk, walk]
      split
      · rfl
      · rfl
      · split_ifs
        · exact ih p
        · exact ih p.tail
        · rfl
        · exact ih (name :: p)

lemma walk_mono (h : ∀ q, d.node? q = some .directory → d'.node? q = some .directory)
    {p q : Place} {names : List String} (hw : d.walk p names = .ok q) :
    d'.walk p names = .ok q := by
  induction names generalizing p with
  | nil => exact hw
  | cons name names ih =>
      rw [walk] at hw ⊢
      split at hw
      · cases hw
      · cases hw
      · case _ hp =>
        rw [h p hp]
        dsimp only
        split_ifs at hw ⊢
        · exact ih hw
        · exact ih hw
        · exact ih hw

/-- A name that may stand in a directory. -/
structure IsName (name : String) : Prop where
  no_slash : '/' ∉ name.toList
  ne_empty : name ≠ ""
  ne_here : name ≠ "."
  ne_above : name ≠ ".."
  bytes_le : name.utf8ByteSize ≤ maxNameBytes

/-- A name that is no path and stands for no directory. -/
structure IsPlain (name : String) : Prop where
  no_slash : '/' ∉ name.toList
  ne_empty : name ≠ ""
  ne_here : name ≠ "."
  ne_above : name ≠ ".."

lemma IsPlain.isName {name : String} (h : IsPlain name)
    (hle : name.utf8ByteSize ≤ maxNameBytes) : IsName name :=
  ⟨h.no_slash, h.ne_empty, h.ne_here, h.ne_above, hle⟩

/-- A name inside a directory leads to the place it stands for. -/
lemma walk_name {p : Place} (hp : d.node? p = some .directory) {name : String}
    (h : IsName name) : d.walk p [name] = .ok (name :: p) := by
  rw [walk, hp]
  dsimp only
  rw [if_neg h.ne_here, if_neg h.ne_above, if_neg (Nat.not_lt.2 h.bytes_le)]
  rfl

/-- The place that the names of a path lead to. -/
def base (d : Disk) (path : String) : Except Trouble Place :=
  d.walk (d.origin path) (Path.names path)

/-- A path that can be followed leads where its names lead. -/
lemma locate_eq_base {path : String} (h : checkPath path = .ok ()) :
    d.locate path = d.base path := by
  rw [locate, h]
  rfl

/-- A path into a directory leads through the place of that. -/
lemma locateFile_join {directory name : String} (hname : IsName name)
    (hcheck : checkPath (Path.join directory name) = .ok ()) :
    d.locateFile (Path.join directory name)
      = d.base directory >>= fun p => d.walk p [name] := by
  have horigin : d.origin (Path.join directory name) = d.origin directory := by
    rw [origin, Path.isAbsolute_join hname.no_slash, origin]
  rw [locateFile, hcheck, ok_bind, Path.endsInSlash_join hname.no_slash hname.ne_empty,
    Path.names_join hname.no_slash hname.ne_empty, horigin, base, ← walk_append]
  rfl

end Disk

end DeskCalculator
