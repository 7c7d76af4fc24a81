import DeskCalculator.Proofs.Logbook.Calls
import DeskCalculator.Proofs.Storage.ReadBack
import DeskCalculator.Proofs.Text.ArraySyntax

/-!
A logbook is loaded as a whole or not at all.

What is found under the key of a logbook may be any text, or nothing, or unreadable. The notes are
the first five strings of an array of strings, which has to be one to its end; of anything else
nothing is loaded.

* `LawfulStorage`: what has been put under a key is found there, as in memory and in a directory.
* `HoldsArray`: the array of some texts is under a key.
* `Logbook.notes_reload_of_holds`, `Logbook.notes_reload_of_not_holds`: what is loaded.
* `Logbook.find?_of_enter`: what the next note leaves in storage.
* `reload_is_all_or_nothing`: the result.
-/

namespace DeskCalculator

open StringArray (IsArray GoesWrong)

/-! ### Storage that keeps what it is told -/

/-- What has been put under a key is found there. -/
class LawfulStorage (σ : Type) [Storage σ] : Prop where
  find?_of_insert : ∀ {storage storage' : σ} {key text : String},
    Storage.insert storage key text = (.ok (), storage') →
      Storage.find? storage' key = .ok (some text)

instance : LawfulStorage DirectoryStorage := ⟨DirectoryStorage.find?_of_insert⟩

instance : LawfulStorage MemoryStorage where
  find?_of_insert {m m'} {key text} h := by
    change m.write (·.putKey key text) = _ at h
    rw [MemoryStorage.write] at h
    split_ifs at h with hrefuses
    · cases h
    · obtain rfl : m.putKey key text = m' := congrArg Prod.snd h
      exact congrArg Except.ok ((m.lookup_putKey key key text).trans (if_pos BEq.rfl))

variable {σ : Type} [Storage σ]

/-- The array of some texts is under a key. -/
def HoldsArray (storage : σ) (key : String) (texts : List String) : Prop :=
  ∃ text, Storage.find? storage key = .ok (some text) ∧ IsArray text.toList texts

namespace Logbook

variable {book : Logbook} {storage : σ}

/-! ### What is loaded -/

/-- Of an array the first texts are loaded. -/
lemma notes_reload_of_holds {texts : List String} (h : HoldsArray storage book.key texts) :
    (book.reload storage).notes = texts.take capacity := by
  obtain ⟨text, hfind, harray⟩ := h
  have hnotes : storedNotes storage book.key = texts := by
    rw [storedNotes, hfind]
    simp only [StringArray.decode?_eq_some_iff.2 harray, Option.getD_some]
  rw [reload, stored, hnotes, ofNotes]

lemma notes_reload_of_not_holds (h : ∀ texts, ¬ HoldsArray storage book.key texts) :
    (book.reload storage).notes = [] := by
  have hnotes : storedNotes storage book.key = [] := by
    rw [storedNotes]
    split
    · case _ text hfind =>
        have hnone : StringArray.decode? text = none :=
          Option.eq_none_iff_forall_ne_some.2 fun texts htexts =>
            h texts ⟨text, hfind, StringArray.decode?_eq_some_iff.1 htexts⟩
        rw [hnone, Option.getD_none]
    · rfl
  rw [reload, stored, hnotes]
  rfl

lemma not_holdsArray_of_goesWrong {text key : String}
    (hfind : Storage.find? storage key = .ok (some text)) (h : GoesWrong text.toList)
    (texts : List String) : ¬ HoldsArray storage key texts := by
  rintro ⟨text', hfind', harray⟩
  obtain rfl : text = text' := Option.some.inj (Except.ok.inj (hfind.symm.trans hfind'))
  exact h.not_isArray texts harray

/-! ### The next note -/

/-- A note that is stored stands before the latest of the others. -/
lemma find?_of_enter [LawfulStorage σ] {storage' : σ} {note : String}
    (h : (book.enter storage note).2 = (.ok (), storage')) :
    Storage.find? storage' book.key
      = .ok (some (StringArray.encode (note :: book.notes.take 4))) :=
  LawfulStorage.find?_of_insert h

lemma holdsArray_of_find? {key : String} {notes : List String}
    (h : Storage.find? storage key = .ok (some (StringArray.encode notes))) :
    HoldsArray storage key notes :=
  ⟨_, h, StringArray.decode?_eq_some_iff.1 (StringArray.decode?_encode notes)⟩

end Logbook

/-- **A logbook is loaded as a whole or not at all.** Take any logbook, and anything under its key
in storage that keeps what it is told.

* Loading succeeds and leaves storage as it is.
* If an array of strings is found, of any length, with any escapes and blanks of JSON, the notes
  are the first five of the strings.
* If none is found there are no notes: so it is where a text goes wrong at any of its characters,
  be it in an element that would not be among the first five.
* If the next note can be stored, the text under the key is the array of this note and at most the
  first four of those which were loaded. -/
theorem reload_is_all_or_nothing [LawfulStorage σ] (book : Logbook) (storage : σ) :
    (book.call storage .reload).2 = (.ok (), storage) ∧
      (∀ texts, HoldsArray storage book.key texts →
        (book.call storage .reload).1.notes = texts.take 5) ∧
      ((∀ texts, ¬ HoldsArray storage book.key texts) →
        (book.call storage .reload).1.notes = []) ∧
      (∀ text, Storage.find? storage book.key = .ok (some text) → GoesWrong text.toList →
        (book.call storage .reload).1.notes = []) ∧
      ∀ (note : String) (before storage' : σ),
        ((book.call storage .reload).1.call before (.enter note)).2 = (.ok (), storage') →
          Storage.find? storage' book.key = .ok (some (StringArray.encode
            (note :: (book.call storage .reload).1.notes.take 4))) ∧
          HoldsArray storage' book.key (note :: (book.call storage .reload).1.notes.take 4) := by
  refine ⟨rfl, fun texts h => Logbook.notes_reload_of_holds h, Logbook.notes_reload_of_not_holds,
    fun text hfind h => Logbook.notes_reload_of_not_holds
      (Logbook.not_holdsArray_of_goesWrong hfind h), fun note before storage' h => ?_⟩
  have hfind := Logbook.find?_of_enter h
  exact ⟨hfind, Logbook.holdsArray_of_find? hfind⟩

/-- Six strings, with blanks, a pair of surrogates and another escape; and an array that goes
wrong at its sixth element. -/
theorem reload_is_all_or_nothing_of_six :
    let book := Logbook.empty usualKey
    let six : MemoryStorage :=
      ⟨[(usualKey, " [ \"\\ud83d\\ude00\" ,\n\"\\u00b2\\n\",\"c\",\"d\",\"e\",\"f\"]\t")], false⟩
    let wrong : MemoryStorage := ⟨[(usualKey, "[\"a\",\"b\",\"c\",\"d\",\"e\",6]")], false⟩
    HoldsArray six book.key ["😀", "²\n", "c", "d", "e", "f"] ∧
      (book.call six .reload).1.notes = ["😀", "²\n", "c", "d", "e"] ∧
      GoesWrong "[\"a\",\"b\",\"c\",\"d\",\"e\",6]".toList ∧
      (book.call wrong .reload).1.notes = [] ∧
      ∃ storage', ((book.call six .reload).1.call six (.enter "1+1 = 2")).2 = (.ok (), storage') ∧
        HoldsArray storage' book.key ["1+1 = 2", "😀", "²\n", "c", "d"] := by
  intro book six wrong
  have hsix : HoldsArray six book.key ["😀", "²\n", "c", "d", "e", "f"] :=
    ⟨_, rfl, StringArray.decode?_eq_some_iff.1 (by decide +kernel)⟩
  have hwrong : GoesWrong "[\"a\",\"b\",\"c\",\"d\",\"e\",6]".toList := by
    have hread : StringArray.HasRead "[\"a\",\"b\",\"c\",\"d\",\"e\",".toList
        (.afterComma ["e", "d", "c", "b", "a"]) := StringArray.hasRead_of_foldlM rfl
    obtain ⟨inner, g, hopens, hitems, hgap⟩ := hread
    have hrest := GoesWrong.item (c := '6') hopens (.inr ⟨inner, g, rfl, hitems, hgap⟩)
      (by decide) (by simp [StringArray.IsGap]) (by decide) [']']
    exact hrest
  obtain ⟨-, hload, -, -, hnext⟩ := reload_is_all_or_nothing book six
  have hnotes := hload _ hsix
  have hstored := (hnext "1+1 = 2" six _ rfl).2
  rw [hnotes] at hstored
  exact ⟨hsix, hnotes, hwrong,
    (reload_is_all_or_nothing book wrong).2.2.2.1 _ rfl hwrong, _, rfl, hstored⟩

end DeskCalculator
