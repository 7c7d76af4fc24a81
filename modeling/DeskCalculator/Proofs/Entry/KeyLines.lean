import DeskCalculator.Proofs.Entry.Spelling
import DeskCalculator.Proofs.Text.Words

/-!
Lines of keys are read in one way.

A word that spells a key is that key and any other word is read character by character, so it
has to be ruled out that a run of characters is taken for a name, that a blank changes more than
where words end, and that a word further on decides what a line fails with.

* `Key.IsReadable`: a word that spells a key or consists of characters that are keys.
  `Key.exists_ofWord_iff`, `Key.ofWord_eq_error_iff`: when a word can be read, and what it fails
  with.
* `keysOfLine_eq_error_iff`: a line fails with its first word that cannot be read.
* `keysOfLine_append_blank`: a blank parts two lines.
* `key_lines_unambiguous`: the result.
-/

namespace DeskCalculator

namespace Key

/-! ### Words that can be read -/

/-- A word that spells a key, or of which every character is a key. -/
def IsReadable (word : String) : Prop :=
  (∃ k, ofText word = .ok k) ∨ ∀ c ∈ word.toList, (ofChar? c).isSome = true

/-- The characters that are keys are no more than are there. -/
lemma isSome_of_mapM {cs : List Char} {ks : List Key} (h : cs.mapM ofChar? = some ks) :
    ∀ c ∈ cs, (ofChar? c).isSome = true := by
  induction cs generalizing ks with
  | nil => nofun
  | cons c cs ih =>
      rw [List.mapM_cons] at h
      obtain ⟨k, hk, h⟩ := Option.bind_eq_some_iff.1 h
      obtain ⟨ks', hks, -⟩ := Option.bind_eq_some_iff.1 h
      exact List.forall_mem_cons.2 ⟨by rw [hk]; rfl, ih hks⟩

lemma exists_ofWord_iff {word : String} : (∃ ks, ofWord word = .ok ks) ↔ IsReadable word := by
  rw [ofWord, IsReadable]
  cases ofText word with
  | ok k => simp
  | error u =>
      cases hks : word.toList.mapM ofChar? with
      | some ks => simpa using isSome_of_mapM hks
      | none =>
          suffices ¬ ∀ c ∈ word.toList, (ofChar? c).isSome = true by simpa using this
          intro hall
          rw [mapM_ofChar? hall] at hks
          cases hks

lemma ofWord_eq_error_iff {word : String} {u : UnknownKey} :
    ofWord word = .error u ↔ u.text = word ∧ ¬ IsReadable word := by
  rw [← exists_ofWord_iff, ofWord]
  cases ofText word with
  | ok k => simp
  | error u' =>
      cases word.toList.mapM ofChar? with
      | some ks => simp
      | none =>
          obtain ⟨text⟩ := u
          simp [eq_comm]

end Key

/-! ### Lines -/

lemma keysOfLine_eq_error_iff {line : String} {u : UnknownKey} :
    keysOfLine line = .error u ↔
      ∃ front back, words line = front ++ u.text :: back ∧ (∀ word ∈ front, Key.IsReadable word) ∧
        ¬ Key.IsReadable u.text := by
  rw [keysOfLine, map_eq_error_iff, mapM_eq_error_iff]
  simp only [Key.exists_ofWord_iff, Key.ofWord_eq_error_iff]
  constructor
  · rintro ⟨front, word, back, hwords, hfront, rfl, hword⟩
    exact ⟨front, back, hwords, hfront, hword⟩
  · rintro ⟨front, back, hwords, hfront, hword⟩
    exact ⟨front, u.text, back, hwords, hfront, rfl, hword⟩

lemma exists_keysOfLine_eq_error_iff {line : String} :
    (∃ u, keysOfLine line = .error u) ↔ ∃ word ∈ words line, ¬ Key.IsReadable word := by
  constructor
  · rintro ⟨u, h⟩
    obtain ⟨front, back, hwords, -, hword⟩ := keysOfLine_eq_error_iff.1 h
    exact ⟨u.text, by simp [hwords], hword⟩
  · rintro ⟨word, hmem, hword⟩
    rcases h : keysOfLine line with u | ks
    · exact ⟨u, rfl⟩
    · obtain ⟨kss, hkss, -⟩ := map_eq_ok_iff.1 h
      obtain ⟨ks', -, hks'⟩ := exists_ok_of_mem hkss hmem
      exact absurd (Key.exists_ofWord_iff.1 ⟨ks', hks'⟩) hword

lemma keysOfLine_append_blank {b : Char} (hb : isBlank b = true) (front back : String) :
    keysOfLine (front ++ String.singleton b ++ back) =
      match keysOfLine front, keysOfLine back with
      | .ok ks, .ok ks' => .ok (ks ++ ks')
      | .ok _, .error u => .error u
      | .error u, _ => .error u := by
  rw [keysOfLine, keysOfLine, keysOfLine, words_append_blank hb, List.mapM_append]
  cases (words front).mapM Key.ofWord with
  | error u => rfl
  | ok kss =>
      cases (words back).mapM Key.ofWord with
      | error u => rfl
      | ok kss' => exact congrArg Except.ok List.flatten_append

/-- **Lines of keys are read in one way.**

* A line of characters that are keys is those keys in order, wherever blanks stand in it: no run
  of such characters is taken for the name of a key.
* A line with a blank in it has the keys of what is before the blank and of what is behind, and
  if one of these fails it fails as that one does, as the first one if both do.
* A line fails exactly when a word stands in it that neither spells a key nor consists of
  characters that are keys. It fails with such a word as it stands in the line, whole, behind
  words all of which can be read. -/
theorem key_lines_unambiguous (line : String) :
    ((∀ c ∈ line.toList, isBlank c = false → (Key.ofChar? c).isSome = true) →
      keysOfLine line = .ok ((line.toList.filter (!isBlank ·)).filterMap Key.ofChar?)) ∧
    (∀ (b : Char) (back : String), isBlank b = true →
      keysOfLine (line ++ String.singleton b ++ back) =
        match keysOfLine line, keysOfLine back with
        | .ok ks, .ok ks' => .ok (ks ++ ks')
        | .ok _, .error u => .error u
        | .error u, _ => .error u) ∧
    ((∃ u, keysOfLine line = .error u) ↔
      ∃ word, IsWordOf word line ∧ ¬ Key.IsReadable word) ∧
    ∀ u, keysOfLine line = .error u ↔
      ∃ before behind : String, line = before ++ u.text ++ behind ∧
        StandsBetween before.toList u.text.toList behind.toList ∧ ¬ Key.IsReadable u.text ∧
        ∀ word, IsWordOf word before → Key.IsReadable word := by
  refine ⟨keysOfLine_of_isSome, fun b back hb => keysOfLine_append_blank hb line back, ?_,
    fun u => ?_⟩
  · simp only [exists_keysOfLine_eq_error_iff, mem_words_iff]
  · simp only [keysOfLine_eq_error_iff, ← mem_words_iff]
    constructor
    · rintro ⟨front, back, hwords, hfront, hword⟩
      obtain ⟨before, behind, hline, hstands, rfl, -⟩ := exists_standsBetween hwords
      exact ⟨before, behind, hline, hstands, hword, hfront⟩
    · rintro ⟨before, behind, rfl, hstands, hword, hbefore⟩
      exact ⟨words before, words behind, words_of_standsBetween hstands, hbefore, hword⟩

/-- A line of characters, a line of names behind it, and behind a blank one with two words that
cannot be read. -/
theorem key_lines_unambiguous_of_power :
    keysOfLine " (1c\t+2)²"
      = .ok ((" (1c\t+2)²".toList.filter (!isBlank ·)).filterMap Key.ofChar?) ∧
    keysOfLine (" (1c\t+2)²" ++ String.singleton ' ' ++ "X² 2^3 4^5") = .error ⟨"2^3"⟩ := by
  have hback : keysOfLine "X² 2^3 4^5" = .error ⟨"2^3"⟩ := by decide +kernel
  have hkeys : (" (1c\t+2)²".toList.all fun c => isBlank c || (Key.ofChar? c).isSome) = true := by
    decide +kernel
  have hfront := (key_lines_unambiguous " (1c\t+2)²").1 fun c hc hblank => by
    simpa [hblank] using List.all_eq_true.1 hkeys c hc
  refine ⟨hfront, ?_⟩
  rw [(key_lines_unambiguous " (1c\t+2)²").2.1 ' ' "X² 2^3 4^5" rfl, hfront, hback]

end DeskCalculator
