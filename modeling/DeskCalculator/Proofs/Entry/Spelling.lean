import DeskCalculator.Entry.Key
import DeskCalculator.Proofs.Entry.Typing
import DeskCalculator.Proofs.Outcome

/-!
Lines of keys that have a character.

Where every character of a line is a key, the line is those keys, and blanks may stand anywhere:
no word of such characters is the name of a key, because every name has a letter that is no key
in either case.

* `flatten_splitWhere`, `flatMap_words`: cutting a text into words drops its blanks and nothing
  else.
* `Key.letters`: a letter of every name. `Key.toLower_notMem_letters`: none of them is a key.
* `Key.ofWord_of_isSome`: so a word of such characters is read character by character.
* `keysOfLine_of_isSome`: and so is a line of them.
-/

namespace DeskCalculator

/-! ### Words -/

lemma flatten_extendFirst {α : Type} (x : α) (parts : List (List α)) :
    (extendFirst x parts).flatten = x :: parts.flatten := by
  cases parts <;> rfl

/-- Cutting at separators drops them and nothing else. -/
lemma flatten_splitWhere {α : Type} (isSeparator : α → Bool) (xs : List α) :
    (splitWhere isSeparator xs).flatten = xs.filter (!isSeparator ·) := by
  induction xs with
  | nil => rfl
  | cons x xs ih =>
      rw [splitWhere] at ih ⊢
      rw [List.foldr_cons, List.filter_cons]
      split
      case isTrue hx => simpa [hx] using ih
      case isFalse hx => simpa [hx, flatten_extendFirst] using ih

/-- The words of a text are what is left of it without its blanks. -/
lemma flatMap_words (text : String) :
    (words text).flatMap String.toList = text.toList.filter (!isBlank ·) := by
  rw [← flatten_splitWhere, words, List.flatMap_map, ← List.flatten_filter_not_isEmpty]
  simp

namespace Key

/-! ### Names -/

/-- Letters of which every name has one. -/
def letters : List Char := ['x', 's', 'p', 'd', 'b', 'l', 'h', 'o']

lemma exists_mem_letters : ∀ entry ∈ names, ∃ c ∈ entry.1.toList, c ∈ letters := by
  have h : (names.all fun entry => entry.1.toList.any letters.contains) = true := by decide
  intro entry hentry
  simpa using List.all_eq_true.1 h entry hentry

/-- The characters of the alphabet have no case. -/
lemma toLower_of_inAlphabet {c : Char} (h : inAlphabet c = true) : c.toLower = c := by
  simp only [inAlphabet, isNumeral, Bool.or_eq_true, beq_iff_eq] at h
  rcases h with ((hdigit | rfl) | hop) | hparen
  · refine dif_neg fun hupper => ?_
    simp only [Char.isDigit, Bool.and_eq_true, decide_eq_true_eq] at hdigit
    exact absurd (UInt32.le_trans hupper.1 hdigit.2) (by decide)
  · rfl
  · rcases isOperatorChar_iff.1 hop with rfl | rfl | rfl | rfl <;> rfl
  · obtain ⟨p, hp⟩ := Option.isSome_iff_exists.1 hparen
    rw [← Paren.char_of_ofChar? hp]
    cases p <;> rfl

lemma ofChar?_isSome (c : Char) :
    (ofChar? c).isSome = (inAlphabet c || (signs.lookup c).isSome) := by
  have halphabet : (ofAlphabet? c).isSome = inAlphabet c := by
    rw [ofAlphabet?, inAlphabet, isOperatorChar, isParenChar]
    split
    case isTrue h => rw [h]; rfl
    case isFalse h =>
      rw [Bool.eq_false_iff.2 h]
      cases Paren.ofChar? c <;> cases Operator.ofChar? c <;> rfl
  rw [← halphabet, ofChar?]
  cases ofAlphabet? c <;> rfl

lemma toLower_notMem_letters {c : Char} (h : (ofChar? c).isSome = true) :
    c.toLower ∉ letters := by
  rw [ofChar?_isSome, Bool.or_eq_true, List.lookup_isSome_iff] at h
  rcases h with halphabet | ⟨entry, hentry, hc⟩
  · rw [toLower_of_inAlphabet halphabet]
    have hletters : letters.all (!inAlphabet ·) = true := by decide
    intro hmem
    have hc := List.all_eq_true.1 hletters c hmem
    rw [halphabet] at hc
    cases hc
  · have hsigns : ∀ entry ∈ signs, entry.1.toLower ∉ letters := by decide
    rw [beq_iff_eq.1 hc]
    exact hsigns entry hentry

lemma ofName?_eq_none {cs : List Char} (h : ∀ c ∈ cs, (ofChar? c).isSome = true) :
    ofName? (.ofList cs) = none := by
  rw [ofName?, String.toList_ofList, List.lookup_eq_none_iff]
  intro entry hentry
  rw [bne_iff_ne]
  intro hname
  obtain ⟨c, hc, hletter⟩ := exists_mem_letters entry hentry
  rw [← hname, String.toList_ofList] at hc
  obtain ⟨d, hd, rfl⟩ := List.mem_map.1 hc
  exact toLower_notMem_letters (h d hd) hletter

/-! ### Words of keys -/

/-- The keys of characters, each of which is one. -/
lemma mapM_ofChar? {cs : List Char} (h : ∀ c ∈ cs, (ofChar? c).isSome = true) :
    cs.mapM ofChar? = some (cs.filterMap ofChar?) := by
  induction cs with
  | nil => rfl
  | cons c cs ih =>
      obtain ⟨k, hk⟩ := Option.isSome_iff_exists.1 (h c List.mem_cons_self)
      rw [List.mapM_cons, ih fun d hd => h d (List.mem_cons_of_mem c hd), hk,
        List.filterMap_cons_some hk]
      rfl

/-- A word of such characters is one key, or is read character by character; either way it is
their keys. -/
lemma ofWord_of_isSome {cs : List Char} (h : ∀ c ∈ cs, (ofChar? c).isSome = true) :
    ofWord (.ofList cs) = .ok (cs.filterMap ofChar?) := by
  obtain hsingle | ⟨c, rfl⟩ : ofSingle? (.ofList cs) = none ∨ ∃ c, cs = [c] := by
    rw [ofSingle?, String.toList_ofList]
    split
    · exact Or.inr ⟨_, rfl⟩
    · exact Or.inl rfl
  · rw [ofWord, ofText, hsingle, ofName?_eq_none h, String.toList_ofList, mapM_ofChar? h]
    rfl
  · obtain ⟨k, hk⟩ := Option.isSome_iff_exists.1 (h c List.mem_cons_self)
    have hsingle : ofSingle? (.ofList [c]) = some k := by
      rw [ofSingle?, String.toList_ofList]
      exact hk
    rw [ofWord, ofText, hsingle, List.filterMap_cons_some hk]
    rfl

end Key

/-- **A line of characters that are keys is those keys**, wherever blanks stand in it. -/
theorem keysOfLine_of_isSome {line : String}
    (h : ∀ c ∈ line.toList, isBlank c = false → (Key.ofChar? c).isSome = true) :
    keysOfLine line = .ok ((line.toList.filter (!isBlank ·)).filterMap Key.ofChar?) := by
  have hwords : (words line).mapM Key.ofWord
      = .ok ((words line).map fun word => word.toList.filterMap Key.ofChar?) := by
    rw [mapM_eq_ok_iff, List.forall₂_map_right_iff, List.forall₂_same]
    intro word hword
    have hkeys : ∀ c ∈ word.toList, (Key.ofChar? c).isSome = true := by
      intro c hc
      have hmem : c ∈ (words line).flatMap String.toList := List.mem_flatMap.2 ⟨word, hword, hc⟩
      rw [flatMap_words, List.mem_filter, Bool.not_eq_true'] at hmem
      exact h c hmem.1 hmem.2
    have hword := Key.ofWord_of_isSome hkeys
    rwa [String.ofList_toList] at hword
  rw [keysOfLine, hwords, ← flatMap_words, List.filterMap_flatMap, List.flatMap_def]
  rfl

end DeskCalculator
