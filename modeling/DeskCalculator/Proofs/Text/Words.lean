import DeskCalculator.Proofs.Text.Lines

/-!
Where the words of a text stand in it.

* `words_append_blank`: a blank parts the words before it from those behind.
* `StandsBetween`: characters that are a word between others, with a blank or nothing on either
  side. `IsWordOf`: a text that is one somewhere in another text.
* `words_of_standsBetween`, `exists_standsBetween`: such are the words of a text, and no others.
-/

namespace DeskCalculator

/-! ### Blanks between words -/

/-- The words of a text are those of its characters. -/
lemma words_eq_map (text : String) : words text = (wordParts text.toList).map .ofList := rfl

lemma wordParts_append_blank {b : Char} (hb : isBlank b = true) (cs ds : List Char) :
    wordParts (cs ++ b :: ds) = wordParts cs ++ wordParts ds := by
  rw [wordParts, splitWhere_append_cons isBlank hb, List.filter_append, wordParts, wordParts]

lemma words_append_blank {b : Char} (hb : isBlank b = true) (before behind : String) :
    words (before ++ String.singleton b ++ behind) = words before ++ words behind := by
  have hlist : (before ++ String.singleton b ++ behind).toList
      = before.toList ++ b :: behind.toList := by simp
  rw [words_eq_map, hlist, wordParts_append_blank hb, List.map_append, ← words_eq_map,
    ← words_eq_map]

lemma wordParts_append {cs : List Char} (hcs : ∀ c ∈ cs.getLast?, isBlank c = true)
    (ds : List Char) : wordParts (cs ++ ds) = wordParts cs ++ wordParts ds := by
  rcases List.eq_nil_or_concat cs with rfl | ⟨cs, c, rfl⟩
  · rfl
  · have hc : isBlank c = true := hcs c (by simp)
    rw [List.concat_eq_append, List.append_assoc, List.singleton_append,
      wordParts_append_blank hc, wordParts_concat hc]

/-! ### Words between other characters -/

/-- Characters that are a word between others. -/
structure StandsBetween (before word behind : List Char) : Prop where
  ne_nil : word ≠ []
  no_blank : ∀ c ∈ word, isBlank c = false
  blank_before : ∀ c ∈ before.getLast?, isBlank c = true
  blank_behind : ∀ c ∈ behind.head?, isBlank c = true

/-- A text that is a word somewhere in another one. -/
def IsWordOf (word text : String) : Prop :=
  ∃ before behind : String, text = before ++ word ++ behind ∧
    StandsBetween before.toList word.toList behind.toList

variable {bs ws ds : List Char}

lemma StandsBetween.wordParts_eq (h : StandsBetween bs ws ds) :
    wordParts (bs ++ (ws ++ ds)) = wordParts bs ++ ws :: wordParts ds := by
  have hcut : splitWhere isBlank ws = [ws] := by
    have hnil : splitWhere isBlank (ws ++ []) = [ws ++ []] := splitWhere_append ws h.no_blank rfl
    rwa [List.append_nil] at hnil
  have hword : wordParts ws = [ws] := by
    rw [wordParts, hcut]
    simpa [List.isEmpty_eq_false_iff] using h.ne_nil
  rw [wordParts_append h.blank_before]
  cases ds with
  | nil =>
      rw [List.append_nil, hword]
      rfl
  | cons d ds =>
      have hd : isBlank d = true := h.blank_behind d rfl
      rw [wordParts_append_blank hd, wordParts_cons hd, hword, List.singleton_append]

/-- The first word of some characters stands in them behind blanks. -/
lemma exists_first_word {cs : List Char} {parts : List (List Char)}
    (h : wordParts cs = ws :: parts) :
    ∃ bs ds, cs = bs ++ (ws ++ ds) ∧ StandsBetween bs ws ds ∧ wordParts bs = [] ∧
      wordParts ds = parts := by
  induction cs with
  | nil => cases h
  | cons c cs ih =>
      by_cases hc : isBlank c = true
      · rw [wordParts_cons hc] at h
        obtain ⟨bs, ds, rfl, hstands, hbs, hds⟩ := ih h
        refine ⟨c :: bs, ds, rfl, { hstands with blank_before := ?_ }, ?_, hds⟩
        · cases bs with
          | nil => simpa using hc
          | cons b bs => simpa using hstands.blank_before
        · rw [wordParts_cons hc, hbs]
      · have hcut := List.takeWhile_append_dropWhile (p := (!isBlank ·)) (l := c :: cs)
        have hfirst : StandsBetween [] ((c :: cs).takeWhile (!isBlank ·))
            ((c :: cs).dropWhile (!isBlank ·)) := by
          refine ⟨?_, fun d hd => ?_, nofun, fun d hd => ?_⟩
          · rw [List.takeWhile_cons_of_pos (by simpa using hc)]
            exact List.cons_ne_nil _ _
          · simpa using List.mem_takeWhile_imp hd
          · have hhead := List.head?_dropWhile_not (fun d => !isBlank d) (c :: cs)
            rw [hd] at hhead
            simpa using hhead
        rw [← hcut, ← List.nil_append (_ ++ _), hfirst.wordParts_eq] at h
        obtain ⟨rfl, rfl⟩ := List.cons.inj h
        exact ⟨[], _, hcut.symm, hfirst, rfl, rfl⟩

lemma exists_of_wordParts {cs : List Char} {front back : List (List Char)}
    (h : wordParts cs = front ++ ws :: back) :
    ∃ bs ds, cs = bs ++ (ws ++ ds) ∧ StandsBetween bs ws ds ∧ wordParts bs = front ∧
      wordParts ds = back := by
  induction front generalizing cs with
  | nil => exact exists_first_word h
  | cons first front ih =>
      obtain ⟨bs, rest, rfl, hfirst, hbs, hrest⟩ := exists_first_word h
      obtain ⟨es, ds, rfl, hstands, hes, hds⟩ := ih hrest
      -- two words do not touch
      have hne : es ≠ [] := by
        rintro rfl
        obtain ⟨w, ws, rfl⟩ := List.exists_cons_of_ne_nil hstands.ne_nil
        have hblank := hfirst.blank_behind w rfl
        rw [hstands.no_blank w List.mem_cons_self] at hblank
        cases hblank
      have hbefore : StandsBetween bs first es := by
        refine { hfirst with blank_behind := fun c hc => hfirst.blank_behind c ?_ }
        rw [List.head?_append_of_ne_nil _ hne]
        exact hc
      refine ⟨bs ++ (first ++ es), ds, by simp, { hstands with blank_before := ?_ }, ?_, hds⟩
      · rw [List.getLast?_append_of_ne_nil _ (by simp [hne]),
          List.getLast?_append_of_ne_nil _ hne]
        exact hstands.blank_before
      · rw [hbefore.wordParts_eq, hbs, hes]
        rfl

/-! ### Words of texts -/

/-- A text that stands as a word between two others is one between their words. -/
theorem words_of_standsBetween {before word behind : String}
    (h : StandsBetween before.toList word.toList behind.toList) :
    words (before ++ word ++ behind) = words before ++ word :: words behind := by
  have hlist : (before ++ word ++ behind).toList
      = before.toList ++ (word.toList ++ behind.toList) := by simp
  rw [words_eq_map, hlist, h.wordParts_eq, List.map_append, List.map_cons, String.ofList_toList,
    ← words_eq_map, ← words_eq_map]

/-- A word of a text stands in it between texts with the words before it and behind it. -/
theorem exists_standsBetween {text word : String} {front back : List String}
    (h : words text = front ++ word :: back) :
    ∃ before behind : String, text = before ++ word ++ behind ∧
      StandsBetween before.toList word.toList behind.toList ∧
      words before = front ∧ words behind = back := by
  rw [words_eq_map, List.map_eq_append_iff] at h
  obtain ⟨front, rest, h, rfl, hrest⟩ := h
  obtain ⟨ws, back, rfl, rfl, rfl⟩ := List.map_eq_cons_iff.1 hrest
  obtain ⟨bs, ds, htext, hstands, rfl, rfl⟩ := exists_of_wordParts h
  refine ⟨.ofList bs, .ofList ds, ?_, by simpa using hstands, ?_, ?_⟩
  · apply String.toList_inj.1
    simp [htext]
  · rw [words_eq_map, String.toList_ofList]
  · rw [words_eq_map, String.toList_ofList]

theorem mem_words_iff {text word : String} : word ∈ words text ↔ IsWordOf word text := by
  constructor
  · intro h
    obtain ⟨front, back, hwords⟩ := List.append_of_mem h
    obtain ⟨before, behind, htext, hstands, -⟩ := exists_standsBetween hwords
    exact ⟨before, behind, htext, hstands⟩
  · rintro ⟨before, behind, rfl, hstands⟩
    rw [words_of_standsBetween hstands]
    simp

end DeskCalculator
