import Mathlib.Data.List.DropRight
import DeskCalculator.Desk.Console
import DeskCalculator.Proofs.Text.Bytes

/-!
The lines of a text, found among its bytes.

Lines are cut where a byte is a line end. No character but the line end has that byte, so the
cuts are those of the text, and every line is a text again. A carriage return before a line end
is a blank of the line, which neither its words nor the question whether it is one to leave by
depend on.

* `textLines`: the lines of a text.
* `textLines_join`: lines that are written one after the other.
* `splitWhere_encodeChars`: cutting the bytes of a text is cutting the text.
* `inputLines_toUTF8`: the lines of an input that is a text.
* `words_trim`, `trim_withoutReturn`: blanks at the ends of a line do not matter.
-/

namespace DeskCalculator

/-- The parts of a text between its line ends; nothing behind the last line end is no part. -/
def textParts (cs : List Char) : List (List Char) :=
  let parts := splitWhere (· == '\n') cs
  if parts.getLast? == some [] then parts.dropLast else parts

/-- The lines of a text. -/
def textLines (text : String) : List String := (textParts text.toList).map .ofList

/-! ### Lines -/

lemma splitWhere_append {α : Type} {isSeparator : α → Bool} (xs : List α)
    (hxs : ∀ x ∈ xs, isSeparator x = false) {ys part : List α} {parts : List (List α)}
    (hys : splitWhere isSeparator ys = part :: parts) :
    splitWhere isSeparator (xs ++ ys) = (xs ++ part) :: parts := by
  induction xs with
  | nil => exact hys
  | cons x xs ih =>
      have ih := ih fun y hy => hxs y (List.mem_cons_of_mem x hy)
      rw [splitWhere] at ih ⊢
      rw [List.cons_append, List.foldr_cons, ih, if_neg (by simp [hxs x])]
      rfl

/-- Elements that are no separators are one part. -/
lemma splitWhere_eq_singleton {α : Type} {isSeparator : α → Bool} {xs : List α}
    (hxs : ∀ x ∈ xs, isSeparator x = false) : splitWhere isSeparator xs = [xs] := by
  have h := splitWhere_append xs hxs (show splitWhere isSeparator [] = [[]] from rfl)
  rwa [List.append_nil] at h

/-- Lines that are written one after the other, each with a line end behind it, are the lines
of the text. -/
lemma textLines_join {lines : List String} (h : ∀ line ∈ lines, '\n' ∉ line.toList) :
    textLines (String.join (lines.map (· ++ "\n"))) = lines := by
  have hsplit : splitWhere (· == '\n') ((lines.map String.toList).flatMap (· ++ ['\n']))
      = lines.map String.toList ++ [[]] := by
    induction lines with
    | nil => rfl
    | cons line lines ih =>
        have hline : ∀ c ∈ line.toList, (c == '\n') = false := by
          intro c hc
          rw [beq_eq_false_iff_ne]
          exact fun he => h line List.mem_cons_self (he ▸ hc)
        rw [List.map_cons, List.flatMap_cons, List.append_assoc, List.singleton_append,
          splitWhere_append_cons (· == '\n') BEq.rfl, splitWhere_eq_singleton hline,
          ih fun line hline => h line (List.mem_cons_of_mem _ hline)]
        rfl
  have hchars : (String.join (lines.map (· ++ "\n"))).toList
      = (lines.map String.toList).flatMap (· ++ ['\n']) := by
    simp [String.toList_join, List.flatMap_map]
  rw [textLines, hchars, textParts, hsplit, if_pos (by simp), List.dropLast_concat, List.map_map]
  exact (List.map_congr_left fun line _ => String.ofList_toList).trans (List.map_id lines)

/-- Cutting the bytes of a text at the line ends is cutting the text there. -/
lemma splitWhere_encodeChars (cs : List Char) :
    splitWhere (· == 10) (encodeChars cs) = (splitWhere (· == '\n') cs).map encodeChars := by
  induction cs with
  | nil => rfl
  | cons c cs ih =>
      rw [encodeChars_cons]
      by_cases hc : c = '\n'
      · subst hc
        exact congrArg ([] :: ·) ih
      · obtain ⟨part, parts, h⟩ := List.exists_cons_of_ne_nil (splitWhere_ne_nil (· == '\n') cs)
        have hbytes : ∀ b ∈ String.utf8EncodeChar c, (b == 10) = false := by
          intro b hb
          rw [beq_eq_false_iff_ne]
          rintro rfl
          exact hc (eq_lineEnd_of_mem hb)
        rw [h, List.map_cons] at ih
        have hchars : splitWhere (· == '\n') (c :: cs) = (c :: part) :: parts :=
          splitWhere_append [c] (by simpa using hc) h
        rw [splitWhere_append _ hbytes ih, hchars]
        rfl

/-- Characters without the carriage return that may end them. -/
def withoutReturn (cs : List Char) : List Char :=
  if cs.getLast? == some '\r' then cs.dropLast else cs

/-- The carriage return is dropped from the bytes where it is from the characters. -/
lemma dropCarriageReturn_encodeChars (cs : List Char) :
    dropCarriageReturn (encodeChars cs) = encodeChars (withoutReturn cs) := by
  rcases List.eq_nil_or_concat cs with rfl | ⟨cs, c, rfl⟩
  · rfl
  · have hbytes : encodeChars (cs.concat c) = encodeChars cs ++ String.utf8EncodeChar c := by
      rw [List.concat_eq_append, encodeChars_append]
      exact congrArg _ (List.append_nil _)
    rw [dropCarriageReturn, withoutReturn, hbytes, List.concat_eq_append]
    by_cases hc : c = '\r'
    · subst hc
      have hreturn : String.utf8EncodeChar '\r' = [13] := rfl
      rw [hreturn, if_pos (by simp), if_pos (by simp), List.dropLast_concat, List.dropLast_concat]
    · have hlast : (encodeChars cs ++ String.utf8EncodeChar c).getLast? ≠ some 13 := by
        rw [List.getLast?_append_of_ne_nil _ String.utf8EncodeChar_ne_nil]
        exact fun h => hc (eq_return_of_mem (List.mem_of_getLast? h))
      rw [if_neg (by simpa using hlast), if_neg (by simpa using hc), ← hbytes,
        List.concat_eq_append]

/-- The parts of the bytes are those of the text. -/
lemma lineParts_encodeChars (cs : List Char) :
    lineParts (encodeChars cs) = (textParts cs).map encodeChars := by
  have hlast : (((splitWhere (· == '\n') cs).map encodeChars).getLast? == some [])
      = ((splitWhere (· == '\n') cs).getLast? == some []) := by
    rw [List.getLast?_map]
    cases (splitWhere (· == '\n') cs).getLast? with
    | none => rfl
    | some part =>
        rw [Option.map_some, Bool.eq_iff_iff, beq_iff_eq, beq_iff_eq, Option.some_inj,
          Option.some_inj, encodeChars_eq_nil_iff]
  rw [lineParts, textParts, splitWhere_encodeChars, hlast]
  split
  · rw [List.map_dropLast]
  · rfl

/-- The lines of an input that is a text are those of the text, without carriage returns. -/
lemma inputLines_toUTF8 (text : String) :
    inputLines text.toUTF8
      = (textLines text).map fun line => some (.ofList (withoutReturn line.toList)) := by
  have hbytes : text.toUTF8 = ⟨(encodeChars text.toList).toArray⟩ := by
    rw [← toUTF8_ofList, String.ofList_toList]
  rw [inputLines, hbytes, List.toList_toArray, lineParts_encodeChars, textLines, List.map_map,
    List.map_map]
  refine List.map_congr_left fun part _ => ?_
  rw [Function.comp_apply, Function.comp_apply, dropCarriageReturn_encodeChars,
    fromUTF8?_encodeChars, String.toList_ofList]

/-! ### Blanks -/

lemma trim_eq (text : String) :
    trim text = .ofList ((text.toList.dropWhile isBlank).rdropWhile isBlank) := rfl

lemma trim_concat {b : Char} (hb : isBlank b = true) (cs : List Char) :
    trim (.ofList (cs ++ [b])) = trim (.ofList cs) := by
  rw [trim_eq, trim_eq, String.toList_ofList, String.toList_ofList, List.dropWhile_append]
  split
  · case _ hempty =>
      rw [List.isEmpty_iff.1 hempty, List.dropWhile_cons_of_pos hb]
      rfl
  · rw [List.rdropWhile_concat_pos isBlank _ b hb]

lemma trim_withoutReturn (line : String) :
    trim (.ofList (withoutReturn line.toList)) = trim line := by
  rw [withoutReturn]
  split
  · case _ hlast =>
      have hline : line = .ofList (line.toList.dropLast ++ ['\r']) := by
        rw [List.dropLast_append_getLast? _ (by simpa using hlast), String.ofList_toList]
      rw [hline, trim_concat rfl, String.toList_ofList, List.dropLast_concat]
  · rw [String.ofList_toList]

/-- The words of characters, as lists of characters. -/
def wordParts (cs : List Char) : List (List Char) :=
  (splitWhere isBlank cs).filter (!·.isEmpty)

lemma wordParts_cons {b : Char} (hb : isBlank b = true) (cs : List Char) :
    wordParts (b :: cs) = wordParts cs := by
  rw [wordParts, ← List.nil_append (b :: cs), splitWhere_append_cons isBlank hb]
  rfl

lemma wordParts_concat {b : Char} (hb : isBlank b = true) (cs : List Char) :
    wordParts (cs ++ [b]) = wordParts cs := by
  rw [wordParts, splitWhere_append_cons isBlank hb, List.filter_append]
  exact List.append_nil _

/-- The words of a text are those between the blanks at its ends. -/
lemma words_trim (text : String) : words (trim text) = words text := by
  have hfront (cs : List Char) : wordParts (cs.dropWhile isBlank) = wordParts cs := by
    induction cs with
    | nil => rfl
    | cons c cs ih =>
        rw [List.dropWhile_cons]
        split
        · case _ hc => rw [ih, wordParts_cons hc]
        · rfl
  have hback (cs : List Char) : wordParts (cs.rdropWhile isBlank) = wordParts cs := by
    induction cs using List.reverseRecOn with
    | nil => rfl
    | append_singleton cs c ih =>
        rw [List.rdropWhile_concat]
        split
        · case _ hc => rw [ih, wordParts_concat hc]
        · rfl
  rw [trim_eq, words, String.toList_ofList]
  exact congrArg (List.map String.ofList) ((hback _).trans (hfront _))

end DeskCalculator
