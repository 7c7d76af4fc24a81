import DeskCalculator.Proofs.Desk.Press
import DeskCalculator.Proofs.Entry.Typing
import DeskCalculator.Proofs.Expression.Scan
import DeskCalculator.Storage.Memory

/-!
The entry line of a calculator, whatever keys have been pressed.

* `IsResult`: the numeral of a finite double; what a calculation gives is one
  (`isResult_of_answer`, `isResult_of_transform`).
* `EntryLine.Kept`: the invariant that every key keeps (`EntryLine.Kept.press`).
* `EntryLine.Sound`: what it says of the expression, raw and stripped, and of what is shown.
* `Key.Fits`: a key that types a character types one of its kind.
* `entry_line_sound`: the result, for any keys, at every moment.
-/

namespace DeskCalculator

/-! ### Results -/

/-- The numeral of a finite double. -/
def IsResult (text : String) : Prop := ∃ x : Binary64, x.isFinite = true ∧ text = x.numeral

lemma IsResult.isTyped {text : String} (h : IsResult text) : IsTyped text.toList := by
  obtain ⟨x, hx, rfl⟩ := h
  rw [Binary64.numeral, String.toList_ofList]
  exact isTyped_numeralChars hx

lemma isResult_of_answer {text result : String} (h : answer text = .ok result) :
    IsResult result := by
  obtain ⟨v, hv, rfl⟩ := map_eq_ok_iff.1 h
  exact ⟨v, isFinite_of_value hv, rfl⟩

/-- The answer to a transform of a text is a result. -/
lemma isResult_of_transform {t : Transform} {text result note : String}
    (h : t.answer text = .ok (result, note)) : IsResult result := by
  obtain ⟨x, -, h⟩ := bind_eq_ok_iff.1 h
  obtain ⟨y, -, h⟩ := bind_eq_ok_iff.1 h
  obtain ⟨z, hz, h⟩ := bind_eq_ok_iff.1 h
  cases h
  exact ⟨z, (requireFinite_eq_ok_iff.1 hz).2, rfl⟩

namespace EntryLine

/-! ### The invariant -/

/-- What every key keeps: the form of the expression, what may be shown, and that a result
just shown is the expression. -/
structure Kept (line : EntryLine) : Prop where
  typed : IsTyped line.expression.toList
  shown : line.shown = nothingShown ∨ line.shown = errorShown ∨ IsResult line.shown
  answered : line.phase = .answered → line.expression = line.shown ∧ IsResult line.shown

namespace Kept

variable {line : EntryLine}

lemma blank : Kept EntryLine.blank := ⟨.nil, Or.inl rfl, fun h => nomatch h⟩

lemma edit (h : Kept line) {expression : String} (he : IsTyped expression.toList) :
    Kept { line with expression, phase := .typing } :=
  ⟨he, h.shown, fun h => nomatch h⟩

lemma append (h : Kept line) {c : Char} (hc : inAlphabet c = true)
    (hop : isOperatorChar c = false) : Kept (line.append c) := by
  refine h.edit ?_
  rw [String.toList_push]
  exact h.typed.concat hc fun a _ => .of_right hop

/-- An operator replaces one at the end of the expression. -/
lemma typeOperator (h : Kept line) (op : Operator) : Kept (line.typeOperator op) := by
  unfold EntryLine.typeOperator
  split
  case isFalse => exact h
  case isTrue =>
    refine h.edit ?_
    rw [String.toList_push, withoutOperator]
    split
    case isTrue hend =>
      rw [dropLastChar, String.toList_ofList]
      exact h.typed.dropLast.concat (inAlphabet_operator op)
        fun a ha => .of_left (h.typed.getLast?_dropLast hend a ha)
    case isFalse hend =>
      refine h.typed.concat (inAlphabet_operator op) fun a ha => .of_left ?_
      rw [endsInOperator, Option.mem_def.1 ha] at hend
      simpa using hend

lemma takeBack (h : Kept line) : Kept line.takeBack := by
  refine h.edit ?_
  rw [dropLastChar, String.toList_ofList]
  exact h.typed.dropLast

lemma withResult (line : EntryLine) {result : String} (h : IsResult result) :
    Kept (line.withResult result) :=
  ⟨h.isTyped, Or.inr (Or.inr h), fun _ => ⟨rfl, h⟩⟩

lemma withError (h : Kept line) : Kept line.withError :=
  ⟨h.typed, Or.inr (Or.inl rfl), fun h => nomatch h⟩

lemma press (h : Kept line) (k : Key) : Kept (line.press k) := by
  cases k with
  | numeral m =>
      exact h.append (inAlphabet_of_isNumeral m.isNumeral) (isOperatorChar_of_isNumeral m.isNumeral)
  | paren p => exact h.append (inAlphabet_paren p) (isOperatorChar_paren p)
  | operator op => exact h.typeOperator op
  | takeBack => exact h.takeBack
  | reset => exact blank
  | equals =>
      rw [EntryLine.press]
      split
      · exact h
      · cases ha : answer line.expression with
        | ok result => exact withResult line (isResult_of_answer ha)
        | error r => exact h.withError
  | transform t =>
      rw [EntryLine.press]
      cases ha : t.answer line.expression with
      | ok x => exact withResult line (isResult_of_transform ha)
      | error r => exact h.withError
  | togglePanel => exact h
  | wipeHistory => exact h
  | copy => exact h

lemma foldl_press (h : Kept line) (ks : List Key) : Kept (ks.foldl EntryLine.press line) := by
  induction ks generalizing line with
  | nil => exact h
  | cons k ks ih => exact ih (h.press k)

end Kept

/-! ### What the invariant says -/

/-- An entry line as it should be. -/
structure Sound (line : EntryLine) : Prop where
  /-- No two operators stand side by side in the expression. -/
  apart : line.expression.toList.IsChain NotBothOperators
  /-- Nor do they once it is stripped. -/
  apart_strip : (strip line.expression).toList.IsChain NotBothOperators
  /-- The expression is over the alphabet, but for an `e`. -/
  chars : ∀ c ∈ line.expression.toList, inAlphabet c = true ∨ c = 'e'
  /-- There is one `e` at most. -/
  count_e : line.expression.toList.count 'e' ≤ 1
  /-- It stands directly behind a digit. -/
  digit_before_e : ∀ before behind : List Char,
    line.expression.toList = before ++ 'e' :: behind → ∃ d ∈ before.getLast?, d.isDigit = true
  /-- Something is left of an expression when it is stripped. -/
  strip_ne : line.expression ≠ "" → strip line.expression ≠ ""
  /-- So what is evaluated is not empty. -/
  not_empty : line.isBlank = false → answer line.expression ≠ .error .empty
  /-- What is shown is the nought of the beginning, the mark of a failure or a result. -/
  shown : line.shown = "0" ∨ line.shown = "Error" ∨ IsResult line.shown
  /-- A result just shown is the expression. -/
  answered : line.phase = .answered → line.expression = line.shown ∧ IsResult line.shown

/-- What every key keeps makes a line what it should be. -/
lemma Kept.sound {line : EntryLine} (h : Kept line) : Sound line := by
  have hstrip : (strip line.expression).toList = line.expression.toList.filter inAlphabet := by
    rw [strip, String.toList_ofList]
  have hne : line.expression ≠ "" → strip line.expression ≠ "" := by
    intro hne he
    refine h.typed.filter_ne_nil (by simpa using hne) ?_
    rw [← hstrip, he]
    rfl
  refine ⟨h.typed.chain.imp fun _ _ hab => hab.1, ?_, h.typed.chars, h.typed.count,
    fun _ _ => h.typed.digit_before_e, hne, fun hb ha => ?_, h.shown, h.answered⟩
  · rw [hstrip]
    exact h.typed.isChain_filter
  · have hv : value line.expression = .error .empty := map_eq_error_iff.1 ha
    refine hne (fun he => ?_) (value_eq_error_empty_iff.1 hv)
    rw [isBlank, he] at hb
    cases hb

end EntryLine

/-! ### Any keys -/

/-- A key that types a character types one of its kind: a digit or point where one is
expected, a parenthesis where one is, and an operator where one is. -/
def Key.Fits (k : Key) (line : EntryLine) : Prop :=
  match k with
  | .numeral m => line.typeNumeral? m.char = .ok (line.press k)
  | .paren p => line.typeParen? p.char = .ok (line.press k)
  | .operator op =>
    isOperatorChar op.char = true ∧
      line.typeOperator? op.char = (line.press k, line.accepts op)
  | _ => True

lemma Key.fits (k : Key) (line : EntryLine) : k.Fits line := by
  cases k with
  | numeral m => exact dif_pos m.isNumeral
  | paren p => simp [Fits, EntryLine.typeParen?, Paren.ofChar?_char, EntryLine.press]
  | operator op =>
      refine ⟨isOperatorChar_operator op, ?_⟩
      simp [EntryLine.typeOperator?, Operator.ofChar?_char, EntryLine.press]
  | _ => trivial

/-- **The entry line is as it should be at every moment.** Take a calculator with a blank
line and any keys that have been pressed, be they those of lines or not. No two operators
stand side by side in the expression, raw or stripped; its characters are those of the
alphabet and one `e` at most, directly behind a digit; it is not stripped to nothing unless
it is empty; what is shown is `0`, `Error` or the numeral of a finite double; a result just
shown is such a numeral and the expression; and the next key, if it types a character, types
one of its kind. -/
theorem entry_line_sound {σ : Type} [Storage σ] (desk : Desk σ) (hblank : desk.line = .blank)
    (pressed : List Key) (k : Key) :
    (desk.pressAll pressed).1.line.Sound ∧ k.Fits (desk.pressAll pressed).1.line := by
  refine ⟨?_, k.fits _⟩
  rw [Desk.line_pressAll, hblank]
  exact (EntryLine.Kept.blank.foldl_press pressed).sound

/-- The keys of two lines leave a result without its exponent, and another operator before
it. -/
theorem entry_line_sound_cut_exponent :
    ∃ kss, ["1/10000000=", "del +"].mapM keysOfLine = .ok kss ∧
      ((Desk.start usualKey MemoryStorage.empty).pressAll kss.flatten).1.line.expression
        = "1e+" ∧
      ((Desk.start usualKey MemoryStorage.empty).pressAll kss.flatten).1.line.Sound ∧
      Key.equals.Fits ((Desk.start usualKey MemoryStorage.empty).pressAll kss.flatten).1.line := by
  refine ⟨[[.numeral ⟨'1', rfl⟩, .operator .divide, .numeral ⟨'1', rfl⟩] ++
    List.replicate 7 (.numeral ⟨'0', rfl⟩) ++ [.equals], [.takeBack, .operator .plus]],
    by decide +kernel, by decide +kernel, ?_⟩
  exact entry_line_sound (Desk.start usualKey MemoryStorage.empty) rfl _ .equals

end DeskCalculator
