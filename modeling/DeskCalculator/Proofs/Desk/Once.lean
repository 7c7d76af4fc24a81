import DeskCalculator.Proofs.Desk.EntryLine
import DeskCalculator.Proofs.Entry.Spelling

/-!
Typing an expression and calculating it without a calculator come to the same.

* `Key.typed?`: the character that a key types.
* `IsTypable`: characters that are typed as they are written, since no operator among them is
  refused at the beginning or replaces another one.
* `EntryLine.expression_press`, `Desk.pressAll_of_isTypable`: what typing them does, one after the
  other, by induction from the last.
* `Desk.noteOnce_of_ok`, `Desk.noteOnce_of_error`: what is entered without a calculator.
* `typed_as_calculated_once`: the result, for any line with blanks anywhere.
-/

namespace DeskCalculator

/-! ### Typing -/

/-- The character that a key types. -/
def Key.typed? : Key → Option Char
  | .numeral m => some m.char
  | .paren p => some p.char
  | .operator op => some op.char
  | _ => none

/-- A character of the alphabet is a key that types it. -/
lemma Key.exists_of_inAlphabet {c : Char} (h : inAlphabet c = true) :
    ∃ k, ofChar? c = some k ∧ k.typed? = some c := by
  suffices hk : ∃ k, ofAlphabet? c = some k ∧ k.typed? = some c by
    obtain ⟨k, hk, htyped⟩ := hk
    exact ⟨k, by rw [ofChar?, hk]; rfl, htyped⟩
  rw [ofAlphabet?]
  split
  case isTrue hnumeral => exact ⟨.numeral ⟨c, hnumeral⟩, rfl, rfl⟩
  case isFalse hnumeral =>
    cases hparen : Paren.ofChar? c with
    | some p => exact ⟨.paren p, rfl, congrArg some (Paren.char_of_ofChar? hparen)⟩
    | none =>
        have hop : isOperatorChar c = true := by
          simpa [inAlphabet, hnumeral, isParenChar, hparen] using h
        obtain ⟨op, hop⟩ := Option.isSome_iff_exists.1 hop
        exact ⟨.operator op, by rw [hop]; rfl, congrArg some (Operator.char_of_ofChar? hop)⟩

instance : DecidableRel NotBothOperators := fun _ _ => inferInstanceAs (Decidable (¬ _))

/-- Characters that are typed as they are written: they are over the alphabet, no two operators
stand side by side, and they begin with no operator but a minus. -/
structure IsTypable (cs : List Char) : Prop where
  alphabet : ∀ c ∈ cs, inAlphabet c = true
  apart : cs.IsChain NotBothOperators
  head : ∀ c ∈ cs.head?, c ≠ '+' ∧ c ≠ '*' ∧ c ≠ '/'

lemma IsTypable.of_concat {cs : List Char} {c : Char} (h : IsTypable (cs ++ [c])) :
    IsTypable cs := by
  refine ⟨fun d hd => h.alphabet d (List.mem_append_left _ hd), (List.isChain_append.1 h.apart).1,
    fun d hd => h.head d ?_⟩
  cases cs with
  | nil => cases hd
  | cons a cs => exact hd

/-- No operator is the last of them when another one follows. -/
lemma IsTypable.notBothOperators {cs : List Char} {c : Char} (h : IsTypable (cs ++ [c])) {a : Char}
    (ha : a ∈ cs.getLast?) : NotBothOperators a c :=
  (List.isChain_append.1 h.apart).2.2 a ha c rfl

/-- A key appends the character that it types, if that is no operator behind another one, nor
one at the beginning that is refused there. -/
lemma EntryLine.expression_press (line : EntryLine) {k : Key} {c : Char} (hk : k.typed? = some c)
    (h : IsTypable (line.expression.toList ++ [c])) :
    (line.press k).expression = line.expression.push c := by
  cases k with
  | numeral m => exact congrArg line.expression.push (Option.some.inj hk)
  | paren p => exact congrArg line.expression.push (Option.some.inj hk)
  | operator op =>
      obtain rfl : op.char = c := Option.some.inj hk
      have haccepts : line.accepts op = true := by
        cases hblank : line.isBlank with
        | false => rw [accepts, hblank]; rfl
        | true =>
            rw [isBlank, String.isEmpty_iff] at hblank
            rw [hblank] at h
            obtain ⟨hplus, htimes, hdivide⟩ := h.head op.char rfl
            cases op with
            | plus => exact absurd rfl hplus
            | minus => exact Bool.or_true _
            | times => exact absurd rfl htimes
            | divide => exact absurd rfl hdivide
      have hwithout : withoutOperator line.expression = line.expression := by
        refine if_neg fun hends => ?_
        obtain ⟨a, ha, hop⟩ := (Option.any_eq_true _ _).1 hends
        exact h.notBothOperators ha ⟨hop, isOperatorChar_operator op⟩
      rw [EntryLine.press, expression_typeOperator, if_pos haccepts, hwithout]
  | _ => cases hk

namespace Desk

variable {σ : Type} [Storage σ]

/-- A key that types changes the line and says nothing. -/
lemma press_of_typed (desk : Desk σ) {k : Key} {c : Char} (hk : k.typed? = some c) :
    desk.press k = ({ desk with line := desk.line.press k }, none) := by
  cases k with
  | numeral m => rfl
  | paren p => rfl
  | operator op => rfl
  | _ => cases hk

/-- Typing characters that are typed as they are written makes them the expression. -/
lemma pressAll_of_isTypable (desk : Desk σ) (hblank : desk.line.expression = "") {cs : List Char}
    (h : IsTypable cs) :
    ∃ line : EntryLine, line.expression = .ofList cs ∧
      desk.pressAll (cs.filterMap Key.ofChar?) = ({ desk with line }, []) := by
  induction cs using List.reverseRecOn with
  | nil => exact ⟨desk.line, hblank, rfl⟩
  | append_singleton cs c ih =>
      obtain ⟨line, hline, hpress⟩ := ih h.of_concat
      obtain ⟨k, hk, htyped⟩ := Key.exists_of_inAlphabet (h.alphabet c (by simp))
      have hkeys : (cs ++ [c]).filterMap Key.ofChar? = cs.filterMap Key.ofChar? ++ [k] := by
        rw [List.filterMap_append, List.filterMap_cons_some hk]
        rfl
      refine ⟨line.press k, ?_, ?_⟩
      · rw [line.expression_press htyped (by rwa [hline, String.toList_ofList]), hline,
          ← String.toList_inj, String.toList_push, String.toList_ofList, String.toList_ofList]
      · rw [hkeys, pressAll_append, hpress, pressAll, press_of_typed _ htyped]
        rfl

/-! ### Calculating -/

/-- What is entered without a calculator when there is an answer. -/
lemma noteOnce_of_ok (book : Logbook) (storage : σ) {expression result : String}
    (h : answer expression = .ok result) :
    noteOnce book storage expression = .ok
      { result
        message := saveMessage? (book.enter storage (noteOf expression result)).2.1
        book := book.push (noteOf expression result)
        storage := ((book.push (noteOf expression result)).save storage).2 } := by
  rw [noteOnce, h]
  rfl

lemma noteOnce_of_error (book : Logbook) (storage : σ) {expression : String} {r : Reason}
    (h : answer expression = .error r) : noteOnce book storage expression = .error r := by
  rw [noteOnce, h]
  rfl

end Desk

lemma IsResult.ne_errorShown {text : String} (h : IsResult text) :
    text ≠ EntryLine.errorShown := by
  rintro rfl
  have hchar := h.isTyped.chars 'E' (by decide)
  revert hchar
  decide

/-- **Typing an expression and calculating it without a calculator come to the same.** Take any
calculator with nothing typed, whatever it shows, with any logbook and any storage, and an
expression that is typed as it is written. Take any line that is the expression with an equals
sign behind it once its blanks are dropped. Its keys can be read, and after them, compared with
the calculation entered in the same logbook on the same storage:

* if there is a result it is shown, the messages are the same, whether the note could be stored
  or not, and so are the logbook and the storage;
* the mark of a failure is shown exactly if there is none; then there are no messages, and the
  logbook and the storage are as they were. -/
theorem typed_as_calculated_once {σ : Type} [Storage σ] (desk : Desk σ)
    (hblank : desk.line.expression = "") {expression line : String} (hne : expression ≠ "")
    (htypable : IsTypable expression.toList)
    (hline : line.toList.filter (!isBlank ·) = expression.toList ++ ['=']) :
    ∃ ks, keysOfLine line = .ok ks ∧
      (∀ noted, noteOnce desk.book desk.storage expression = .ok noted →
        (desk.pressAll ks).1.line.shown = noted.result ∧
        (desk.pressAll ks).2 = noted.message.toList ∧
        (desk.pressAll ks).1.book = noted.book ∧
        (desk.pressAll ks).1.storage = noted.storage) ∧
      ((desk.pressAll ks).1.line.shown = "Error" ↔
        ∃ r, noteOnce desk.book desk.storage expression = .error r) ∧
      ∀ r, noteOnce desk.book desk.storage expression = .error r →
        (desk.pressAll ks).2 = [] ∧
        (desk.pressAll ks).1.book = desk.book ∧
        (desk.pressAll ks).1.storage = desk.storage := by
  have hkey : ∀ c ∈ expression.toList ++ ['='], (Key.ofChar? c).isSome = true := by
    intro c hc
    rw [Key.ofChar?_isSome]
    rcases List.mem_append.1 hc with hc | hc
    · rw [htypable.alphabet c hc]
      rfl
    · obtain rfl := List.mem_singleton.1 hc
      rfl
  have hline' : ∀ c ∈ line.toList, isBlank c = false → (Key.ofChar? c).isSome = true :=
    fun c hc hb => hkey c (hline ▸ List.mem_filter.2 ⟨hc, by rw [hb]; rfl⟩)
  have hkeys := keysOfLine_of_isSome hline'
  rw [hline, List.filterMap_append] at hkeys
  refine ⟨_, hkeys, ?_⟩
  obtain ⟨entry, hentry, htyped⟩ := desk.pressAll_of_isTypable hblank htypable
  rw [String.ofList_toList] at hentry
  subst hentry
  have hpress (after : Desk σ) (message : Option Message)
      (h : ({ desk with line := entry } : Desk σ).press .equals = (after, message)) :
      desk.pressAll (entry.expression.toList.filterMap Key.ofChar? ++ ['='].filterMap Key.ofChar?)
        = (after, message.toList) := by
    rw [show ['='].filterMap Key.ofChar? = [.equals] from rfl, Desk.pressAll_append, htyped]
    simp only [Desk.pressAll, h, List.append_nil, List.nil_append]
  cases hanswer : answer entry.expression with
  | ok result =>
      have hshown : result ≠ "Error" := (isResult_of_answer hanswer).ne_errorShown
      rw [hpress _ _ (Desk.press_equals_of_ok { desk with line := entry } hanswer),
        Desk.noteOnce_of_ok _ _ hanswer]
      refine ⟨?_, ⟨fun h => absurd h hshown, ?_⟩, ?_⟩
      · rintro noted ⟨⟩
        exact ⟨rfl, rfl, rfl, rfl⟩
      · rintro ⟨r, ⟨⟩⟩
      · rintro r ⟨⟩
  | error r =>
      have hnonblank : entry.isBlank = false := String.isEmpty_eq_false_iff.2 hne
      rw [hpress _ _ (Desk.press_equals_of_error { desk with line := entry } hnonblank hanswer),
        Desk.noteOnce_of_error _ _ hanswer]
      refine ⟨?_, ⟨fun _ => ⟨r, rfl⟩, fun _ => rfl⟩, fun _ _ => ⟨rfl, rfl, rfl⟩⟩
      rintro noted ⟨⟩

/-- So it is when a blank stands in it and there is no value. -/
theorem typed_as_calculated_once_of_zero_divisor :
    ∃ ks, keysOfLine " 5 / (2-2) =" = .ok ks ∧
      ((Desk.start usualKey MemoryStorage.empty).pressAll ks).1.line.shown = "Error" := by
  have hne : "5/(2-2)" ≠ "" := by decide
  have hline : " 5 / (2-2) =".toList.filter (!isBlank ·) = "5/(2-2)".toList ++ ['='] := by decide
  have htypable : IsTypable "5/(2-2)".toList := by
    refine ⟨List.all_eq_true.1 (by decide), by decide, fun c hc => ?_⟩
    obtain rfl : '5' = c := Option.some.inj hc
    decide
  have hanswer : answer "5/(2-2)" = .error .zeroDivisor := by decide +kernel
  obtain ⟨ks, hks, -, hshown, -⟩ := typed_as_calculated_once
    (Desk.start usualKey MemoryStorage.empty) rfl hne htypable hline
  exact ⟨ks, hks, hshown.2 ⟨_, Desk.noteOnce_of_error _ _ hanswer⟩⟩

end DeskCalculator
