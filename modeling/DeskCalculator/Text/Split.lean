/-!
Cutting a list at separators, and a text into words.

* `splitWhere`: the parts between the separators, empty parts included, so there is
  one more of them than there are separators.
* `splitWhere_append_cons`: cutting at one separator splits the work in two.
* `isBlank`: the characters with the property `White_Space`.
* `words`: the parts of a text between blanks, none of them empty.
* `trim`: a text without the blanks at its ends.
-/

namespace DeskCalculator

/-! ### Separators -/

/-- Puts an element before the first part. -/
def extendFirst {α : Type} (x : α) : List (List α) → List (List α)
  | [] => [[x]]
  | part :: parts => (x :: part) :: parts

/-- The parts of a list between its separators. -/
def splitWhere {α : Type} (isSeparator : α → Bool) (xs : List α) : List (List α) :=
  xs.foldr (fun x parts => if isSeparator x then [] :: parts else extendFirst x parts) [[]]

theorem splitWhere_ne_nil {α : Type} (isSeparator : α → Bool) (xs : List α) :
    splitWhere isSeparator xs ≠ [] := by
  cases xs with
  | nil => simp [splitWhere]
  | cons x xs =>
    rw [splitWhere, List.foldr_cons]
    split
    · simp
    · unfold extendFirst
      split <;> simp

theorem splitWhere_append_cons {α : Type} (isSeparator : α → Bool) {x : α}
    (hx : isSeparator x = true) (xs ys : List α) :
    splitWhere isSeparator (xs ++ x :: ys)
      = splitWhere isSeparator xs ++ splitWhere isSeparator ys := by
  induction xs with
  | nil => simp [splitWhere, hx]
  | cons y xs ih =>
    simp only [splitWhere, List.cons_append, List.foldr_cons] at ih ⊢
    rw [ih]
    split
    · rfl
    · have hne := splitWhere_ne_nil isSeparator xs
      rw [splitWhere] at hne
      obtain ⟨part, parts, h⟩ := List.exists_cons_of_ne_nil hne
      rw [h]
      rfl

/-! ### Blanks and words -/

/-- The characters with the property `White_Space`. -/
def isBlank (c : Char) : Bool :=
  let n := c.toNat
  (0x9 ≤ n && n ≤ 0xd) || n == 0x20 || n == 0x85 || n == 0xa0 || n == 0x1680 ||
  (0x2000 ≤ n && n ≤ 0x200a) || n == 0x2028 || n == 0x2029 || n == 0x202f || n == 0x205f ||
  n == 0x3000

/-- The words of a text. -/
def words (text : String) : List String :=
  ((splitWhere isBlank text.toList).filter (!·.isEmpty)).map .ofList

/-- A text without the blanks at its ends. -/
def trim (text : String) : String :=
  .ofList ((text.toList.dropWhile isBlank).reverse.dropWhile isBlank).reverse

end DeskCalculator
