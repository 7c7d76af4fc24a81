import Mathlib.Tactic
import DeskCalculator.Text.StringArray

/-!
What is written as an array of strings reads back.

The reader takes one character at a time, so its run over a text is put together from the
runs over the parts of the text.

* `foldlM_encodeChar`: over a character inside a string, which leaves one piece.
* `joinPieces?_map_pieceOf`: the pieces of a string give its characters back.
* `foldlM_encodeString`, `foldlM_encodeItems`: over a string, and over strings with commas
  between them.
* `decode?_encode`: over a whole array, for texts of any characters.
-/

namespace DeskCalculator

namespace StringArray

/-! ### Characters -/

/-- What a written character leaves inside a string when it is read: a control without a
short escape is read as a number. -/
def pieceOf (c : Char) : Piece :=
  if shortEscapes.lookup c = none ∧ c.toNat < 0x20 then .unit c.toNat else .char c

/-- A short escape reads back as the character it is for, and none is taken for the escape
with a number. -/
lemma escapeLetters_lookup {c letter : Char} (h : shortEscapes.lookup c = some letter) :
    escapeLetters.lookup letter = some c ∧ letter ≠ 'u' := by
  have hall : ∀ e ∈ shortEscapes, escapeLetters.lookup e.2 = some e.1 ∧ e.2 ≠ 'u' := by decide
  obtain ⟨l₁, l₂, hl, -⟩ := List.lookup_eq_some_iff.1 h
  exact hall (c, letter) (by rw [hl]; simp)

lemma ne_of_lookup_eq_none {c : Char} (h : shortEscapes.lookup c = none) :
    c ≠ '"' ∧ c ≠ '\\' := by
  constructor <;> rintro rfl <;> cases h

/-- Reading over a written character leaves its piece. -/
lemma foldlM_encodeChar (items : List String) (ps : List Piece) (c : Char) :
    (encodeChar c).foldlM advance (.inString items ps)
      = some (.inString items (pieceOf c :: ps)) := by
  unfold encodeChar pieceOf
  cases hl : shortEscapes.lookup c with
  | some letter =>
      obtain ⟨hletter, hu⟩ := escapeLetters_lookup hl
      simp [advance, hletter, hu]
  | none =>
      obtain ⟨hquote, hback⟩ := ne_of_lookup_eq_none hl
      by_cases hc : c.toNat < 0x20
      · have h0 : hexValue? '0' = some 0 := by decide
        have hhigh := hexValue?_hexDigit (c.toNat / 16) (by omega)
        have hlow := hexValue?_hexDigit (c.toNat % 16) (by omega)
        have hn : c.toNat / 16 * 16 + c.toNat % 16 = c.toNat := by omega
        simp [hc, advance, h0, hhigh, hlow, hn]
      · simp [hc, advance, hquote, hback]

/-- Reading over written characters leaves their pieces, last one first. -/
lemma foldlM_encodeChars (items : List String) (ps : List Piece) (cs : List Char) :
    (cs.flatMap encodeChar).foldlM advance (.inString items ps)
      = some (.inString items ((cs.map pieceOf).reverse ++ ps)) := by
  induction cs generalizing ps with
  | nil => rfl
  | cons c cs ih =>
      rw [List.flatMap_cons, List.foldlM_append, foldlM_encodeChar]
      simp only [Option.bind_eq_bind, Option.bind_some, ih]
      simp

/-- A unit that is no surrogate stands for a character by itself. -/
lemma joinPieces?_unit {n : ℕ} (hhigh : isHigh n = false) (hlow : isLow n = false)
    (ps : List Piece) : joinPieces? (.unit n :: ps) = (joinPieces? ps).map (Char.ofNat n :: ·) := by
  rcases ps with _ | ⟨_ | _, ps⟩ <;> simp [joinPieces?, hhigh, hlow]

lemma joinPieces?_map_pieceOf (cs : List Char) : joinPieces? (cs.map pieceOf) = some cs := by
  induction cs with
  | nil => rfl
  | cons c cs ih =>
      rw [List.map_cons, pieceOf]
      split
      case isTrue h =>
        have hhigh : isHigh c.toNat = false := by simp [isHigh]; omega
        have hlow : isLow c.toNat = false := by simp [isLow]; omega
        simp [joinPieces?_unit hhigh hlow, ih]
      case isFalse h => simp [joinPieces?, ih]

/-! ### Strings and arrays -/

/-- Reading over a written string, wherever one may begin. -/
lemma foldlM_encodeString {s : Stage} {items : List String}
    (hs : advance s '"' = some (.inString items [])) (text : String) :
    (encodeString text).foldlM advance s = some (.afterItem (text :: items)) := by
  rw [encodeString, List.cons_append, List.foldlM_cons, hs]
  simp only [Option.bind_eq_bind, Option.bind_some, List.foldlM_append, foldlM_encodeChars]
  simp [advance, joinPieces?_map_pieceOf]

lemma encodeItems_cons_cons (text text' : String) (texts : List String) :
    encodeItems (text :: text' :: texts)
      = encodeString text ++ ',' :: encodeItems (text' :: texts) := rfl

/-- Reading over written strings with commas between them, wherever one may begin. -/
lemma foldlM_encodeItems {s : Stage} {items : List String}
    (hs : advance s '"' = some (.inString items [])) (text : String) (texts : List String) :
    (encodeItems (text :: texts)).foldlM advance s
      = some (.afterItem ((text :: texts).reverse ++ items)) := by
  induction texts generalizing s items text with
  | nil => simpa [encodeItems] using foldlM_encodeString hs text
  | cons text' texts ih =>
      rw [encodeItems_cons_cons, List.foldlM_append, foldlM_encodeString hs]
      simp only [Option.bind_eq_bind, Option.bind_some, List.foldlM_cons]
      rw [show advance (.afterItem (text :: items)) ',' = some (.afterComma (text :: items))
        from rfl, Option.bind_some, ih rfl]
      simp

/-- **A written array reads back as the texts it was written from**, whatever their
characters are. -/
theorem decode?_encode (texts : List String) : decode? (encode texts) = some texts := by
  rw [decode?, encode, String.toList_ofList, List.cons_append, List.foldlM_cons,
    show advance .start '[' = some .opened from rfl]
  simp only [Option.bind_eq_bind, Option.bind_some, List.foldlM_append]
  cases texts with
  | nil => rfl
  | cons text texts =>
      rw [foldlM_encodeItems rfl]
      simp [advance, finish?]

end StringArray

end DeskCalculator
