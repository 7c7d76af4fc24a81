import Mathlib.Tactic

/-!
The bytes of a text.

* `encodeChars`: the bytes of characters.
* `eq_of_mem_utf8EncodeChar`: a byte below 128 is a character of its own.
* `fromUTF8?_toUTF8`, `fromUTF8?_encodeChars`: the bytes of a text are read as that text.
-/

namespace DeskCalculator


/-- The bytes of characters. -/
def encodeChars (cs : List Char) : List UInt8 := cs.flatMap String.utf8EncodeChar

lemma utf8EncodeChar_of_lt {c : Char} (h : c.toNat < 128) :
    String.utf8EncodeChar c = [UInt8.ofNat c.toNat] := by
  have hle : c.val.toNat ≤ 127 := Nat.le_of_lt_succ h
  simp only [String.utf8EncodeChar, if_pos hle]
  rfl

lemma lt_of_mem_utf8EncodeChar {c : Char} {b : UInt8} (hb : b ∈ String.utf8EncodeChar c)
    (h : b.toNat < 128) : c.toNat < 128 := by
  by_contra hc
  have hgt : ¬ c.val.toNat ≤ 127 := fun hle => hc (Nat.lt_succ_of_le hle)
  simp only [String.utf8EncodeChar, if_neg hgt] at hb
  split_ifs at hb <;>
    simp only [List.mem_cons, List.not_mem_nil, or_false] at hb <;>
    rcases hb with rfl | rfl | rfl | rfl <;> simp at h <;> omega

lemma eq_of_mem_utf8EncodeChar {c : Char} {b : UInt8} (hb : b ∈ String.utf8EncodeChar c)
    (h : b.toNat < 128) : b.toNat = c.toNat := by
  have hc := lt_of_mem_utf8EncodeChar hb h
  rw [utf8EncodeChar_of_lt hc, List.mem_singleton] at hb
  rw [hb, UInt8.toNat_ofNat']
  omega

/-- A line end is the only character with its byte, and so is a carriage return. -/
lemma eq_lineEnd_of_mem {c : Char} (h : 10 ∈ String.utf8EncodeChar c) : c = '\n' :=
  Char.toNat_inj.1 (eq_of_mem_utf8EncodeChar h (by decide)).symm

lemma eq_return_of_mem {c : Char} (h : 13 ∈ String.utf8EncodeChar c) : c = '\r' :=
  Char.toNat_inj.1 (eq_of_mem_utf8EncodeChar h (by decide)).symm

lemma encodeChars_cons (c : Char) (cs : List Char) :
    encodeChars (c :: cs) = String.utf8EncodeChar c ++ encodeChars cs := rfl

lemma encodeChars_append (cs cs' : List Char) :
    encodeChars (cs ++ cs') = encodeChars cs ++ encodeChars cs' := List.flatMap_append

/-- The bytes of a text are those of a text, and of that one. -/
lemma fromUTF8?_toUTF8 (text : String) : String.fromUTF8? text.toUTF8 = some text := by
  rw [String.fromUTF8?, dif_pos (show text.toUTF8.IsValidUTF8 from text.isValidUTF8)]
  rfl

/-- The bytes of a text are those of its characters. -/
lemma toUTF8_ofList (cs : List Char) :
    (String.ofList cs).toUTF8 = ⟨(encodeChars cs).toArray⟩ := by
  rw [String.toUTF8_eq_toByteArray, String.toByteArray_ofList]
  exact ByteArray.ext List.data_toByteArray

/-- The bytes of characters are a text. -/
lemma fromUTF8?_encodeChars (cs : List Char) :
    String.fromUTF8? ⟨(encodeChars cs).toArray⟩ = some (.ofList cs) := by
  rw [← toUTF8_ofList, fromUTF8?_toUTF8]

/-- The bytes of no characters are none. -/
lemma encodeChars_eq_nil_iff {cs : List Char} : encodeChars cs = [] ↔ cs = [] := by
  cases cs with
  | nil => exact iff_of_true rfl rfl
  | cons c cs =>
      rw [encodeChars_cons, List.append_eq_nil_iff]
      refine iff_of_false (fun h => ?_) (List.cons_ne_nil c cs)
      exact String.utf8EncodeChar_ne_nil h.1

end DeskCalculator
