import DeskCalculator.Entry.Line
import DeskCalculator.Proofs.Decimal.Layout
import DeskCalculator.Proofs.Expression.Pieces

/-!
The expressions that can be typed.

An expression holds what was typed and may begin with a result that was shown, or with
what editing has left of one. So it can hold an `e`, but only between the digits and the
sign of an exponent.

* `MayFollow`: two operators never stand side by side, and an `e` stands behind a digit.
* `IsTyped`: the form of an expression that can be typed.
* `IsTyped.dropLast`, `IsTyped.concat`: editing keeps it.
* `IsTyped.append`, `IsTyped.concat_e`: digits may follow, and an `e` behind a digit.
* `isTyped_numeralChars`: a result has it.
* `IsTyped.isChain_filter`, `IsTyped.filter_ne_nil`: what stripping makes of it.
-/

namespace DeskCalculator

/-! ### The form of an expression -/

/-- Not both characters are operators. -/
def NotBothOperators (a b : Char) : Prop :=
  ¬ (isOperatorChar a = true ∧ isOperatorChar b = true)

/-- A character may stand directly behind another one. -/
def MayFollow (a b : Char) : Prop := NotBothOperators a b ∧ (b = 'e' → a.isDigit = true)

/-- The form of an expression that can be typed. -/
structure IsTyped (cs : List Char) : Prop where
  chars : ∀ c ∈ cs, inAlphabet c = true ∨ c = 'e'
  chain : cs.IsChain MayFollow
  head : cs.head? ≠ some 'e'
  count : cs.count 'e' ≤ 1

lemma NotBothOperators.of_left {a b : Char} (h : isOperatorChar a = false) :
    NotBothOperators a b := by
  simp [NotBothOperators, h]

lemma NotBothOperators.of_right {a b : Char} (h : isOperatorChar b = false) :
    NotBothOperators a b := by
  simp [NotBothOperators, h]

namespace IsTyped

variable {cs : List Char}

lemma nil : IsTyped [] := ⟨by simp, List.isChain_nil, by simp, by simp⟩

lemma dropLast (h : IsTyped cs) : IsTyped cs.dropLast := by
  refine ⟨fun c hc => h.chars c (List.mem_of_mem_dropLast hc), h.chain.dropLast, fun he => ?_,
    (List.Sublist.count_le 'e' (List.dropLast_sublist cs)).trans h.count⟩
  obtain ⟨rest, hrest⟩ := List.head?_eq_some_iff.1 he
  obtain ⟨t, ht⟩ := List.dropLast_prefix cs
  exact h.head (by rw [← ht, hrest]; rfl)

lemma concat (h : IsTyped cs) {c : Char} (hc : inAlphabet c = true)
    (hlast : ∀ a ∈ cs.getLast?, NotBothOperators a c) : IsTyped (cs ++ [c]) := by
  have hne := ne_e_of_inAlphabet hc
  refine ⟨fun a ha => ?_, ?_, ?_, ?_⟩
  · rcases List.mem_append.1 ha with ha | ha
    · exact h.chars a ha
    · exact Or.inl (List.mem_singleton.1 ha ▸ hc)
  · refine h.chain.append (List.isChain_singleton c) fun a ha b hb => ?_
    obtain rfl : c = b := by simpa using hb
    exact ⟨hlast a ha, fun he => absurd he hne⟩
  · cases cs with
    | nil => simpa using hne
    | cons a cs => exact h.head
  · simpa [List.count_append, List.count_singleton, hne] using h.count

lemma getLast?_dropLast (h : IsTyped cs) (hop : cs.getLast?.any isOperatorChar = true) :
    ∀ a ∈ cs.dropLast.getLast?, isOperatorChar a = false := by
  intro a ha
  rcases List.eq_nil_or_concat cs with rfl | ⟨cs, c, rfl⟩
  · cases ha
  · rw [List.concat_eq_append] at h hop ha
    rw [List.dropLast_concat] at ha
    have hac : MayFollow a c := (List.isChain_append.1 h.chain).2.2 a ha c (by simp)
    have hc : isOperatorChar c = true := by simpa using hop
    rw [Bool.eq_false_iff]
    exact fun hopa => hac.1 ⟨hopa, hc⟩

lemma append (h : IsTyped cs) {ds : List Char} (hds : ∀ c ∈ ds, isNumeral c = true) :
    IsTyped (cs ++ ds) := by
  induction ds generalizing cs with
  | nil => rwa [List.append_nil]
  | cons d ds ih =>
      have hd : isNumeral d = true := hds d List.mem_cons_self
      have hcs : IsTyped (cs ++ [d]) := h.concat (inAlphabet_of_isNumeral hd) fun a _ =>
        .of_right (isOperatorChar_of_isNumeral hd)
      rw [List.append_cons]
      exact ih hcs fun c hc => hds c (List.mem_cons_of_mem d hc)

/-- An `e` may be put behind a digit if there is none yet. -/
lemma concat_e (h : IsTyped cs) (he : 'e' ∉ cs)
    (hlast : ∃ d ∈ cs.getLast?, d.isDigit = true) : IsTyped (cs ++ ['e']) := by
  obtain ⟨d, hd, hdigit⟩ := hlast
  refine ⟨fun c hc => ?_, ?_, ?_, ?_⟩
  · rcases List.mem_append.1 hc with hc | hc
    · exact h.chars c hc
    · exact Or.inr (List.mem_singleton.1 hc)
  · refine h.chain.append (List.isChain_singleton 'e') fun a ha b hb => ?_
    obtain rfl : d = a := Option.some.inj (hd.symm.trans ha)
    obtain rfl : 'e' = b := by simpa using hb
    exact ⟨.of_right rfl, fun _ => hdigit⟩
  · cases cs with
    | nil => cases hd
    | cons c cs => exact h.head
  · rw [List.count_append, List.count_eq_zero.2 he]
    exact le_rfl

lemma of_isLaidOut (h : IsLaidOut cs) : IsTyped cs := by
  cases h with
  | plain ne numeral => exact nil.append numeral
  | @scientific ms ks sign numeral last isSign digits =>
      have hms : IsTyped ms := nil.append numeral
      have he : 'e' ∉ ms := fun he =>
        ne_e_of_inAlphabet (inAlphabet_of_isNumeral (numeral 'e' he)) rfl
      have hsign : inAlphabet sign = true := by rcases isSign with rfl | rfl <;> rfl
      have hmes : IsTyped (ms ++ ['e'] ++ [sign]) := by
        refine (hms.concat_e he last).concat hsign fun a ha => ?_
        obtain rfl : 'e' = a := by simpa using ha
        exact .of_left rfl
      have hall := hmes.append fun c hc => isNumeral_of_isDigit (digits c hc)
      rwa [List.append_assoc, List.append_assoc] at hall

/-- A minus may be put before what does not begin with an operator. -/
lemma minus (h : IsTyped cs) (hop : ∀ a ∈ cs.head?, isOperatorChar a = false) :
    IsTyped ('-' :: cs) := by
  refine ⟨fun c hc => ?_, ?_, by simp, ?_⟩
  · rcases List.mem_cons.1 hc with rfl | hc
    · exact Or.inl rfl
    · exact h.chars c hc
  · refine List.isChain_cons.2 ⟨fun a ha => ⟨.of_right (hop a ha), ?_⟩, h.chain⟩
    rintro rfl
    exact absurd ha h.head
  · simpa [List.count_cons] using h.count

/-! ### What stripping makes of it -/

lemma inAlphabet_head {c : Char} (h : IsTyped (c :: cs)) : inAlphabet c = true :=
  (h.chars c List.mem_cons_self).resolve_right fun he => h.head (congrArg some he)

/-- Stripping what stands behind a character brings no two operators together: what is
dropped is an `e`, and that stands behind a digit. -/
lemma isChain_cons_filter {a : Char} (hchain : (a :: cs).IsChain MayFollow)
    (hcs : ∀ c ∈ cs, inAlphabet c = true ∨ c = 'e') :
    (a :: cs.filter inAlphabet).IsChain NotBothOperators := by
  induction cs generalizing a with
  | nil => exact List.isChain_singleton a
  | cons b cs ih =>
      obtain ⟨hab, hb⟩ := List.isChain_cons_cons.1 hchain
      have hrest : ∀ c ∈ cs, inAlphabet c = true ∨ c = 'e' :=
        fun c hc => hcs c (List.mem_cons_of_mem b hc)
      rcases hcs b List.mem_cons_self with hbin | rfl
      · rw [List.filter_cons_of_pos hbin]
        exact List.isChain_cons_cons.2 ⟨hab.1, ih hb hrest⟩
      · -- the digit before the `e` now stands before what follows the `e`
        rw [List.filter_cons_of_neg (by decide)]
        refine ih (hb.imp_head fun {c} hc => ⟨?_, fun he => ?_⟩) hrest
        · exact .of_left (isOperatorChar_of_isNumeral (isNumeral_of_isDigit (hab.2 rfl)))
        · exact absurd (hc.2 he) (by decide)

/-- Stripping brings no two operators together. -/
lemma isChain_filter (h : IsTyped cs) :
    (cs.filter inAlphabet).IsChain NotBothOperators := by
  cases cs with
  | nil => exact List.isChain_nil
  | cons c cs =>
      rw [List.filter_cons_of_pos h.inAlphabet_head]
      exact isChain_cons_filter h.chain fun a ha => h.chars a (List.mem_cons_of_mem c ha)

lemma filter_ne_nil (h : IsTyped cs) (hne : cs ≠ []) : cs.filter inAlphabet ≠ [] := by
  obtain ⟨c, cs, rfl⟩ := List.exists_cons_of_ne_nil hne
  rw [List.filter_cons_of_pos h.inAlphabet_head]
  exact List.cons_ne_nil _ _

/-- An `e` stands directly behind a digit. -/
lemma digit_before_e (h : IsTyped cs) {before behind : List Char}
    (hcs : cs = before ++ 'e' :: behind) : ∃ d ∈ before.getLast?, d.isDigit = true := by
  subst hcs
  cases hlast : before.getLast? with
  | none =>
      obtain rfl := List.getLast?_eq_none_iff.1 hlast
      exact absurd rfl h.head
  | some d =>
      exact ⟨d, rfl, ((List.isChain_append.1 h.chain).2.2 d hlast 'e' rfl).2 rfl⟩

end IsTyped

theorem isTyped_numeralChars {x : Binary64} (hx : x.isFinite = true) :
    IsTyped x.numeralChars := by
  obtain ⟨negative, cs, hcs, hlaid⟩ := numeralChars_of_isFinite hx
  have htyped := IsTyped.of_isLaidOut hlaid
  rw [hcs]
  cases negative with
  | false => exact htyped
  | true => exact htyped.minus fun c hc => isOperatorChar_of_isNumeral (hlaid.isNumeral_head c hc)

end DeskCalculator
