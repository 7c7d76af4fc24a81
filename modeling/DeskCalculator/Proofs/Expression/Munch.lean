import DeskCalculator.Proofs.Decimal.Literal
import DeskCalculator.Proofs.Expression.Pieces

/-!
The tokens of a text are its maximal pieces, and nothing of it is lost.

* `IsCutOf`: a text cut into runs of digits and points that are as long as they can be, and single
  operators and parentheses. `isCutOf_pieces`: over the alphabet the pieces of a text are such.
* `Spells`: the token that a piece stands for; the number of a run is the double nearest to it.
  `spells_of_ofPiece`: what the reader makes of a piece.
* `isLiteral_eq_false_iff`: what keeps a run from being a literal.
* `tokens_are_maximal_pieces`: the result, for any text.
-/

namespace DeskCalculator

/-! ### Cuts -/

/-- A text is cut into pieces, none of it is lost, and every piece is an operator, a parenthesis or
a run of digits and points with no such character before it or behind it. -/
structure IsCutOf (ps : List (List Char)) (cs : List Char) : Prop where
  flatten : ps.flatten = cs
  piece : ∀ p ∈ ps, (p ≠ [] ∧ ∀ c ∈ p, isNumeral c = true) ∨
    ∃ c, p = [c] ∧ (isOperatorChar c = true ∨ isParenChar c = true)
  maximal : ∀ (front : List (List Char)) (p : List Char) (back : List (List Char)),
    ps = front ++ p :: back → (∀ c ∈ p, isNumeral c = true) →
      (∀ c ∈ front.flatten.getLast?, isNumeral c = false) ∧
      (∀ c ∈ back.flatten.head?, isNumeral c = false)

/-- Over the alphabet the pieces of a text are such a cut. -/
lemma isCutOf_pieces {cs : List Char} (hcs : ∀ c ∈ cs, inAlphabet c = true) :
    IsCutOf (pieces cs) cs := by
  refine ⟨flatten_pieces cs, fun p hp => ?_, fun front p back => not_numeral_beside⟩
  rcases piece_cases hp with hrun | ⟨c, rfl, hc⟩
  · exact Or.inl hrun
  · have hmem : c ∈ cs := by
      rw [← flatten_pieces cs]
      exact List.mem_flatten_of_mem hp List.mem_cons_self
    have halphabet := hcs c hmem
    rw [inAlphabet, hc, Bool.false_or, Bool.or_eq_true] at halphabet
    exact Or.inr ⟨c, rfl, halphabet⟩

/-! ### Tokens of pieces -/

/-- A piece stands for a token: an operator and a parenthesis for themselves, and a literal for the
double nearest to its number. -/
inductive Spells : List Char → Token → Prop
  | operator (op : Operator) : Spells [op.char] (.operator op)
  | paren (p : Paren) : Spells [p.char] (.paren p)
  | number {run : List Char} {q : ℚ} {x : Binary64} (literal : IsLiteralOf run q)
      (nearest : x.IsNearest q) : Spells run (.number x)

/-- A character that has a token of its own stands for it. -/
lemma spells_of_ofChar? {c : Char} {t : Token} (h : Token.ofChar? c = some t) : Spells [c] t := by
  rw [Token.ofChar?] at h
  cases hop : Operator.ofChar? c with
  | some op =>
      obtain rfl := Operator.char_of_ofChar? hop
      rw [hop] at h
      cases h
      exact .operator op
  | none =>
      rw [hop] at h
      obtain ⟨p, hp, rfl⟩ := Option.map_eq_some_iff.1 h
      obtain rfl := Paren.char_of_ofChar? hp
      exact .paren p

/-- A run that is read stands for what it is read as. -/
lemma spells_of_readLiteral? {run : List Char} {x : Binary64}
    (hrun : ∀ c ∈ run, isNumeral c = true) (h : readLiteral? run = some x) :
    Spells run (.number x) := by
  have hliteral : isLiteral run = true := by rw [← readLiteral?_isSome, h, Option.isSome_some]
  obtain ⟨q, hq⟩ := exists_isLiteralOf hrun hliteral
  obtain ⟨y, hy, hnearest⟩ := readLiteral?_of_isLiteralOf hq
  obtain rfl := Option.some.inj (h.symm.trans hy)
  exact .number hq hnearest

lemma spells_of_ofPiece {cs p : List Char} {t : Token} (hp : p ∈ pieces cs)
    (h : Token.ofPiece p = .ok t) : Spells p t := by
  rcases piece_cases hp with ⟨hne, hrun⟩ | ⟨c, rfl, hc⟩
  · obtain ⟨c, p, rfl⟩ := List.exists_cons_of_ne_nil hne
    rw [Token.ofPiece, if_pos (hrun c List.mem_cons_self)] at h
    cases hx : readLiteral? (c :: p) with
    | none =>
        rw [hx] at h
        cases h
    | some x =>
        rw [hx] at h
        cases h
        exact spells_of_readLiteral? hrun hx
  · rw [Token.ofPiece, hc, if_neg Bool.false_ne_true] at h
    cases ht : Token.ofChar? c with
    | none =>
        rw [ht] at h
        cases h
    | some u =>
        rw [ht] at h
        cases h
        exact spells_of_ofChar? ht

/-- The tokens of a text stand for its pieces, one for each and in their order. -/
lemma forall₂_spells {cs : List Char} {ts : List Token} (h : tokens cs = .ok ts) :
    List.Forall₂ Spells (pieces cs) ts := by
  have hread := (List.forall₂_and_left _ _).2 ⟨fun p (hp : p ∈ pieces cs) => hp, mapM_eq_ok_iff.1 h⟩
  exact hread.imp fun p t hpt => spells_of_ofPiece hpt.1 hpt.2

/-! ### Neighbours -/

/-- A token is a number. -/
def Token.IsNumber (t : Token) : Prop := ∃ x, t = .number x

lemma Spells.isNumeral {p : List Char} {x : Binary64} (h : Spells p (.number x)) :
    p ≠ [] ∧ ∀ c ∈ p, isNumeral c = true := by
  obtain - | - | ⟨⟨ne, isDigit⟩ | ⟨ne, whole, fraction⟩, -⟩ := h
  · exact ⟨ne, fun c hc => isNumeral_of_isDigit (isDigit c hc)⟩
  · refine ⟨by simp, fun c hc => ?_⟩
    rcases List.mem_append.1 hc with hc | hc
    · exact isNumeral_of_isDigit (whole c hc)
    · rcases List.mem_cons.1 hc with rfl | hc
      · rfl
      · exact isNumeral_of_isDigit (fraction c hc)

/-- No two numbers are side by side where the runs are as long as they can be. -/
lemma IsCutOf.isChain_tokens {ps : List (List Char)} {cs : List Char} {ts : List Token}
    (hcut : IsCutOf ps cs) (h : List.Forall₂ Spells ps ts) :
    ts.IsChain fun t u => ¬ (t.IsNumber ∧ u.IsNumber) := by
  rw [List.isChain_iff_forall_rel_of_append_cons_cons]
  rintro _ _ front back rfl ⟨⟨x, rfl⟩, ⟨y, rfl⟩⟩
  obtain ⟨p, _, hp, hrest, hdrop⟩ :=
    List.forall₂_cons_right_iff.1 (List.forall₂_drop_append ps front _ h)
  obtain ⟨q, qs, hq, -, rfl⟩ := List.forall₂_cons_right_iff.1 hrest
  have hps : ps = ps.take front.length ++ p :: q :: qs := by
    rw [← hdrop, List.take_append_drop]
  obtain ⟨hne, hnumeral⟩ := hq.isNumeral
  obtain ⟨c, q, rfl⟩ := List.exists_cons_of_ne_nil hne
  have hc := (hcut.maximal _ p _ hps hp.isNumeral.2).2 c rfl
  rw [hnumeral c List.mem_cons_self] at hc
  cases hc

/-! ### Texts -/

/-- A run is no literal when it has no digit or a second point. -/
lemma isLiteral_eq_false_iff {run : List Char} :
    isLiteral run = false ↔ (∀ c ∈ run, c.isDigit = false) ∨ 1 < run.count '.' := by
  rw [isLiteral, Bool.and_eq_false_iff, List.any_eq_false, decide_eq_false_iff_not, Nat.not_le]
  simp only [Bool.not_eq_true]

/-- **The tokens of a text are its maximal pieces, and nothing is lost.** Of any text the characters
of the alphabet, in their order, are cut into tokens, or there is a bad number among them.

* The latter is the only fault there is, and it is found exactly when some maximal run of digits and
  points has no digit or more than one point.
* Otherwise there is one token for each piece of a cut: an operator or a parenthesis for a character
  that is one, and for a maximal run of digits and points the double that is nearest to its exact
  decimal value, with ties to even and infinity out of range. No two numbers are side by side. -/
theorem tokens_are_maximal_pieces (text : String) :
    (∀ r, tokens (strip text).toList = .error r → r = .badNumber) ∧
    ((∃ r, tokens (strip text).toList = .error r) ↔
      ∃ run, IsMaximalRun run (text.toList.filter inAlphabet) ∧
        ((∀ c ∈ run, c.isDigit = false) ∨ 1 < run.count '.')) ∧
    ∀ ts, tokens (strip text).toList = .ok ts →
      ∃ ps, IsCutOf ps (text.toList.filter inAlphabet) ∧ List.Forall₂ Spells ps ts ∧
        ts.IsChain fun t u => ¬ (t.IsNumber ∧ u.IsNumber) := by
  have hstrip : (strip text).toList = text.toList.filter inAlphabet := by
    rw [strip, String.toList_ofList]
  have halphabet : ∀ c ∈ text.toList.filter inAlphabet, inAlphabet c = true :=
    fun c hc => List.of_mem_filter hc
  rw [hstrip]
  refine ⟨fun r h => ((tokens_eq_error_iff halphabet).1 h).1, ?_, fun ts h => ?_⟩
  · simp only [tokens_eq_error_iff halphabet, isLiteral_eq_false_iff, exists_eq_left]
  · have hcut := isCutOf_pieces halphabet
    have hspells := forall₂_spells h
    exact ⟨_, hcut, hspells, hcut.isChain_tokens hspells⟩

-- runs that stripping brings together are one number
example : tokens (strip "1 2.-(3").toList =
    .ok [.number (.ofNat 12), .operator .minus, .paren .opening, .number (.ofNat 3)] := by
  decide +kernel

end DeskCalculator
