import Mathlib.Data.List.SplitBy
import DeskCalculator.Proofs.Outcome
import DeskCalculator.Expression.Token

/-!
The pieces of a text, and which texts have tokens.

* **Characters**: what a character of a number, an operator or a parenthesis is and is not.
* **The cut** (`pieces_eq_splitBy`): the pieces are the cut of a text between any two
  characters that are not both of a number, so what is known of such cuts holds of them.
* **Maximal runs** (`isMaximalRun_iff`): the pieces made of digits and points are the
  maximal runs of these in the text.
* **Texts put together** (`tokens_append`): so are their tokens, unless a run goes on from the
  one into the other. `tokens_around`, `tokens_cons`, `tokens_grouped`: a character that is no
  part of a number never lets one go on.
* **Tokens** (`tokens_eq_error_iff`): over the alphabet nothing but a maximal run that is
  no literal keeps a text from having tokens.
-/

namespace DeskCalculator

/-! ### Characters -/

lemma isOperatorChar_iff {c : Char} :
    isOperatorChar c = true ↔ c = '+' ∨ c = '-' ∨ c = '*' ∨ c = '/' := by
  constructor
  · intro h
    obtain ⟨op, hop⟩ := Option.isSome_iff_exists.1 h
    have hc := Operator.char_of_ofChar? hop
    cases op <;> simp [← hc, Operator.char]
  · rintro (rfl | rfl | rfl | rfl) <;> rfl

lemma isOperatorChar_of_isNumeral {c : Char} (h : isNumeral c = true) :
    isOperatorChar c = false := by
  rw [Bool.eq_false_iff]
  intro hop
  rcases isOperatorChar_iff.1 hop with rfl | rfl | rfl | rfl <;> revert h <;> decide

lemma isOperatorChar_paren (p : Paren) : isOperatorChar p.char = false := by
  cases p <;> rfl

lemma isOperatorChar_operator (op : Operator) : isOperatorChar op.char = true := by
  cases op <;> rfl

lemma inAlphabet_of_isNumeral {c : Char} (h : isNumeral c = true) : inAlphabet c = true := by
  simp [inAlphabet, h]

lemma inAlphabet_paren (p : Paren) : inAlphabet p.char = true := by
  cases p <;> rfl

lemma inAlphabet_operator (op : Operator) : inAlphabet op.char = true := by
  cases op <;> rfl

lemma ne_e_of_inAlphabet {c : Char} (h : inAlphabet c = true) : c ≠ 'e' := by
  rintro rfl
  revert h
  decide

/-! ### The cut -/

/-- Two characters that stay together when they stand side by side. -/
def areJoined (a b : Char) : Bool := isNumeral a && isNumeral b

lemma attach_nil (c : Char) : attach c [] = [[c]] := rfl

lemma attach_cons (c d : Char) (run : List Char) (rest : List (List Char)) :
    attach c ((d :: run) :: rest) =
      if areJoined c d then (c :: d :: run) :: rest else [c] :: (d :: run) :: rest := rfl

/-- The pieces of a text are its cut where two characters do not stay together. -/
theorem pieces_eq_splitBy (cs : List Char) : pieces cs = cs.splitBy areJoined := by
  induction cs with
  | nil => rfl
  | cons c cs ih =>
      have hp : pieces (c :: cs) = attach c (cs.splitBy areJoined) := by
        rw [← ih]
        rfl
      rw [hp, eq_comm, List.splitBy_eq_iff, flatten_attach, List.flatten_splitBy]
      have hnil := List.nil_notMem_splitBy areJoined cs
      have hin : ∀ m ∈ cs.splitBy areJoined, m.IsChain fun x y => areJoined x y :=
        fun m hm => List.isChain_of_mem_splitBy hm
      have hout := List.isChain_getLast_head_splitBy areJoined cs
      refine ⟨rfl, ?_⟩
      generalize cs.splitBy areJoined = ps at hnil hin hout
      rcases ps with _ | ⟨_ | ⟨d, run⟩, rest⟩
      · simp [attach_nil]
      · simp at hnil
      · rw [attach_cons]
        split
        case isTrue h =>
          refine ⟨by simpa using hnil, ?_, ?_⟩
          · simpa [h] using hin
          · rw [List.isChain_cons] at hout ⊢
            simpa using hout
        case isFalse h =>
          refine ⟨by simpa using hnil, ?_, ?_⟩
          · simpa using hin
          · rw [List.isChain_cons]
            exact ⟨by simpa using h, hout⟩

lemma pieces_append {cs ds : List Char}
    (h : ∀ c ∈ cs.getLast?, ∀ d ∈ ds.head?, areJoined c d = false) :
    pieces (cs ++ ds) = pieces cs ++ pieces ds := by
  simp only [pieces_eq_splitBy]
  exact List.splitBy_append h

/-- A run of digits and points is one piece. -/
lemma pieces_run {run : List Char} (hne : run ≠ []) (hrun : ∀ c ∈ run, isNumeral c = true) :
    pieces run = [run] := by
  rw [pieces_eq_splitBy]
  refine List.splitBy_of_isChain hne (List.Pairwise.isChain ?_)
  refine List.pairwise_of_forall_mem_list fun c hc d hd => ?_
  simp [areJoined, hrun c hc, hrun d hd]

/-! ### Maximal runs -/

/-- A run of digits and points with none before it and none behind it in a text. -/
def IsMaximalRun (run cs : List Char) : Prop :=
  run ≠ [] ∧ (∀ c ∈ run, isNumeral c = true) ∧
    ∃ before behind : List Char, cs = before ++ run ++ behind ∧
      (∀ c ∈ before.getLast?, isNumeral c = false) ∧
      (∀ c ∈ behind.head?, isNumeral c = false)

/-- A piece is a run of digits and points or a single other character. -/
lemma piece_cases {cs p : List Char} (hp : p ∈ pieces cs) :
    (p ≠ [] ∧ ∀ c ∈ p, isNumeral c = true) ∨ ∃ c, p = [c] ∧ isNumeral c = false := by
  rw [pieces_eq_splitBy] at hp
  have hne := List.ne_nil_of_mem_splitBy hp
  have hchain := List.isChain_of_mem_splitBy hp
  obtain ⟨c, p, rfl⟩ := List.exists_cons_of_ne_nil hne
  cases hc : isNumeral c with
  | true =>
      refine Or.inl ⟨hne, hchain.induction (isNumeral · = true) _ ?_ fun _ => hc⟩
      intro x y hxy _
      exact (Bool.and_eq_true_iff.1 hxy).2
  | false =>
      refine Or.inr ⟨c, ?_, hc⟩
      cases p with
      | nil => rfl
      | cons d p => simp [areJoined, hc] at hchain

lemma IsMaximalRun.mem_pieces {run cs : List Char} (h : IsMaximalRun run cs) :
    run ∈ pieces cs := by
  obtain ⟨hne, hrun, before, behind, rfl, hbefore, hbehind⟩ := h
  rw [pieces_append, pieces_append, pieces_run hne hrun]
  · simp
  · intro x hx y _
    simp [areJoined, hbefore x hx]
  · intro x _ y hy
    simp [areJoined, hbehind y hy]

/-- The pieces beside one made of digits and points are cut off because they do not end or begin
with such. -/
lemma not_numeral_beside {cs run : List Char} {ps qs : List (List Char)}
    (hps : pieces cs = ps ++ run :: qs) (hrun : ∀ c ∈ run, isNumeral c = true) :
    (∀ c ∈ ps.flatten.getLast?, isNumeral c = false) ∧
      (∀ c ∈ qs.flatten.head?, isNumeral c = false) := by
  have hout := List.isChain_getLast_head_splitBy areJoined cs
  rw [← pieces_eq_splitBy, hps] at hout
  obtain ⟨-, hqs, hps⟩ := List.isChain_append.1 hout
  constructor
  · rcases List.eq_nil_or_concat ps with rfl | ⟨ps, p, rfl⟩
    · simp
    · obtain ⟨hp, hr, h⟩ := hps p (by simp) run (by simp)
      simpa [areJoined, hrun, List.getLast?_append_of_ne_nil _ hp,
        List.getLast?_eq_some_getLast hp] using h
  · cases qs with
    | nil => simp
    | cons q qs =>
        obtain ⟨hr, hq, h⟩ := (List.isChain_cons.1 hqs).1 q (by simp)
        simpa [areJoined, hrun, List.head?_append_of_ne_nil _ hq,
          List.head?_eq_some_head hq] using h

lemma isMaximalRun_of_mem_pieces {run cs : List Char} (hmem : run ∈ pieces cs)
    (hrun : ∀ c ∈ run, isNumeral c = true) : IsMaximalRun run cs := by
  obtain ⟨ps, qs, hps⟩ := List.append_of_mem hmem
  have hcs := flatten_pieces cs
  rw [hps] at hcs
  rw [pieces_eq_splitBy] at hmem
  exact ⟨List.ne_nil_of_mem_splitBy hmem, hrun, ps.flatten, qs.flatten, by simpa using hcs.symm,
    not_numeral_beside hps hrun⟩

/-- The maximal runs of a text are its pieces that are made of digits and points. -/
theorem isMaximalRun_iff {run cs : List Char} :
    IsMaximalRun run cs ↔ run ∈ pieces cs ∧ ∀ c ∈ run, isNumeral c = true :=
  ⟨fun h => ⟨h.mem_pieces, h.2.1⟩, fun h => isMaximalRun_of_mem_pieces h.1 h.2⟩

/-! ### Tokens -/

lemma readLiteral?_isSome (run : List Char) : (readLiteral? run).isSome = isLiteral run := by
  unfold readLiteral?
  split <;> simp_all

lemma ofChar?_isSome {c : Char} (hc : inAlphabet c = true) (hn : isNumeral c = false) :
    (Token.ofChar? c).isSome = true := by
  simp only [inAlphabet, hn, Bool.false_or, Bool.or_eq_true] at hc
  unfold Token.ofChar?
  rcases hc with h | h
  · obtain ⟨op, hop⟩ := Option.isSome_iff_exists.1 h
    simp [hop]
  · obtain ⟨p, hp⟩ := Option.isSome_iff_exists.1 h
    cases ho : Operator.ofChar? c <;> simp [hp]

lemma ofPiece_eq_error_iff {cs p : List Char} (hcs : ∀ c ∈ cs, inAlphabet c = true)
    (hp : p ∈ pieces cs) {r : Reason} :
    Token.ofPiece p = .error r ↔
      r = .badNumber ∧ (∀ c ∈ p, isNumeral c = true) ∧ isLiteral p = false := by
  rcases piece_cases hp with ⟨hne, hrun⟩ | ⟨c, rfl, hc⟩
  · obtain ⟨c, p, rfl⟩ := List.exists_cons_of_ne_nil hne
    have hc : isNumeral c = true := hrun c List.mem_cons_self
    have hlit := readLiteral?_isSome (c :: p)
    rw [Token.ofPiece, if_pos hc]
    cases h : readLiteral? (c :: p) with
    | none =>
        rw [h] at hlit
        exact ⟨fun he => ⟨(Except.error.inj he).symm, hrun, hlit.symm⟩, fun he => he.1 ▸ rfl⟩
    | some x =>
        rw [h] at hlit
        constructor
        · rintro ⟨⟩
        · rintro ⟨-, -, hl⟩
          cases hlit.trans hl
  · have hmem : c ∈ cs := by
      rw [← flatten_pieces cs]
      exact List.mem_flatten_of_mem hp List.mem_cons_self
    obtain ⟨t, ht⟩ := Option.isSome_iff_exists.1 (ofChar?_isSome (hcs c hmem) hc)
    simp [Token.ofPiece, hc, ht]

/-- Texts have their tokens one after the other unless a run goes on from the one into the
other. -/
lemma tokens_append {cs ds : List Char} {ts us : List Token}
    (h : ∀ c ∈ cs.getLast?, ∀ d ∈ ds.head?, areJoined c d = false)
    (hcs : tokens cs = .ok ts) (hds : tokens ds = .ok us) :
    tokens (cs ++ ds) = .ok (ts ++ us) := by
  rw [tokens] at hcs hds
  rw [tokens, pieces_append h, List.mapM_append, hcs, hds]
  rfl

/-- A run that is a literal has one token. -/
lemma tokens_run {run : List Char} {x : Binary64} (hne : run ≠ [])
    (hrun : ∀ c ∈ run, isNumeral c = true) (hx : readLiteral? run = some x) :
    tokens run = .ok [.number x] := by
  have hpieces := pieces_run hne hrun
  obtain ⟨c, run, rfl⟩ := List.exists_cons_of_ne_nil hne
  rw [tokens, hpieces, List.mapM_cons, Token.ofPiece, if_pos (hrun c List.mem_cons_self), hx]
  rfl

lemma tokens_operator (op : Operator) : tokens [op.char] = .ok [.operator op] := by
  cases op <;> rfl

/-- A character that is no part of a number stands between the tokens of what is before it and
behind it. -/
lemma tokens_around {cs ds : List Char} {ts us : List Token} {c : Char} {t : Token}
    (hc : isNumeral c = false) (ht : tokens [c] = .ok [t]) (hcs : tokens cs = .ok ts)
    (hds : tokens ds = .ok us) : tokens (cs ++ c :: ds) = .ok (ts ++ t :: us) := by
  refine tokens_append (fun a _ b hb => ?_) hcs (tokens_append (fun a ha b _ => ?_) ht hds)
  · obtain rfl : c = b := Option.some.inj hb
    rw [areJoined, hc, Bool.and_false]
  · obtain rfl : c = a := Option.some.inj ha
    rw [areJoined, hc, Bool.false_and]

lemma tokens_cons {cs : List Char} {ts : List Token} {c : Char} {t : Token}
    (hc : isNumeral c = false) (ht : tokens [c] = .ok [t]) (hcs : tokens cs = .ok ts) :
    tokens (c :: cs) = .ok (t :: ts) :=
  @tokens_around [] cs [] ts c t hc ht rfl hcs

/-- Parentheses stand around the tokens of what is in them. -/
lemma tokens_grouped {cs : List Char} {ts : List Token} (h : tokens cs = .ok ts) :
    tokens ('(' :: (cs ++ [')'])) = .ok (.paren .opening :: (ts ++ [.paren .closing])) :=
  tokens_cons rfl rfl (tokens_around rfl rfl h rfl)

lemma isNumeral_operator (op : Operator) : isNumeral op.char = false := by cases op <;> rfl

/-- **A text over the alphabet has no tokens exactly when one of its maximal runs is no
literal**, and there is no other cause for it. -/
theorem tokens_eq_error_iff {cs : List Char} (hcs : ∀ c ∈ cs, inAlphabet c = true)
    {r : Reason} :
    tokens cs = .error r ↔
      r = .badNumber ∧ ∃ run, IsMaximalRun run cs ∧ isLiteral run = false := by
  have hsound : ∀ {r : Reason}, tokens cs = .error r →
      r = .badNumber ∧ ∃ run, IsMaximalRun run cs ∧ isLiteral run = false := by
    intro r h
    obtain ⟨p, hp, he⟩ := mapM_eq_error h
    obtain ⟨hr, hrun, hlit⟩ := (ofPiece_eq_error_iff hcs hp).1 he
    exact ⟨hr, p, isMaximalRun_iff.2 ⟨hp, hrun⟩, hlit⟩
  refine ⟨hsound, ?_⟩
  rintro ⟨rfl, run, hrun, hlit⟩
  obtain ⟨hmem, hnum⟩ := isMaximalRun_iff.1 hrun
  have hbad : Token.ofPiece run = .error .badNumber :=
    (ofPiece_eq_error_iff hcs hmem).2 ⟨rfl, hnum, hlit⟩
  cases h : tokens cs with
  | error r => rw [(hsound h).1]
  | ok ts =>
      obtain ⟨t, -, ht⟩ := exists_ok_of_mem h hmem
      rw [hbad] at ht
      cases ht

end DeskCalculator
