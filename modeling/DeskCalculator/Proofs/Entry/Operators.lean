import DeskCalculator.Proofs.Entry.Typing

/-!
Operators typed one after the other: the last one wins.

Any characters may be typed as operators. Those that are none are ignored, and so is every operator
at the beginning of a line up to the first minus. Each of the others takes the place of the one
before it.

* `EntryLine.typeOperators`: the line behind such characters. `operatorsOf`: the operators among
  them.
* `EntryLine.Ignores`: a character that is ignored. `EntryLine.typeOperator?_of_ignores`,
  `EntryLine.typeOperator?_of_not_ignores`: what one character does.
* `IsStem`: an expression without the operator that it may end in (`exists_isStem`).
* `EntryLine.expression_typeOperators`, `EntryLine.typeOperators_of_blank`: what they leave of an
  expression, by induction on the characters.
* `last_operator_wins`: the result.
-/

namespace DeskCalculator

/-! ### Typing operators -/

/-- The operators among characters, in order. -/
def operatorsOf (cs : List Char) : List Char := cs.filter isOperatorChar

/-- A text is an expression without the operator that this may end in, and ends in none itself. -/
structure IsStem (stem cs : List Char) : Prop where
  last : ∀ a ∈ stem.getLast?, isOperatorChar a = false
  whole : cs = stem ∨ ∃ o, isOperatorChar o = true ∧ cs = stem ++ [o]

namespace EntryLine

/-- The line behind characters that are typed as operators, one after the other. -/
def typeOperators (line : EntryLine) (cs : List Char) : EntryLine :=
  cs.foldl (fun line c => (line.typeOperator? c).1) line

/-- A character that is no operator is ignored, and at the beginning anything but a minus. -/
def Ignores (line : EntryLine) (c : Char) : Prop :=
  isOperatorChar c = false ∨ line.expression = "" ∧ c ≠ '-'

variable {line : EntryLine} {c : Char}

/-- The operators that are accepted are those that are not ignored. -/
lemma accepts_iff (line : EntryLine) (op : Operator) :
    line.accepts op = true ↔ ¬ line.Ignores op.char := by
  have hminus : (op == .minus) = true ↔ op.char = '-' := by cases op <;> decide
  rw [accepts, Bool.or_eq_true, hminus]
  simp [isBlank, Ignores, isOperatorChar_operator, imp_iff_not_or]

lemma typeOperator?_of_ignores (h : line.Ignores c) : line.typeOperator? c = (line, false) := by
  rw [typeOperator?]
  cases hop : Operator.ofChar? c with
  | none => rfl
  | some op =>
      obtain rfl := Operator.char_of_ofChar? hop
      have haccepts : line.accepts op = false := by
        rw [Bool.eq_false_iff]
        exact fun haccepts => (line.accepts_iff op).1 haccepts h
      simp only [typeOperator, haccepts]
      rfl

lemma typeOperator?_of_not_ignores (h : ¬ line.Ignores c) :
    line.typeOperator? c =
      ({ line with expression := (withoutOperator line.expression).push c, phase := .typing },
        true) := by
  have hc : isOperatorChar c = true := by
    rw [← Bool.not_eq_false]
    exact fun hc => h (Or.inl hc)
  obtain ⟨op, hop⟩ := Option.isSome_iff_exists.1 hc
  obtain rfl := Operator.char_of_ofChar? hop
  have haccepts : line.accepts op = true := (line.accepts_iff op).2 h
  simp only [typeOperator?, hop, typeOperator, haccepts, if_true]

lemma typeOperators_append (line : EntryLine) (cs ds : List Char) :
    line.typeOperators (cs ++ ds) = (line.typeOperators cs).typeOperators ds :=
  List.foldl_append

lemma typeOperators_cons (line : EntryLine) (c : Char) (cs : List Char) :
    line.typeOperators (c :: cs) = (line.typeOperator? c).1.typeOperators cs := rfl

lemma shown_typeOperators (line : EntryLine) (cs : List Char) :
    (line.typeOperators cs).shown = line.shown := by
  induction cs generalizing line with
  | nil => rfl
  | cons c cs ih =>
      rw [typeOperators_cons, ih]
      by_cases h : line.Ignores c
      · rw [typeOperator?_of_ignores h]
      · rw [typeOperator?_of_not_ignores h]

end EntryLine

/-! ### Expressions without their last operator -/

namespace IsStem

variable {stem cs : List Char}

lemma toList_withoutOperator {expression : String} (h : IsStem stem expression.toList) :
    (EntryLine.withoutOperator expression).toList = stem := by
  rcases h.whole with hwhole | ⟨o, ho, hwhole⟩
  · have hend : endsInOperator expression = false := by
      rw [endsInOperator, hwhole, Option.any_eq_false]
      exact fun a ha => Bool.not_eq_true _ ▸ h.last a ha
    rw [EntryLine.withoutOperator, hend, ← hwhole]
    rfl
  · have hend : endsInOperator expression = true := by
      rw [endsInOperator, hwhole, List.getLast?_concat, Option.any_some, ho]
    rw [EntryLine.withoutOperator, if_pos hend, dropLastChar, String.toList_ofList, hwhole,
      List.dropLast_concat]

lemma concat (h : IsStem stem cs) {o : Char} (ho : isOperatorChar o = true) :
    IsStem stem (stem ++ [o]) :=
  ⟨h.last, Or.inr ⟨o, ho, rfl⟩⟩

end IsStem

/-- What holds of characters side by side tells that there is such a text: what stands before an
operator ends in none. -/
lemma exists_isStem {cs : List Char} (h : cs.IsChain NotBothOperators) :
    ∃ stem, IsStem stem cs := by
  rcases List.eq_nil_or_concat cs with rfl | ⟨cs, c, rfl⟩
  · exact ⟨[], by simp, Or.inl rfl⟩
  rw [List.concat_eq_append] at h ⊢
  cases hc : isOperatorChar c with
  | true =>
      refine ⟨cs, fun a ha => ?_, Or.inr ⟨c, hc, rfl⟩⟩
      have hac := (List.isChain_append.1 h).2.2 a ha c rfl
      rw [Bool.eq_false_iff]
      exact fun hop => hac ⟨hop, hc⟩
  | false =>
      refine ⟨cs ++ [c], fun a ha => ?_, Or.inl rfl⟩
      obtain rfl : c = a := by simpa using ha
      exact hc

/-! ### What operators leave of an expression -/

lemma operatorsOf_cons (c : Char) (cs : List Char) :
    operatorsOf (c :: cs) = if isOperatorChar c then c :: operatorsOf cs else operatorsOf cs :=
  List.filter_cons

lemma getLast?_operatorsOf_of_minus (cs ds : List Char) :
    (operatorsOf (cs ++ '-' :: ds)).getLast? = some ((operatorsOf ds).getLast?.getD '-') := by
  have hminus : operatorsOf ('-' :: ds) = '-' :: operatorsOf ds := operatorsOf_cons '-' ds
  rw [operatorsOf, List.filter_append, ← operatorsOf, ← operatorsOf, hminus,
    List.getLast?_append_of_ne_nil _ (List.cons_ne_nil _ _), List.getLast?_cons]

namespace EntryLine

variable {line : EntryLine} {stem : List Char}

/-- Behind an expression that is not empty every operator is taken, in the place of the one before
it. -/
lemma expression_typeOperators (hstem : IsStem stem line.expression.toList)
    (hne : line.expression ≠ "") (cs : List Char) :
    (line.typeOperators cs).expression.toList =
      (operatorsOf cs).getLast?.elim line.expression.toList fun op => stem ++ [op] := by
  induction cs generalizing line with
  | nil => rfl
  | cons c cs ih =>
      rw [typeOperators_cons, operatorsOf_cons]
      cases hop : isOperatorChar c with
      | false =>
          rw [typeOperator?_of_ignores (Or.inl hop), ih hstem hne]
          rfl
      | true =>
          have hnot : ¬ line.Ignores c := by simp [Ignores, hop, hne]
          have hc : ((withoutOperator line.expression).push c).toList = stem ++ [c] := by
            rw [String.toList_push, hstem.toList_withoutOperator]
          rw [typeOperator?_of_not_ignores hnot, ih (hc ▸ hstem.concat hop) (by simp), if_pos rfl,
            List.getLast?_cons, hc]
          cases (operatorsOf cs).getLast? <;> rfl

lemma typeOperators_of_blank (hblank : line.expression = "") {cs : List Char} (h : '-' ∉ cs) :
    line.typeOperators cs = line := by
  induction cs with
  | nil => rfl
  | cons c cs ih =>
      obtain ⟨hc, hcs⟩ := not_or.1 (List.mem_cons.not.1 h)
      rw [typeOperators_cons, typeOperator?_of_ignores (Or.inr ⟨hblank, Ne.symm hc⟩), ih hcs]

lemma expression_typeOperators_of_blank (hblank : line.expression = "") {cs : List Char}
    (h : '-' ∈ cs) :
    ∃ op, (operatorsOf cs).getLast? = some op ∧
      (line.typeOperators cs).expression.toList = [op] := by
  obtain ⟨front, back, rfl, hfront⟩ := List.eq_append_cons_of_mem h
  have hnot : ¬ line.Ignores '-' := by simp [Ignores, show isOperatorChar '-' = true from rfl]
  have hsign : (withoutOperator line.expression).push '-' = "-" := by
    rw [hblank]
    rfl
  rw [getLast?_operatorsOf_of_minus, typeOperators_append, typeOperators_of_blank hblank hfront,
    typeOperators_cons, typeOperator?_of_not_ignores hnot, hsign]
  have hstem : IsStem [] ("-").toList := ⟨by simp, Or.inr ⟨'-', rfl, rfl⟩⟩
  refine ⟨_, rfl, ?_⟩
  rw [expression_typeOperators hstem (by simp)]
  cases (operatorsOf back).getLast? with
  | none => simp
  | some op => rfl

/-- The line is empty behind operators when it was before and there is no minus among them. -/
lemma expression_typeOperators_eq_empty_iff (h : line.expression.toList.IsChain NotBothOperators)
    (cs : List Char) :
    (line.typeOperators cs).expression = "" ↔ line.expression = "" ∧ '-' ∉ cs := by
  by_cases hblank : line.expression = ""
  · by_cases hminus : '-' ∈ cs
    · obtain ⟨op, -, hexpression⟩ := expression_typeOperators_of_blank hblank hminus
      have hne : (line.typeOperators cs).expression ≠ "" := by
        intro hempty
        rw [hempty] at hexpression
        cases hexpression
      simp [hne, hminus]
    · simp [typeOperators_of_blank hblank hminus, hblank, hminus]
  · obtain ⟨stem, hstem⟩ := exists_isStem h
    have hexpression := expression_typeOperators hstem hblank cs
    simp only [hblank, false_and, iff_false]
    intro hempty
    rw [hempty] at hexpression
    cases hlast : (operatorsOf cs).getLast? with
    | none =>
        rw [hlast] at hexpression
        exact hblank (String.toList_inj.1 hexpression.symm)
    | some op =>
        rw [hlast] at hexpression
        exact List.append_ne_nil_of_right_ne_nil stem (List.cons_ne_nil op []) hexpression.symm

/-- No two operators come to stand side by side. -/
lemma isChain_typeOperators (h : line.expression.toList.IsChain NotBothOperators)
    (cs : List Char) : (line.typeOperators cs).expression.toList.IsChain NotBothOperators := by
  by_cases hblank : line.expression = ""
  · by_cases hminus : '-' ∈ cs
    · obtain ⟨op, -, hexpression⟩ := expression_typeOperators_of_blank hblank hminus
      rw [hexpression]
      exact List.isChain_singleton op
    · rwa [typeOperators_of_blank hblank hminus]
  · obtain ⟨stem, hstem⟩ := exists_isStem h
    rw [expression_typeOperators hstem hblank cs]
    cases (operatorsOf cs).getLast? with
    | none => exact h
    | some op =>
        have hchain : stem.IsChain NotBothOperators := by
          rcases hstem.whole with hwhole | ⟨o, -, hwhole⟩
          · exact hwhole ▸ h
          · rw [hwhole] at h
            exact h.left_of_append
        exact hchain.append (List.isChain_singleton op) fun a ha b _ => .of_left (hstem.last a ha)

end EntryLine

/-- **The last operator typed wins.** Let any characters be typed as operators, one after the other,
where no two operators stand side by side.

* Behind an expression that is not empty the last operator among them stands behind the expression
  without the operator that it ended in, if it did, and without an operator among them it stays.
* At the beginning of a line everything before the first minus is ignored: without a minus the line
  stays, and else the expression is the last operator alone.
* What is shown stays, and no two operators come to stand side by side.
* The next character is reported as ignored exactly if it is no operator, or if the line was empty
  and there has been no minus yet. Then the line stays, and else the character is the last one of
  the expression. -/
theorem last_operator_wins {line : EntryLine}
    (h : line.expression.toList.IsChain NotBothOperators) (cs : List Char) :
    (line.expression ≠ "" →
      (∀ op, (operatorsOf cs).getLast? = some op →
        ∃ stem, IsStem stem line.expression.toList ∧
          (line.typeOperators cs).expression.toList = stem ++ [op]) ∧
      (operatorsOf cs = [] → (line.typeOperators cs).expression = line.expression)) ∧
    (line.expression = "" →
      ('-' ∈ cs → ∃ op, (operatorsOf cs).getLast? = some op ∧
        (line.typeOperators cs).expression.toList = [op]) ∧
      ('-' ∉ cs → line.typeOperators cs = line)) ∧
    (line.typeOperators cs).shown = line.shown ∧
    (line.typeOperators cs).expression.toList.IsChain NotBothOperators ∧
    ∀ (c : Char) (after : EntryLine) (taken : Bool),
      (line.typeOperators cs).typeOperator? c = (after, taken) →
        (taken = false ↔ isOperatorChar c = false ∨ line.expression = "" ∧ '-' ∉ cs ++ [c]) ∧
        (taken = false → after = line.typeOperators cs) ∧
        (taken = true → after.expression.toList.getLast? = some c ∧ after.phase = .typing) := by
  refine ⟨fun hne => ?_, fun hblank => ?_, line.shown_typeOperators cs,
    EntryLine.isChain_typeOperators h cs, fun c after taken hc => ?_⟩
  · obtain ⟨stem, hstem⟩ := exists_isStem h
    have hexpression := EntryLine.expression_typeOperators hstem hne cs
    refine ⟨fun op hop => ⟨stem, hstem, ?_⟩, fun hnone => ?_⟩
    · rw [hexpression, hop]
      rfl
    · rw [hnone] at hexpression
      exact String.toList_inj.1 hexpression
  · exact ⟨EntryLine.expression_typeOperators_of_blank hblank,
      EntryLine.typeOperators_of_blank hblank⟩
  · have hignores : (line.typeOperators cs).Ignores c ↔
        isOperatorChar c = false ∨ line.expression = "" ∧ '-' ∉ cs ++ [c] := by
      rw [EntryLine.Ignores, EntryLine.expression_typeOperators_eq_empty_iff h, and_assoc,
        List.mem_append, List.mem_singleton, not_or, eq_comm (a := '-')]
    rw [← hignores]
    by_cases hi : (line.typeOperators cs).Ignores c
    · rw [EntryLine.typeOperator?_of_ignores hi] at hc
      obtain ⟨rfl, rfl⟩ := Prod.mk.inj hc
      exact ⟨⟨fun _ => hi, fun _ => rfl⟩, fun _ => rfl, nofun⟩
    · rw [EntryLine.typeOperator?_of_not_ignores hi] at hc
      obtain ⟨rfl, rfl⟩ := Prod.mk.inj hc
      exact ⟨⟨nofun, fun h => absurd h hi⟩, nofun, fun _ => ⟨by simp, rfl⟩⟩

/-- So behind `12-` the last of a burst takes the place of the minus, and at the beginning only what
comes from the first minus on counts. -/
theorem last_operator_wins_of_bursts :
    (∃ stem, IsStem stem "12-".toList ∧
      (EntryLine.typeOperators ⟨"12-", "0", .typing⟩ ['/', '^', '*']).expression.toList
        = stem ++ ['*']) ∧
    (∃ op, (operatorsOf ['+', '-', '/', '^']).getLast? = some op ∧
      (EntryLine.blank.typeOperators ['+', '-', '/', '^']).expression.toList = [op]) ∧
    EntryLine.blank.typeOperators ['+', '*'] = EntryLine.blank := by
  have hchain : (EntryLine.mk "12-" "0" .typing).expression.toList.IsChain NotBothOperators :=
    List.isChain_cons_cons.2 ⟨.of_left rfl, List.isChain_cons_cons.2
      ⟨.of_left rfl, List.isChain_singleton '-'⟩⟩
  have hblank : EntryLine.blank.expression.toList.IsChain NotBothOperators := List.isChain_nil
  exact ⟨((last_operator_wins hchain _).1 (by decide)).1 '*' rfl,
    ((last_operator_wins hblank _).2.1 rfl).1 (by decide),
    ((last_operator_wins hblank _).2.1 rfl).2 (by decide)⟩

end DeskCalculator
