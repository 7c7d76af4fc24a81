import DeskCalculator.Proofs.Desk.Chaining

/-!
A note tells which calculation it is of.

Four kinds of calculations are noted in four ways, all with the expression in front of the same
sign and the result behind it. What can be typed has neither a blank nor one of the marks of a
transform, so a note is cut at its first blank, and the mark before that, or that there is none,
tells the kind.

* `Calculation`, `Calculation.note`: the kinds of calculations and how they are noted.
* `Calculation.ext_of_notedSide`: what stands before the first blank tells the kind and the
  expression.
* `Key.Calculates.exists_note`: the note that a key enters is one of these.
* `notes_unambiguous`: the result.
-/

namespace DeskCalculator

/-- A kind of calculation: the value of an expression, or a transform of it. -/
inductive Calculation where
  | value
  | transform (t : Transform)
deriving DecidableEq

namespace Calculation

/-- The note of a calculation, from its expression and its result. -/
def note (c : Calculation) (expression result : String) : String :=
  match c with
  | value => noteOf expression result
  | transform t => t.note expression result

/-- The key that makes a calculation. -/
def key : Calculation → Key
  | value => .equals
  | transform t => .transform t

/-! ### The two sides of a note -/

/-- What is written before an expression. -/
def opening : Calculation → List Char
  | value => []
  | transform .squareRoot => ['√', '(']
  | transform .square => ['(']
  | transform .percentage => ['(']

/-- What is written behind it. -/
def closing : Calculation → List Char
  | value => []
  | transform .squareRoot => [')']
  | transform .square => [')', '²']
  | transform .percentage => [')', '%']

/-- An expression as it is written in a note. -/
def notedSide (c : Calculation) (expression : List Char) : List Char :=
  c.opening ++ expression ++ c.closing

lemma toList_note (c : Calculation) (expression result : String) :
    (c.note expression result).toList
      = c.notedSide expression.toList ++ ' ' :: '=' :: ' ' :: result.toList := by
  rcases c with _ | ⟨_ | _ | _⟩ <;>
    simp [note, noteOf, Transform.note, notedSide, opening, closing]

/-! ### Typed expressions -/

/-- The marks of transforms. -/
def isMark (c : Char) : Bool := c == '√' || c == '²' || c == '%'

lemma mem_notedSide (c : Calculation) {expression : List Char} {d : Char}
    (hd : d ∈ c.notedSide expression) :
    d ∈ expression ∨ isMark d = true ∨ isParenChar d = true := by
  have haffixes : (c.opening ++ c.closing).all (fun d => isMark d || isParenChar d) = true := by
    rcases c with _ | ⟨_ | _ | _⟩ <;> rfl
  have haround (hd : d ∈ c.opening ++ c.closing) : isMark d = true ∨ isParenChar d = true :=
    Bool.or_eq_true_iff.1 (List.all_eq_true.1 haffixes d hd)
  rcases List.mem_append.1 hd with hd | hd
  · rcases List.mem_append.1 hd with hd | hd
    · exact Or.inr (haround (List.mem_append_left _ hd))
    · exact Or.inl hd
  · exact Or.inr (haround (List.mem_append_right _ hd))

/-- What can be typed has no mark and no blank. -/
lemma not_isMark_of_isTyped {cs : List Char} (h : IsTyped cs) {c : Char} (hc : c ∈ cs) :
    isMark c = false ∧ c ≠ ' ' := by
  have hne {d : Char} (halphabet : inAlphabet d = false) (he : d ≠ 'e') : c ≠ d := by
    rintro rfl
    rcases h.chars c hc with hin | hin
    · rw [halphabet] at hin
      cases hin
    · exact he hin
  have hroot : c ≠ '√' := hne rfl (by decide)
  have hsquare : c ≠ '²' := hne rfl (by decide)
  have hpercent : c ≠ '%' := hne rfl (by decide)
  exact ⟨by simp [isMark, hroot, hsquare, hpercent], hne rfl (by decide)⟩

lemma filter_notedSide (c : Calculation) {expression : List Char} (h : IsTyped expression) :
    (c.notedSide expression).filter isMark = (c.opening ++ c.closing).filter isMark := by
  have hnone : expression.filter isMark = [] :=
    List.filter_eq_nil_iff.2 fun d hd => by simp [(not_isMark_of_isTyped h hd).1]
  simp only [notedSide, List.filter_append, hnone, List.append_nil]

lemma eq_of_marks {c c' : Calculation}
    (h : (c.opening ++ c.closing).filter isMark = (c'.opening ++ c'.closing).filter isMark) :
    c = c' := by
  rcases c with _ | ⟨_ | _ | _⟩ <;> rcases c' with _ | ⟨_ | _ | _⟩ <;>
    first | rfl | exact absurd h (by decide)

lemma ne_blank_of_mem_notedSide (c : Calculation) {expression : List Char}
    (h : IsTyped expression) : ∀ d ∈ c.notedSide expression, (d != ' ') = true := by
  intro d hd
  rw [bne_iff_ne]
  rintro rfl
  rcases c.mem_notedSide hd with hd | hd | hd
  · exact (not_isMark_of_isTyped h hd).2 rfl
  · exact absurd hd (by decide)
  · exact absurd hd (by decide)

lemma cut_note (c : Calculation) {expression : String} (h : IsTyped expression.toList)
    (result : String) :
    (c.note expression result).toList.takeWhile (· != ' ') = c.notedSide expression.toList ∧
      (c.note expression result).toList.dropWhile (· != ' ')
        = ' ' :: '=' :: ' ' :: result.toList := by
  have hside := c.ne_blank_of_mem_notedSide h
  rw [toList_note, List.takeWhile_append_of_pos hside, List.dropWhile_append_of_pos hside]
  exact ⟨List.append_nil _, rfl⟩

/-- An expression as it is written tells the kind and itself. -/
lemma ext_of_notedSide {c c' : Calculation} {expression expression' : List Char}
    (h : IsTyped expression) (h' : IsTyped expression')
    (heq : c.notedSide expression = c'.notedSide expression') :
    c = c' ∧ expression = expression' := by
  have hmarks := congrArg (List.filter isMark) heq
  rw [filter_notedSide c h, filter_notedSide c' h'] at hmarks
  obtain rfl := eq_of_marks hmarks
  exact ⟨rfl, List.append_cancel_left (List.append_cancel_right heq)⟩

/-- A note tells the kind, the expression and the result. -/
lemma ext_of_note {c c' : Calculation} {expression expression' result result' : String}
    (h : IsTyped expression.toList) (h' : IsTyped expression'.toList)
    (heq : c.note expression result = c'.note expression' result') :
    c = c' ∧ expression = expression' ∧ result = result' := by
  obtain ⟨hside, hresult⟩ := c.cut_note h result
  obtain ⟨hside', hresult'⟩ := c'.cut_note h' result'
  rw [heq] at hside hresult
  obtain ⟨rfl, hexpression⟩ := ext_of_notedSide h h' (hside.symm.trans hside')
  refine ⟨rfl, String.toList_inj.1 hexpression, String.toList_inj.1 ?_⟩
  simpa using hresult.symm.trans hresult'

end Calculation

/-- A key that makes a calculation makes one of a kind, and notes it so. -/
lemma Key.Calculates.exists_note {k : Key} {expression note : String}
    (h : k.Calculates expression note) :
    ∃ (c : Calculation) (result : String),
      k = c.key ∧ IsResult result ∧ note = c.note expression result := by
  cases k with
  | equals =>
      obtain ⟨result, hresult, rfl⟩ := h
      exact ⟨.value, result, rfl, isResult_of_answer hresult, rfl⟩
  | transform t =>
      obtain ⟨result, hresult⟩ := h
      have hnote : note = t.note expression result := by
        obtain ⟨x, -, h⟩ := bind_eq_ok_iff.1 hresult
        obtain ⟨y, -, h⟩ := bind_eq_ok_iff.1 h
        obtain ⟨z, -, h⟩ := bind_eq_ok_iff.1 h
        cases h
        rfl
      exact ⟨.transform t, result, rfl, isResult_of_transform hresult, hnote⟩
  | _ => exact h.elim

/-- **A note tells which calculation it is of.** Take two calculators that come of new ones by any
keys. If two notes of any kinds, each of the expression of one of them and any result, are the
same, then so are the kinds, the expressions and the results; and two keys that enter the same
note are the same key, pressed with the same expression. -/
theorem notes_unambiguous {σ τ : Type} [Storage σ] [Storage τ] {desk : Desk σ} {desk' : Desk τ}
    (h : desk.Reachable) (h' : desk'.Reachable) :
    (∀ (c c' : Calculation) (result result' : String),
      c.note desk.line.expression result = c'.note desk'.line.expression result' →
        c = c' ∧ desk.line.expression = desk'.line.expression ∧ result = result') ∧
    ∀ (k k' : Key) (note : String), k.Calculates desk.line.expression note →
      k'.Calculates desk'.line.expression note →
        k = k' ∧ desk.line.expression = desk'.line.expression := by
  have hnotes {c c' : Calculation} {result result' : String}
      (heq : c.note desk.line.expression result = c'.note desk'.line.expression result') :=
    Calculation.ext_of_note h.kept.typed h'.kept.typed heq
  refine ⟨fun c c' result result' => hnotes, fun k k' note hk hk' => ?_⟩
  obtain ⟨c, result, rfl, -, rfl⟩ := hk.exists_note
  obtain ⟨c', result', rfl, -, heq⟩ := hk'.exists_note
  obtain ⟨rfl, hexpression, -⟩ := hnotes heq
  exact ⟨rfl, hexpression⟩

/-- No kind of calculation of `9` is noted as any of `(9)` is, for all the parentheses that notes
have of their own. -/
theorem notes_unambiguous_of_parentheses :
    let nine : List Key := [.numeral ⟨'9', rfl⟩]
    let inside : List Key := .paren .opening :: nine ++ [.paren .closing]
    let desk := ((Desk.start usualKey MemoryStorage.empty).pressAll nine).1
    let desk' := ((Desk.start usualKey MemoryStorage.empty).pressAll inside).1
    desk.Reachable ∧ desk'.Reachable ∧ desk.line.expression = "9" ∧
      desk'.line.expression = "(9)" ∧
      ∀ (c c' : Calculation) (result result' : String),
        c.note desk.line.expression result ≠ c'.note desk'.line.expression result' := by
  intro nine inside desk desk'
  have h : desk.Reachable := (Desk.Reachable.start _ _ _).pressAll nine
  have h' : desk'.Reachable := (Desk.Reachable.start _ _ _).pressAll inside
  have hne : desk.line.expression ≠ desk'.line.expression := by decide +kernel
  exact ⟨h, h', by decide +kernel, by decide +kernel, fun c c' result result' heq =>
    hne ((notes_unambiguous h h').1 c c' result result' heq).2.1⟩

end DeskCalculator
