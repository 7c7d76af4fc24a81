import DeskCalculator.Proofs.Decimal.Reading
import DeskCalculator.Proofs.Desk.EntryLine
import DeskCalculator.Proofs.Expression.Signed

/-!
Calculating with a result that is shown.

* `value_joined`: the value of two literals with an `e` between them.
* `value_numeral_of_isWrittenOut`: a number written out in full has itself as its value, and
  both zeros have zero.
* `value_numeral_of_not_isWrittenOut`: any other number has lost its `e` when it is read, and
  has the sum or difference of its mantissa and its exponent as its value.
* `Desk.Reachable`: the calculators that come of keys, whatever happens to their storage.
* `shown_result_chains`: the result, with what the key for the value does.
-/

namespace DeskCalculator

open Grammar

/-! ### Numbers written out in full -/

/-- Zero is written without a sign, so a number without the sign of a zero is written as the
number. -/
lemma numeral_without_sign_of_zero (x : Binary64) :
    (if x.isZero = true then Binary64.zero false else x).numeral = x.numeral := by
  split
  case isTrue h =>
    have hzero : (Binary64.zero false).isZero = true := rfl
    rw [Binary64.numeral, Binary64.numeral, numeralChars_of_isZero h, numeralChars_of_isZero hzero]
  case isFalse => rfl

/-- **A number written out in full has itself as its value**; zero is written without a
sign. -/
theorem value_numeral_of_isWrittenOut {x : Binary64} (hx : x.isFinite = true)
    (h : x.IsWrittenOut) :
    value x.numeral = .ok (if x.isZero = true then .zero false else x) := by
  cases x with
  | infinite s => cases hx
  | nan => cases hx
  | finite s n hn =>
      by_cases hzero : n = 0
      · have hz : (Binary64.finite s n hn).isZero = true := beq_iff_eq.2 hzero
        have hchars : (Binary64.finite s n hn).numeralChars = signText false ++ ['0'] :=
          numeralChars_of_isZero hz
        have hread : readLiteral? ['0'] = some (.zero false) := by decide +kernel
        have hrun : ∀ c ∈ ['0'], isNumeral c = true := by
          intro c hc
          rw [List.mem_singleton.1 hc]
          rfl
        rw [Binary64.numeral, hchars, value_signed false (List.cons_ne_nil _ _) hrun hread rfl,
          if_pos hz]
        rfl
      · have hchars : (Binary64.finite s n hn).numeralChars
            = signText s ++ (Decimal.shortest n).positional := by
          rw [Binary64.numeralChars, if_neg hzero, Decimal.text,
            if_pos ((writtenOut_shortest_iff s hn hzero).2 h)]
        have hz : ¬ (Binary64.finite s n hn).isZero = true := fun hz => hzero (beq_iff_eq.1 hz)
        rw [Binary64.numeral, hchars, value_signed s (Decimal.positional_ne_nil _)
          (fun _ => Decimal.isNumeral_of_mem_positional)
          (Decimal.readLiteral?_positional_shortest hn) rfl, if_neg hz]
        cases s <;> rfl

/-! ### Numbers with an exponent -/

/-- A sign joins doubles far from the bound to a finite one. -/
lemma isFinite_join (sign : Sign) {v w : Binary64} (hv : v.isFinite = true)
    (hw : w.isFinite = true) (h : 2 * (v.magnitude + w.magnitude) + 1 < bound) :
    (sign.join v w).isFinite = true := by
  cases sign with
  | plus => exact Binary64.isFinite_add hv hw h
  | minus =>
      have h' : 2 * (v.magnitude + (-w).magnitude) + 1 < bound := by
        rwa [Binary64.magnitude_neg]
      exact Binary64.isFinite_add hv ((Binary64.isFinite_neg w).trans hw) h'

/-- Two literals with an `e` between them, the first with a sign and the second behind one,
have the sum or difference of the two as their value: the `e` is stripped, and nothing else
is. -/
lemma value_joined (negative : Bool) (sign : Sign) {ms ks : List Char} {m k : Binary64}
    (hms : ms ≠ []) (hm : ∀ c ∈ ms, isNumeral c = true) (hm' : readLiteral? ms = some m)
    (hks : ks ≠ []) (hk : ∀ c ∈ ks, isNumeral c = true) (hk' : readLiteral? ks = some k)
    (hf : (sign.join (if negative then -m else m) k).isFinite = true) :
    value (.ofList (signText negative ++ ms ++ 'e' :: sign.operator.char :: ks))
      = .ok (sign.join (if negative then -m else m) k) := by
  have hsign : isNumeral sign.operator.char = false := by cases sign <;> rfl
  have hstrip : (signText negative ++ ms ++ 'e' :: sign.operator.char :: ks).filter inAlphabet
      = signText negative ++ ms ++ ([sign.operator.char] ++ ks) := by
    rw [List.filter_append, filter_signed negative hm, List.filter_cons_of_neg (by decide),
      List.filter_cons_of_pos (inAlphabet_operator _),
      List.filter_eq_self.2 fun c hc => inAlphabet_of_isNumeral (hk c hc)]
    rfl
  have hexponent : tokens ([sign.operator.char] ++ ks)
      = .ok ([.operator sign.operator] ++ [.number k]) := by
    refine tokens_append (fun c hc d _ => ?_) (tokens_operator _) (tokens_run hks hk hk')
    obtain rfl : sign.operator.char = c := by simpa using hc
    rw [areJoined, hsign, Bool.false_and]
  have hvalue : ((signedNumber negative m).joined sign (.number k)).value
      = sign.join (if negative then -m else m) k := by
    rw [← value_signedNumber]
    rfl
  obtain ⟨hd, hn⟩ := defined_signedNumber negative m
  rw [← hvalue] at hf ⊢
  refine value_of_tokens ?_ ?_ ⟨⟨hd, trivial⟩, ⟨trivial, trivial⟩, trivial⟩ hf
  · rw [hstrip, Operand.tokens_joined]
    refine tokens_append (fun c _ d hd => ?_) (tokens_signed negative hms hm hm') hexponent
    obtain rfl : sign.operator.char = d := by simpa using hd
    rw [areJoined, hsign, Bool.and_false]
  · rw [Operand.nesting_joined]
    exact max_le (hn.trans (by decide)) (show 1 ≤ maxLevels by decide)

/-- The sign that an exponent is written with. -/
def exponentSign (e : ℤ) : Sign := if e < 0 then .minus else .plus

lemma scientific_eq (d : Decimal) :
    d.scientific = Decimal.mantissa (decimalDigits d.digits) ++
      'e' :: (exponentSign d.leadingExponent).operator.char
        :: decimalDigits d.leadingExponent.natAbs := by
  rw [Decimal.scientific, Decimal.exponentText, exponentSign]
  split <;> rfl

/-- **Any other number has the sum or difference of its mantissa and its exponent as its
value**, each read as the double nearest it and the mantissa with its sign. -/
theorem value_numeral_of_not_isWrittenOut {x : Binary64} (hx : x.isFinite = true)
    (h : ¬ x.IsWrittenOut) :
    ∃ (ms ks : List Char) (sign : Sign) (m k : Binary64),
      x.numeralChars = signText x.isBelowZero ++ ms ++ 'e' :: sign.operator.char :: ks ∧
      (∀ c ∈ ms ++ ks, isNumeral c = true) ∧
      readLiteral? ms = some m ∧ readLiteral? ks = some k ∧
      value x.numeral = .ok (sign.join (if x.isBelowZero then -m else m) k) := by
  cases x with
  | infinite s => cases hx
  | nan => cases hx
  | finite s n hn =>
      have hne : n ≠ 0 := fun h0 => h (Or.inl (beq_iff_eq.2 h0))
      have hchars : (Binary64.finite s n hn).numeralChars
          = signText s ++ (Decimal.shortest n).scientific := by
        rw [Binary64.numeralChars, if_neg hne, Decimal.text,
          if_neg (mt (writtenOut_shortest_iff s hn hne).1 h)]
      have hexponent : (Decimal.shortest n).leadingExponent.natAbs ≤ 1000 := by
        have := Decimal.leadingExponent_shortest_mem hn hne
        omega
      have hsign : (Binary64.finite s n hn).isBelowZero = s := by
        simp [Binary64.isBelowZero, hne]
      rw [Binary64.numeral, hchars, scientific_eq, ← List.append_assoc, hsign]
      generalize Decimal.shortest n = d at hexponent
      have hms : ∀ c ∈ Decimal.mantissa (decimalDigits d.digits), isNumeral c = true :=
        fun c => Decimal.isNumeral_of_mem_mantissa fun c => isDigit_of_mem_decimalDigits
      have hks : ∀ c ∈ decimalDigits d.leadingExponent.natAbs, isNumeral c = true :=
        fun c => isNumeral_of_mem_decimalDigits
      have hm := d.readLiteral?_mantissa
      have hk := readLiteral?_decimalDigits d.leadingExponent.natAbs
      have hne' : Decimal.mantissa (decimalDigits d.digits) ≠ [] := by
        intro hnil
        rw [hnil] at hm
        cases hm
      refine ⟨_, _, exponentSign d.leadingExponent, _, _, rfl,
        fun c hc => (List.mem_append.1 hc).elim (hms c) (hks c), hm, hk, ?_⟩
      refine value_joined s _ hne' hms hm (decimalDigits_ne_nil _) hks hk ?_
      obtain ⟨hmfinite, hmle⟩ := d.magnitude_mantissa
      obtain ⟨hkfinite, hkle⟩ := magnitude_ofNat hexponent
      refine isFinite_join _ ((isFinite_signed s _).1.trans hmfinite) hkfinite ?_
      have hbound : 2 * (20 * quantaPerUnit + 1 + (2000 * quantaPerUnit + 1)) + 1 < bound := by
        decide +kernel
      rw [(isFinite_signed s _).2]
      omega

/-! ### Reachable calculators -/

/-- The calculators that come of a new one by pressing keys, whatever else writes to their
storage in between. -/
inductive Desk.Reachable {σ : Type} [Storage σ] : Desk σ → Prop
  /-- A new calculator. -/
  | start (key : String) (storage : σ) (clipboard : Clipboard) :
      Reachable (.start key storage clipboard)
  /-- A key has been pressed. -/
  | press {desk : Desk σ} (h : Reachable desk) (k : Key) : Reachable (desk.press k).1
  /-- Something has happened to the storage. -/
  | elsewhere {desk : Desk σ} (h : Reachable desk) (storage : σ) :
      Reachable { desk with storage }

/-- Several keys lead from a reachable calculator to another. -/
lemma Desk.Reachable.pressAll {σ : Type} [Storage σ] {desk : Desk σ} (h : desk.Reachable)
    (ks : List Key) : (desk.pressAll ks).1.Reachable := by
  induction ks generalizing desk with
  | nil => exact h
  | cons k ks ih => exact ih (h.press k)

/-- The entry line of a reachable calculator is kept. -/
lemma Desk.Reachable.kept {σ : Type} [Storage σ] {desk : Desk σ} (h : desk.Reachable) :
    desk.line.Kept := by
  induction h with
  | start key storage clipboard => exact .blank
  | press h k ih =>
      rw [Desk.line_press]
      exact ih.press k
  | elsewhere h storage ih => exact ih

/-- A result that has itself as its answer stays when its value is calculated again. -/
lemma Desk.press_equals_of_answer {σ : Type} [Storage σ] {desk : Desk σ} (h : desk.Reachable)
    (hphase : desk.line.phase = .answered)
    (hanswer : answer desk.line.shown = .ok desk.line.shown) :
    (desk.press .equals).1.line = desk.line ∧
      (desk.press .equals).1.book = desk.book.push (noteOf desk.line.shown desk.line.shown) ∧
      (desk.press .equals).1.storage
        = ((desk.book.push (noteOf desk.line.shown desk.line.shown)).save desk.storage).2 := by
  obtain ⟨hexpression, hresult⟩ := h.kept.answered hphase
  have hline : desk.line.withResult desk.line.shown = desk.line := by
    obtain ⟨⟨expression, shown, phase⟩, book, storage, panelShown, clipboard⟩ := desk
    dsimp only at hexpression hphase ⊢
    rw [EntryLine.withResult, hexpression, hphase]
  rw [desk.press_equals_of_ok (hexpression ▸ hanswer), hexpression]
  exact ⟨hline, desk.succeed_eq _ _⟩

/-- **A shown result chains.** A finite double that is zero or from a millionth up to, but not
including, `10^21` is written so that its value is that double, zero without a sign; on any
reachable calculator that shows it as a result, the key for the value leaves the line as it is
and enters the note that the result is itself. Any other finite double is written as a
mantissa, an `e` and an exponent with a sign, and its value is the sum or difference of the
doubles nearest the two, the mantissa with its own sign. -/
theorem shown_result_chains {x : Binary64} (hx : x.isFinite = true) :
    (x.IsWrittenOut →
      value x.numeral = .ok (if x.isZero = true then .zero false else x) ∧
      ∀ {σ : Type} [Storage σ] (desk : Desk σ), desk.Reachable →
        desk.line.phase = .answered → desk.line.shown = x.numeral →
          (desk.press .equals).1.line = desk.line ∧
          (desk.press .equals).1.book = desk.book.push (x.numeral ++ " = " ++ x.numeral) ∧
          (desk.press .equals).1.storage
            = ((desk.book.push (x.numeral ++ " = " ++ x.numeral)).save desk.storage).2) ∧
    (¬ x.IsWrittenOut →
      ∃ (ms ks : List Char) (sign : Sign) (m k : Binary64),
        x.numeralChars = signText x.isBelowZero ++ ms ++ 'e' :: sign.operator.char :: ks ∧
        (∀ c ∈ ms ++ ks, isNumeral c = true) ∧
        readLiteral? ms = some m ∧ readLiteral? ks = some k ∧
        value x.numeral = .ok (sign.join (if x.isBelowZero then -m else m) k)) := by
  refine ⟨fun h => ?_, value_numeral_of_not_isWrittenOut hx⟩
  have hvalue := value_numeral_of_isWrittenOut hx h
  refine ⟨hvalue, fun desk hdesk hphase hshown => ?_⟩
  have hanswer : answer desk.line.shown = .ok desk.line.shown := by
    rw [hshown, answer, hvalue]
    exact congrArg Except.ok (numeral_without_sign_of_zero x)
  have hpress := Desk.press_equals_of_answer hdesk hphase hanswer
  rwa [hshown] at hpress

/-- A tenth is typed without a nought, and its value is calculated twice. -/
theorem shown_result_chains_of_tenth :
    ∃ (tenth : Binary64) (desk : Desk MemoryStorage),
      value ".1" = .ok tenth ∧ tenth.isFinite = true ∧ tenth.IsWrittenOut ∧
      desk = ((Desk.start usualKey MemoryStorage.empty).pressAll
        [.numeral ⟨'.', rfl⟩, .numeral ⟨'1', rfl⟩, .equals]).1 ∧
      desk.line.shown = tenth.numeral ∧ (desk.press .equals).1.line = desk.line := by
  have hvalue : value ".1" = .ok (.ofDecimal 1 1) := by decide +kernel
  have hwritten : (Binary64.ofDecimal 1 1).IsWrittenOut := by decide +kernel
  have hline : ((Desk.start usualKey MemoryStorage.empty).pressAll
      [.numeral ⟨'.', rfl⟩, .numeral ⟨'1', rfl⟩, .equals]).1.line
      = ⟨(Binary64.ofDecimal 1 1).numeral, (Binary64.ofDecimal 1 1).numeral, .answered⟩ := by
    have htyped : EntryLine.press (EntryLine.press EntryLine.blank (.numeral ⟨'.', rfl⟩))
        (.numeral ⟨'1', rfl⟩) = ⟨".1", "0", .typing⟩ := by decide
    have hanswer : answer ".1" = .ok (Binary64.ofDecimal 1 1).numeral := by
      rw [answer, hvalue]
      rfl
    rw [Desk.line_pressAll, List.foldl_cons, List.foldl_cons, List.foldl_cons, List.foldl_nil]
    change EntryLine.press (EntryLine.press (EntryLine.press EntryLine.blank _) _) .equals = _
    rw [htyped, EntryLine.press, if_neg (by decide), hanswer]
    rfl
  refine ⟨.ofDecimal 1 1, _, hvalue, by decide +kernel, hwritten, rfl, by rw [hline], ?_⟩
  exact (((shown_result_chains (x := .ofDecimal 1 1) (by decide +kernel)).1 hwritten).2 _
    ((Desk.Reachable.start usualKey MemoryStorage.empty .absent).pressAll _)
    (by rw [hline]) (by rw [hline])).1

/-- A result with an exponent does not chain. -/
example : value "-1.5e-7" = .ok (-.ofDecimal 15 1 - .ofNat 7) := by decide +kernel

end DeskCalculator
