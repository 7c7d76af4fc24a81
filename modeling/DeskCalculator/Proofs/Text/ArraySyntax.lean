import DeskCalculator.Proofs.Text.StringArray

/-!
Which texts are arrays of strings, and of which strings.

The syntax is that of JSON. Blanks may stand around brackets, strings and commas, and a string is
made of parts: characters as they are, escapes of one letter, and escapes with the number of a
unit of 16 bits, which make up characters as in UTF-16.

The reader is held to it in both directions. What it has read when it comes to a stage has the form
that belongs to the stage, whatever character led there; and over what has that form it comes
to the stage.

* `IsArray`, with `IsItems`, `IsString`, `AreParts` and `StandFor`: the syntax.
* `HasRead`: what has been read at a stage. Every character keeps it so (`HasRead.step`), and so
  do several (`hasRead_of_foldlM`); and the reader comes to a stage over what has its form
  (`HasRead.foldlM`).
* `decode?_eq_some_iff`: the texts that are read are the arrays.
* `GoesWrong`: the ways in which a text fails to be one, at whatever place.
-/

namespace DeskCalculator

namespace StringArray

/-! ### The syntax -/

/-- Blanks that may stand between the parts of an array. -/
def IsGap (cs : List Char) : Prop := ∀ c ∈ cs, c = ' ' ∨ c = '\t' ∨ c = '\n' ∨ c = '\r'

/-- The escapes of one letter, and the characters that they stand for. -/
inductive ShortEscape : Char → Char → Prop
  | quote : ShortEscape '"' '"'
  | backslash : ShortEscape '\\' '\\'
  | slash : ShortEscape '/' '/'
  | backspace : ShortEscape 'b' '\x08'
  | formFeed : ShortEscape 'f' '\x0c'
  | lineFeed : ShortEscape 'n' '\n'
  | carriageReturn : ShortEscape 'r' '\r'
  | tab : ShortEscape 't' '\t'

/-- Digits in base sixteen, in either case, of a number. -/
inductive AreHexDigits : List Char → ℕ → Prop
  | nil : AreHexDigits [] 0
  | concat {ds : List Char} {n : ℕ} {c : Char} {d : ℕ} (h : AreHexDigits ds n)
      (digit : hexValue? c = some d) : AreHexDigits (ds ++ [c]) (n * 16 + d)

/-- A part of a string as it is written. -/
inductive IsPart : List Char → Piece → Prop
  | char {c : Char} (quote : c ≠ '"') (backslash : c ≠ '\\') (control : 0x20 ≤ c.toNat) :
      IsPart [c] (.char c)
  | short {letter c : Char} (h : ShortEscape letter c) : IsPart ['\\', letter] (.char c)
  | unit {ds : List Char} {n : ℕ} (digits : AreHexDigits ds n) (four : ds.length = 4) :
      IsPart ('\\' :: 'u' :: ds) (.unit n)

/-- Parts of a string one after the other. -/
inductive AreParts : List Char → List Piece → Prop
  | nil : AreParts [] []
  | concat {cs : List Char} {ps : List Piece} {ds : List Char} {p : Piece} (h : AreParts cs ps)
      (last : IsPart ds p) : AreParts (cs ++ ds) (ps ++ [p])

/-- The characters that parts of a string stand for. A unit is the number of a character, or the
first of two surrogates that make up one; no surrogate stands alone. -/
inductive StandFor : List Piece → List Char → Prop
  | nil : StandFor [] []
  | char {ps : List Piece} {cs : List Char} (c : Char) (h : StandFor ps cs) :
      StandFor (.char c :: ps) (c :: cs)
  | unit {ps : List Piece} {cs : List Char} (c : Char) (h : StandFor ps cs) :
      StandFor (.unit c.toNat :: ps) (c :: cs)
  | pair {ps : List Piece} {cs : List Char} {high low : ℕ} {c : Char}
      (first : 0xd800 ≤ high ∧ high < 0xdc00) (second : 0xdc00 ≤ low ∧ low < 0xe000)
      (number : c.toNat = 0x10000 + (high - 0xd800) * 0x400 + (low - 0xdc00))
      (h : StandFor ps cs) : StandFor (.unit high :: .unit low :: ps) (c :: cs)

/-- A string as it is written, between quotes. -/
def IsString (cs : List Char) (text : String) : Prop :=
  ∃ body ps, cs = '"' :: (body ++ ['"']) ∧ AreParts body ps ∧ StandFor ps text.toList

/-- A string with blanks around it. -/
def IsItem (cs : List Char) (text : String) : Prop :=
  ∃ g s g', cs = g ++ s ++ g' ∧ IsGap g ∧ IsString s text ∧ IsGap g'

/-- Strings with commas between them. -/
inductive IsItems : List Char → List String → Prop
  | single {cs : List Char} {text : String} (h : IsItem cs text) : IsItems cs [text]
  | concat {cs : List Char} {texts : List String} {ds : List Char} {text : String}
      (h : IsItems cs texts) (last : IsItem ds text) :
      IsItems (cs ++ ',' :: ds) (texts ++ [text])

/-- An array of strings: nothing or strings between brackets, with nothing but blanks around
it. -/
def IsArray (cs : List Char) (texts : List String) : Prop :=
  ∃ g inner g', cs = g ++ '[' :: (inner ++ ']' :: g') ∧ IsGap g ∧ IsGap g' ∧
    (IsGap inner ∧ texts = [] ∨ IsItems inner texts)

/-! ### Blanks and escapes -/

/-- The reader takes the same characters for blanks. -/
lemma isGap_iff {c : Char} : isGap c = true ↔ IsGap [c] := by
  simp only [isGap, IsGap, List.mem_singleton, forall_eq, Bool.or_eq_true, beq_iff_eq]
  tauto

lemma IsGap.concat {g : List Char} (hg : IsGap g) {c : Char} (hc : isGap c = true) :
    IsGap (g ++ [c]) := by
  intro d hd
  rcases List.mem_append.1 hd with hd | hd
  · exact hg d hd
  · exact isGap_iff.1 hc d hd

lemma IsGap.nil : IsGap [] := fun _ h => nomatch h

/-- The reader knows the escapes of one letter. -/
lemma escapeLetters_lookup_eq_some_iff {letter c : Char} :
    escapeLetters.lookup letter = some c ↔ ShortEscape letter c := by
  constructor
  · intro h
    obtain ⟨front, back, hall, -⟩ := List.lookup_eq_some_iff.1 h
    have hmem : (letter, c) ∈ escapeLetters := by
      rw [hall]
      simp
    simp only [escapeLetters, List.mem_cons, Prod.mk.injEq, List.not_mem_nil, or_false] at hmem
    rcases hmem with ⟨rfl, rfl⟩ | ⟨rfl, rfl⟩ | ⟨rfl, rfl⟩ | ⟨rfl, rfl⟩ | ⟨rfl, rfl⟩ | ⟨rfl, rfl⟩ |
      ⟨rfl, rfl⟩ | ⟨rfl, rfl⟩ <;> constructor
  · intro h
    cases h <;> rfl

/-! ### Parts of strings -/

/-- A digit in base sixteen is below sixteen. -/
lemma hexValue?_lt {c : Char} {d : ℕ} (h : hexValue? c = some d) : d < 16 := by
  have hle (a b : Char) : a ≤ b ↔ a.toNat ≤ b.toNat := UInt32.le_iff_toNat_le
  simp only [hexValue?, hle] at h
  split_ifs at h
  all_goals
    obtain rfl := Option.some.inj h
    simp at *
    omega

lemma AreHexDigits.lt {ds : List Char} {n : ℕ} (h : AreHexDigits ds n) : n < 16 ^ ds.length := by
  induction h with
  | nil => simp
  | @concat ds n c d h digit ih =>
      have hd := hexValue?_lt digit
      rw [List.length_append, List.length_singleton, pow_succ]
      omega

lemma AreParts.unit_lt {cs : List Char} {ps : List Piece} (h : AreParts cs ps) {n : ℕ}
    (hn : .unit n ∈ ps) : n < 0x10000 := by
  induction h with
  | nil => cases hn
  | concat h last ih =>
      rcases List.mem_append.1 hn with hn | hn
      · exact ih hn
      · cases last with
        | char quote backslash control => simp at hn
        | short h => simp at hn
        | @unit ds m digits four =>
            obtain rfl : n = m := by simpa using hn
            have hlt := digits.lt
            rw [four] at hlt
            exact hlt

/-- A number that a character may have is that of its character. -/
lemma toNat_charOfNat {n : ℕ} (h : n.isValidChar) : (Char.ofNat n).toNat = n := by
  rw [Char.ofNat, dif_pos h]
  rfl

/-- A unit that is no surrogate is the number of a character. -/
lemma StandFor.unit_ofNat {ps : List Piece} {cs : List Char} (h : StandFor ps cs) {n : ℕ}
    (hlt : n < 0x10000) (hhigh : isHigh n = false) (hlow : isLow n = false) :
    StandFor (.unit n :: ps) (Char.ofNat n :: cs) := by
  have hvalid : n.isValidChar := by
    simp only [isHigh, isLow, Bool.and_eq_false_iff, decide_eq_false_iff_not] at hhigh hlow
    simp only [Nat.isValidChar]
    omega
  have hunit := h.unit (Char.ofNat n)
  rwa [toNat_charOfNat hvalid] at hunit

/-- Two surrogates make up a character. -/
lemma toNat_pairChar {high low : ℕ} (hhigh : isHigh high = true) (hlow : isLow low = true) :
    (pairChar high low).toNat = 0x10000 + (high - 0xd800) * 0x400 + (low - 0xdc00) := by
  simp only [isHigh, isLow, Bool.and_eq_true, decide_eq_true_eq] at hhigh hlow
  refine toNat_charOfNat ?_
  simp only [Nat.isValidChar]
  omega

/-- Characters that are joined from parts are those that the parts stand for. -/
lemma standFor_of_joinPieces? {ps : List Piece} {cs : List Char}
    (hlt : ∀ n, .unit n ∈ ps → n < 0x10000) (h : joinPieces? ps = some cs) : StandFor ps cs := by
  fun_induction joinPieces? ps generalizing cs with
  | case1 =>
      obtain rfl := Option.some.inj h
      exact .nil
  | case2 c ps ih =>
      obtain ⟨cs', hcs, rfl⟩ := Option.map_eq_some_iff.1 h
      exact .char c (ih (fun n hn => hlt n (List.mem_cons_of_mem _ hn)) hcs)
  | case3 high low ps hhigh hlow ih =>
      obtain ⟨cs', hcs, rfl⟩ := Option.map_eq_some_iff.1 h
      refine .pair ?_ ?_ (toNat_pairChar hhigh hlow) (ih (fun n hn => hlt n (by simp [hn])) hcs)
      · simpa [isHigh] using hhigh
      · simpa [isLow] using hlow
  | case4 high low ps hhigh hlow => cases h
  | case5 high low ps hhigh hhigh' => cases h
  | case6 high low ps hhigh hhigh' ih =>
      obtain ⟨cs', hcs, rfl⟩ := Option.map_eq_some_iff.1 h
      exact (ih (fun n hn => hlt n (List.mem_cons_of_mem _ hn)) hcs).unit_ofNat
        (hlt high List.mem_cons_self) (by simpa using hhigh) (by simpa using hhigh')
  | case7 n ps hne hsurrogate => cases h
  | case8 n ps hne hsurrogate ih =>
      obtain ⟨cs', hcs, rfl⟩ := Option.map_eq_some_iff.1 h
      simp only [Bool.or_eq_true, not_or, Bool.not_eq_true] at hsurrogate
      exact (ih (fun n hn => hlt n (List.mem_cons_of_mem _ hn)) hcs).unit_ofNat
        (hlt n List.mem_cons_self) hsurrogate.1 hsurrogate.2

/-- Parts that stand for characters are joined to them. -/
lemma StandFor.joinPieces?_eq {ps : List Piece} {cs : List Char} (h : StandFor ps cs) :
    joinPieces? ps = some cs := by
  induction h with
  | nil => rfl
  | char c h ih => rw [joinPieces?, ih, Option.map_some]
  | unit c h ih =>
      have hvalid : c.toNat.isValidChar := c.valid
      rw [joinPieces?_unit, ih, Char.ofNat_toNat, Option.map_some]
      · simp only [isHigh, Bool.and_eq_false_iff, decide_eq_false_iff_not]
        simp only [Nat.isValidChar] at hvalid
        omega
      · simp only [isLow, Bool.and_eq_false_iff, decide_eq_false_iff_not]
        simp only [Nat.isValidChar] at hvalid
        omega
  | @pair ps cs high low c hhigh hlow number h ih =>
      have hhigh : isHigh high = true := by simpa [isHigh] using hhigh
      have hlow : isLow low = true := by simpa [isLow] using hlow
      rw [joinPieces?, if_pos hhigh, if_pos hlow, ih, Option.map_some,
        Char.toNat_inj.1 ((toNat_pairChar hhigh hlow).trans number.symm)]

/-! ### What has been read -/

lemma IsItems.blank {cs : List Char} {texts : List String} (h : IsItems cs texts) {c : Char}
    (hc : isGap c = true) : IsItems (cs ++ [c]) texts := by
  have hitem {cs : List Char} {text : String} (h : IsItem cs text) : IsItem (cs ++ [c]) text := by
    obtain ⟨g, s, g', rfl, hg, hs, hg'⟩ := h
    exact ⟨g, s, g' ++ [c], by simp, hg, hs, hg'.concat hc⟩
  cases h with
  | single h => exact .single (hitem h)
  | concat h last =>
      rw [List.append_assoc, List.cons_append]
      exact h.concat (hitem last)

/-- The characters behind the bracket that opens an array. -/
def Opens (cs inner : List Char) : Prop := ∃ g, cs = g ++ '[' :: inner ∧ IsGap g

lemma Opens.append {cs inner : List Char} (h : Opens cs inner) (ds : List Char) :
    Opens (cs ++ ds) (inner ++ ds) := by
  obtain ⟨g, rfl, hg⟩ := h
  exact ⟨g, by simp, hg⟩

/-- An item may begin behind the bracket, or behind items and a comma. -/
def AwaitsItem (items : List String) (inner : List Char) : Prop :=
  items = [] ∧ IsGap inner ∨
    ∃ before g, inner = before ++ ',' :: g ∧ IsItems before items.reverse ∧ IsGap g

lemma AwaitsItem.string {items : List String} {inner : List Char} (h : AwaitsItem items inner)
    {s : List Char} {text : String} (hs : IsString s text) :
    IsItems (inner ++ s) (text :: items).reverse := by
  rcases h with ⟨rfl, hgap⟩ | ⟨before, g, rfl, hbefore, hgap⟩
  · exact .single ⟨inner, s, [], by simp, hgap, hs, .nil⟩
  · rw [List.reverse_cons, List.append_assoc, List.cons_append]
    exact hbefore.concat ⟨g, s, [], by simp, hgap, hs, .nil⟩

/-- Within a string: the parts behind its quote, and characters that are no part yet. -/
def InString (items : List String) (ps : List Piece) (unfinished cs : List Char) : Prop :=
  ∃ inner body, Opens cs (inner ++ '"' :: (body ++ unfinished)) ∧ AwaitsItem items inner ∧
    AreParts body ps.reverse

namespace InString

variable {items : List String} {ps : List Piece} {unfinished cs : List Char}

lemma concat (h : InString items ps unfinished cs) (c : Char) :
    InString items ps (unfinished ++ [c]) (cs ++ [c]) := by
  obtain ⟨inner, body, hopens, hawaits, hparts⟩ := h
  exact ⟨inner, body, by simpa using hopens.append [c], hawaits, hparts⟩

/-- Characters that are a part finish it. -/
lemma part (h : InString items ps unfinished cs) {p : Piece} (hp : IsPart unfinished p) :
    InString items (p :: ps) [] cs := by
  obtain ⟨inner, body, hopens, hawaits, hparts⟩ := h
  refine ⟨inner, body ++ unfinished, by simpa using hopens, hawaits, ?_⟩
  rw [List.reverse_cons]
  exact hparts.concat hp

/-- A quote ends the string, if its parts stand for characters. -/
lemma close (h : InString items ps [] cs) {ds : List Char}
    (hds : joinPieces? ps.reverse = some ds) :
    ∃ inner, Opens (cs ++ ['"']) inner ∧ IsItems inner (.ofList ds :: items).reverse := by
  obtain ⟨inner, body, hopens, hawaits, hparts⟩ := h
  have hstand := standFor_of_joinPieces? (fun n hn => hparts.unit_lt hn) hds
  have hstring : IsString ('"' :: (body ++ ['"'])) (.ofList ds) :=
    ⟨body, _, rfl, hparts, by rwa [String.toList_ofList]⟩
  exact ⟨_, by simpa using hopens.append ['"'], hawaits.string hstring⟩

end InString

/-- What has been read at a stage. -/
def HasRead (cs : List Char) : Stage → Prop
  | .start => IsGap cs
  | .opened => ∃ inner, Opens cs inner ∧ IsGap inner
  | .afterItem items => ∃ inner, Opens cs inner ∧ IsItems inner items.reverse
  | .afterComma items =>
    ∃ inner g, Opens cs (inner ++ ',' :: g) ∧ IsItems inner items.reverse ∧ IsGap g
  | .inString items ps => InString items ps [] cs
  | .inEscape items ps => InString items ps ['\\'] cs
  | .inNumber items ps value digits =>
    ∃ ds, InString items ps ('\\' :: 'u' :: ds) cs ∧ AreHexDigits ds value ∧
      ds.length = digits ∧ digits < 4
  | .closed items => IsArray cs items.reverse

/-- An array has the form of the last stage. -/
lemma IsArray.hasRead {cs : List Char} {texts : List String} (h : IsArray cs texts) :
    HasRead cs (.closed texts.reverse) := by
  rwa [← List.reverse_reverse texts] at h

/-- A quote opens a string where an item may begin. -/
lemma HasRead.quote {cs inner : List Char} {items : List String} (hopens : Opens cs inner)
    (hawaits : AwaitsItem items inner) : HasRead (cs ++ ['"']) (.inString items []) :=
  ⟨inner, [], by simpa using hopens.append ['"'], hawaits, .nil⟩

/-- A closing bracket ends the array behind nothing or behind items. -/
lemma HasRead.bracket {cs inner : List Char} {items : List String} (hopens : Opens cs inner)
    (hinner : IsGap inner ∧ items.reverse = [] ∨ IsItems inner items.reverse) :
    HasRead (cs ++ [']']) (.closed items) := by
  obtain ⟨g, rfl, hg⟩ := hopens
  exact ⟨g, inner, [], by simp, hg, .nil, hinner⟩

/-- What has been read has the form of the next stage after the next character. -/
lemma HasRead.step {s s' : Stage} {cs : List Char} {c : Char} (h : HasRead cs s)
    (hs : advance s c = some s') : HasRead (cs ++ [c]) s' := by
  cases s with
  | start =>
      simp only [advance] at hs
      split_ifs at hs with hbracket hgap <;> obtain rfl := Option.some.inj hs
      · subst hbracket
        exact ⟨[], ⟨cs, rfl, h⟩, .nil⟩
      · exact IsGap.concat h hgap
  | opened =>
      obtain ⟨inner, hopens, hinner⟩ := h
      simp only [advance] at hs
      split_ifs at hs with hquote hbracket hgap <;> obtain rfl := Option.some.inj hs
      · subst hquote
        exact .quote hopens (Or.inl ⟨rfl, hinner⟩)
      · subst hbracket
        exact .bracket hopens (Or.inl ⟨hinner, rfl⟩)
      · exact ⟨_, hopens.append [c], hinner.concat hgap⟩
  | afterItem items =>
      obtain ⟨inner, hopens, hinner⟩ := h
      simp only [advance] at hs
      split_ifs at hs with hcomma hbracket hgap <;> obtain rfl := Option.some.inj hs
      · subst hcomma
        exact ⟨inner, [], hopens.append [','], hinner, .nil⟩
      · subst hbracket
        exact .bracket hopens (Or.inr hinner)
      · exact ⟨_, hopens.append [c], hinner.blank hgap⟩
  | afterComma items =>
      obtain ⟨inner, g, hopens, hinner, hg⟩ := h
      simp only [advance] at hs
      split_ifs at hs with hquote hgap <;> obtain rfl := Option.some.inj hs
      · subst hquote
        exact .quote hopens (Or.inr ⟨inner, g, rfl, hinner, hg⟩)
      · exact ⟨inner, g ++ [c], by simpa using hopens.append [c], hinner, hg.concat hgap⟩
  | inString items ps =>
      simp only [advance] at hs
      split_ifs at hs with hquote hbackslash hcontrol
      · subst hquote
        obtain ⟨ds, hds, rfl⟩ := Option.map_eq_some_iff.1 hs
        exact InString.close h hds
      · subst hbackslash
        obtain rfl := Option.some.inj hs
        exact InString.concat h '\\'
      · obtain rfl := Option.some.inj hs
        exact (InString.concat h c).part (.char hquote hbackslash (not_lt.1 hcontrol))
  | inEscape items ps =>
      simp only [advance] at hs
      split_ifs at hs with hu
      · subst hu
        obtain rfl := Option.some.inj hs
        exact ⟨[], InString.concat h 'u', .nil, rfl, by omega⟩
      · obtain ⟨d, hd, rfl⟩ := Option.map_eq_some_iff.1 hs
        exact (InString.concat h c).part (.short (escapeLetters_lookup_eq_some_iff.1 hd))
  | inNumber items ps value digits =>
      obtain ⟨ds, hstring, hds, hlength, hlt⟩ := h
      obtain ⟨d, hd, hs⟩ := Option.map_eq_some_iff.1 hs
      have hconcat := hds.concat hd
      split_ifs at hs with hlast <;> subst hs
      · exact (hstring.concat c).part (.unit hconcat (by simp [hlength, hlast]))
      · exact ⟨ds ++ [c], hstring.concat c, hconcat, by simp [hlength], by omega⟩
  | closed items =>
      obtain ⟨g, inner, g', rfl, hg, hg', hinner⟩ := h
      simp only [advance] at hs
      split_ifs at hs with hgap
      obtain rfl := Option.some.inj hs
      exact ⟨g, inner, g' ++ [c], by simp, hg, hg'.concat hgap, hinner⟩

lemma hasRead_of_foldlM {cs : List Char} {s : Stage} (h : cs.foldlM advance .start = some s) :
    HasRead cs s := by
  induction cs using List.reverseRecOn generalizing s with
  | nil =>
      obtain rfl := Option.some.inj h
      exact IsGap.nil
  | append_singleton cs c ih =>
      rw [List.foldlM_append] at h
      obtain ⟨s₁, hs₁, hs⟩ := Option.bind_eq_some_iff.1 h
      exact (ih hs₁).step (by simpa using hs)

/-! ### Reading arrays -/

/-- The stages at which the reader is not within a string. -/
def Stage.TakesBlanks : Stage → Prop
  | .inString _ _ => False
  | .inEscape _ _ => False
  | .inNumber _ _ _ _ => False
  | _ => True

lemma foldlM_gap (s : Stage) (hs : s.TakesBlanks) {g : List Char} (hg : IsGap g) :
    g.foldlM advance s = some s := by
  have hstep : ∀ c ∈ g, advance s c = some s := by
    intro c hc
    rcases hg c hc with rfl | rfl | rfl | rfl <;> cases s <;> first | rfl | exact hs.elim
  clear hg
  induction g with
  | nil => rfl
  | cons c g ih =>
      rw [List.foldlM_cons, hstep c List.mem_cons_self]
      exact ih fun d hd => hstep d (List.mem_cons_of_mem c hd)

/-- Over digits that are not all of a unit yet. -/
lemma AreHexDigits.foldlM {ds : List Char} {n : ℕ} (h : AreHexDigits ds n) (hlt : ds.length < 4)
    (items : List String) (ps : List Piece) :
    ds.foldlM advance (.inNumber items ps 0 0) = some (.inNumber items ps n ds.length) := by
  induction h with
  | nil => rfl
  | @concat ds n c d h digit ih =>
      rw [List.length_append, List.length_singleton] at hlt
      have hnot : ds.length ≠ 3 := by omega
      rw [List.foldlM_append, ih (by omega)]
      simp [advance, digit, hnot]

lemma IsPart.foldlM {cs : List Char} {p : Piece} (h : IsPart cs p) (items : List String)
    (ps : List Piece) :
    cs.foldlM advance (.inString items ps) = some (.inString items (p :: ps)) := by
  cases h with
  | @char c quote backslash control => simp [advance, quote, backslash, control]
  | @short letter c h =>
      have hu : letter ≠ 'u' := by rintro rfl; cases h
      simp [advance, hu, escapeLetters_lookup_eq_some_iff.2 h]
  | @unit ds n digits four =>
      cases digits with
      | nil => cases four
      | @concat ds n c d h digit =>
          have hthree : ds.length = 3 := by simpa using four
          have hnumber := h.foldlM (by omega) items ps
          simp [advance, List.foldlM_append, hnumber, digit, hthree]

lemma AreParts.foldlM {cs : List Char} {qs : List Piece} (h : AreParts cs qs)
    (items : List String) (ps : List Piece) :
    cs.foldlM advance (.inString items ps) = some (.inString items (qs.reverse ++ ps)) := by
  induction h with
  | nil => rfl
  | concat h last ih =>
      rw [List.foldlM_append, ih]
      simp [last.foldlM]

/-- Over a string, where one may begin. -/
lemma IsString.foldlM {s : Stage} {items : List String}
    (hs : advance s '"' = some (.inString items [])) {cs : List Char} {text : String}
    (h : IsString cs text) : cs.foldlM advance s = some (.afterItem (text :: items)) := by
  obtain ⟨body, ps, rfl, hparts, hstand⟩ := h
  rw [List.foldlM_cons, hs]
  simp [List.foldlM_append, hparts.foldlM, advance, hstand.joinPieces?_eq]

/-- Over a string with blanks around it. -/
lemma IsItem.foldlM (s : Stage) {items : List String} (hblanks : s.TakesBlanks)
    (hs : advance s '"' = some (.inString items [])) {cs : List Char} {text : String}
    (h : IsItem cs text) : cs.foldlM advance s = some (.afterItem (text :: items)) := by
  obtain ⟨g, t, g', rfl, hg, hstring, hg'⟩ := h
  have hback : g'.foldlM advance (.afterItem (text :: items)) = some (.afterItem (text :: items)) :=
    foldlM_gap (.afterItem _) trivial hg'
  rw [List.append_assoc, List.foldlM_append, foldlM_gap s hblanks hg]
  simp [List.foldlM_append, hstring.foldlM hs, hback]

/-- Over strings with commas between them. -/
lemma IsItems.foldlM {cs : List Char} {texts : List String} (h : IsItems cs texts) :
    cs.foldlM advance .opened = some (.afterItem texts.reverse) := by
  induction h with
  | single h => exact h.foldlM .opened trivial rfl
  | @concat cs texts ds text h last ih =>
      have hlast : ds.foldlM advance (.afterComma texts.reverse)
          = some (.afterItem (text :: texts.reverse)) :=
        last.foldlM (.afterComma _) trivial rfl
      rw [List.foldlM_append, ih]
      simp [advance, hlast]

/-- Over the bracket that opens an array. -/
lemma Opens.foldlM {cs inner : List Char} (h : Opens cs inner) :
    cs.foldlM advance .start = inner.foldlM advance .opened := by
  obtain ⟨g, rfl, hg⟩ := h
  rw [List.foldlM_append, foldlM_gap .start trivial hg]
  rfl

/-- Over the strings before the one that is begun, and its parts. -/
lemma InString.foldlM {items : List String} {ps : List Piece} {unfinished cs : List Char}
    (h : InString items ps unfinished cs) :
    cs.foldlM advance .start = unfinished.foldlM advance (.inString items ps) := by
  obtain ⟨inner, body, hopens, hawaits, hparts⟩ := h
  have hbegun : (inner ++ ['"']).foldlM advance .opened = some (.inString items []) := by
    rcases hawaits with ⟨rfl, hgap⟩ | ⟨before, g, rfl, hbefore, hgap⟩
    · rw [List.foldlM_append, foldlM_gap .opened trivial hgap]
      rfl
    · have hfront : (before ++ [',']).foldlM advance .opened = some (.afterComma items) := by
        rw [List.foldlM_append, hbefore.foldlM, List.reverse_reverse]
        rfl
      have hgap' : g.foldlM advance (.afterComma items) = some (.afterComma items) :=
        foldlM_gap (.afterComma items) trivial hgap
      rw [List.append_cons before ',' g, List.foldlM_append, List.foldlM_append, hfront,
        Option.bind_eq_bind, Option.bind_some, hgap']
      rfl
  rw [hopens.foldlM, List.append_cons inner '"' (body ++ unfinished), List.foldlM_append, hbegun]
  simp [List.foldlM_append, hparts.foldlM]

/-- Over what has the form of a stage the reader comes to the stage. -/
lemma HasRead.foldlM {s : Stage} {cs : List Char} (h : HasRead cs s) :
    cs.foldlM advance .start = some s := by
  cases s with
  | start => exact foldlM_gap .start trivial h
  | opened =>
      obtain ⟨inner, hopens, hinner⟩ := h
      rw [hopens.foldlM, foldlM_gap .opened trivial hinner]
  | afterItem items =>
      obtain ⟨inner, hopens, hinner⟩ := h
      rw [hopens.foldlM, hinner.foldlM, List.reverse_reverse]
  | afterComma items =>
      obtain ⟨inner, g, hopens, hinner, hg⟩ := h
      rw [hopens.foldlM, List.foldlM_append, hinner.foldlM, List.reverse_reverse]
      exact foldlM_gap (.afterComma items) trivial hg
  | inString items ps => exact InString.foldlM h
  | inEscape items ps => exact InString.foldlM h
  | inNumber items ps value digits =>
      obtain ⟨ds, hstring, hds, rfl, hlt⟩ := h
      rw [hstring.foldlM]
      exact hds.foldlM hlt items ps
  | closed items =>
      obtain ⟨g, inner, g', rfl, hg, hg', hinner⟩ := h
      have hopens : Opens (g ++ '[' :: (inner ++ ']' :: g')) (inner ++ ']' :: g') := ⟨g, rfl, hg⟩
      have hend : (inner ++ [']']).foldlM advance .opened = some (.closed items) := by
        rw [List.foldlM_append]
        rcases hinner with ⟨hinner, hitems⟩ | hinner
        · obtain rfl := List.reverse_eq_nil_iff.1 hitems
          rw [foldlM_gap .opened trivial hinner]
          rfl
        · rw [hinner.foldlM, List.reverse_reverse]
          rfl
      rw [hopens.foldlM, List.append_cons inner ']' g', List.foldlM_append, hend]
      exact foldlM_gap (.closed items) trivial hg'

/-- **The texts that are read as strings are the arrays of these strings.** -/
theorem decode?_eq_some_iff {text : String} {texts : List String} :
    decode? text = some texts ↔ IsArray text.toList texts := by
  rw [decode?, Option.bind_eq_some_iff]
  constructor
  · rintro ⟨s, hs, hfinish⟩
    have hread := hasRead_of_foldlM hs
    cases s with
    | closed items =>
        obtain rfl := Option.some.inj hfinish
        exact hread
    | _ => cases hfinish
  · intro h
    exact ⟨_, h.hasRead.foldlM, by rw [finish?, List.reverse_reverse]⟩

/-! ### Texts that are no arrays -/

/-- A text that goes wrong at a character, whatever stands behind it. -/
inductive GoesWrong : List Char → Prop
  /-- Where a string has to begin there is something else. -/
  | item {cs inner : List Char} {items : List String} {c : Char} (opens : Opens cs inner)
      (awaits : AwaitsItem items inner) (quote : c ≠ '"') (blank : ¬ IsGap [c])
      (bracket : c = ']' → items ≠ []) (rest : List Char) : GoesWrong (cs ++ c :: rest)
  /-- No escape begins with the letter. -/
  | letter {cs : List Char} {items : List String} {ps : List Piece} {c : Char}
      (string : InString items ps ['\\'] cs) (unit : c ≠ 'u') (short : ∀ d, ¬ ShortEscape c d)
      (rest : List Char) : GoesWrong (cs ++ c :: rest)
  /-- The number of a unit has fewer than four digits. -/
  | digit {cs ds : List Char} {items : List String} {ps : List Piece} {n : ℕ} {c : Char}
      (string : InString items ps ('\\' :: 'u' :: ds) cs) (digits : AreHexDigits ds n)
      (few : ds.length < 4) (none : hexValue? c = none) (rest : List Char) :
      GoesWrong (cs ++ c :: rest)
  /-- The string that ends has a surrogate that is not one of a pair. -/
  | surrogate {cs : List Char} {items : List String} {ps : List Piece}
      (string : InString items ps [] cs) (alone : ∀ ds, ¬ StandFor ps.reverse ds)
      (rest : List Char) : GoesWrong (cs ++ '"' :: rest)
  /-- There is something behind the array. -/
  | tail {cs : List Char} {texts : List String} {c : Char} (array : IsArray cs texts)
      (blank : ¬ IsGap [c]) (rest : List Char) : GoesWrong (cs ++ c :: rest)

/-- Where the reader cannot go on there is no array. -/
lemma not_isArray_of_advance {s : Stage} {cs : List Char} {c : Char} (h : HasRead cs s)
    (hc : advance s c = none) (rest : List Char) (texts : List String) :
    ¬ IsArray (cs ++ c :: rest) texts := by
  intro harray
  have hfold := harray.hasRead.foldlM
  rw [List.foldlM_append, h.foldlM, Option.bind_eq_bind, Option.bind_some, List.foldlM_cons, hc]
    at hfold
  cases hfold

/-- **A text that goes wrong at a character is no array.** -/
theorem GoesWrong.not_isArray {cs : List Char} (h : GoesWrong cs) (texts : List String) :
    ¬ IsArray cs texts := by
  cases h with
  | @item cs inner items c opens awaits quote blank bracket rest =>
      have hgap : isGap c = false := Bool.eq_false_iff.2 (mt isGap_iff.1 blank)
      rcases awaits with ⟨rfl, hinner⟩ | ⟨before, g, rfl, hbefore, hg⟩
      · have hbracket : c ≠ ']' := fun hc => bracket hc rfl
        exact not_isArray_of_advance (s := .opened) ⟨inner, opens, hinner⟩
          (by simp [advance, quote, hbracket, hgap]) rest texts
      · exact not_isArray_of_advance (s := .afterComma items) ⟨before, g, opens, hbefore, hg⟩
          (by simp [advance, quote, hgap]) rest texts
  | @letter cs items ps c string unit short rest =>
      have hnone : escapeLetters.lookup c = none :=
        Option.eq_none_iff_forall_ne_some.2 fun d hd =>
          short d (escapeLetters_lookup_eq_some_iff.1 hd)
      exact not_isArray_of_advance (s := .inEscape items ps) string
        (by simp [advance, unit, hnone]) rest texts
  | @digit cs ds items ps n c string digits few none rest =>
      exact not_isArray_of_advance (s := .inNumber items ps n ds.length)
        ⟨ds, string, digits, rfl, few⟩ (by simp [advance, none]) rest texts
  | @surrogate cs items ps string alone rest =>
      have hnone : joinPieces? ps.reverse = none := by
        obtain ⟨inner, body, -, -, hparts⟩ := string
        exact Option.eq_none_iff_forall_ne_some.2 fun ds hds =>
          alone ds (standFor_of_joinPieces? (fun n hn => hparts.unit_lt hn) hds)
      exact not_isArray_of_advance (s := .inString items ps) string
        (by simp [advance, hnone]) rest texts
  | @tail cs texts' c array blank rest =>
      have hgap : isGap c = false := Bool.eq_false_iff.2 (mt isGap_iff.1 blank)
      exact not_isArray_of_advance array.hasRead (by simp [advance, hgap]) rest texts

end StringArray

end DeskCalculator
