import DeskCalculator.Binary64.Power

/-!
IEEE 754 double precision numbers.

A finite double is a whole number of *quanta* of size `2^-1074`, with a sign
beside it so that the two zeros stay apart. The spacing of the doubles near `n`
quanta is `grain n`, a power of two that leaves at most 53 significant bits, and
a count of quanta is the magnitude of a double when it is a multiple of its own
grain and below `bound` (`Representable`).

* `Binary64.ofBits`, `Binary64.toBits`: the interchange word. For a finite double
  of `m · 2^k` quanta with `2^52 ≤ m < 2^53` the word is `k · 2^52 + m`, and below
  `2^53` quanta it is the count itself.
* `Binary64.signed`: the value in quanta, with its sign.
-/

namespace DeskCalculator

/-! ### Counts of quanta -/

/-- A quantum is `2 ^ -quantumScale`. -/
def quantumScale : Nat := 1074

/-- Quanta in one unit. -/
def quantaPerUnit : Nat := twoPow quantumScale

/-- The binary exponent, in quanta, at which the doubles end. -/
def boundScale : Nat := 2098

/-- The least count of quanta beyond every double. -/
def bound : Nat := twoPow boundScale

/-- The spacing of the doubles near `n` quanta. -/
def grain (n : Nat) : Nat := twoPow (n.log2 - 52)

/-- A count of quanta is the magnitude of a finite double when it is in range and has
at most 53 significant bits. -/
def Representable (n : Nat) : Prop := n < bound ∧ grain n ∣ n

instance (n : Nat) : Decidable (Representable n) :=
  inferInstanceAs (Decidable (_ ∧ _))

theorem bound_pos : 0 < bound := twoPow_pos boundScale

theorem grain_pos (n : Nat) : 0 < grain n := twoPow_pos _

/-- Below `2^(53+k)` quanta a multiple of `2^k` has at most 53 significant bits. -/
theorem grain_dvd_of_lt {n k : Nat} (hlt : n < twoPow (53 + k)) (hdvd : twoPow k ∣ n) :
    grain n ∣ n := by
  by_cases h0 : n = 0
  · subst h0
    exact Nat.dvd_zero _
  · have := (lt_twoPow_iff h0).1 hlt
    exact Nat.dvd_trans (twoPow_dvd (by omega)) hdvd

theorem representable_zero : Representable 0 := ⟨bound_pos, Nat.dvd_zero _⟩

/-! ### Doubles -/

/-- A double: a signed count of quanta, an infinity, or not a number. -/
inductive Binary64 where
  | finite (negative : Bool) (quanta : Nat) (representable : Representable quanta)
  | infinite (negative : Bool)
  | nan
deriving DecidableEq

namespace Binary64

/-- Zero, of either sign. -/
def zero (negative : Bool) : Binary64 := finite negative 0 representable_zero

instance : Inhabited Binary64 := ⟨zero false⟩

/-- Neither an infinity nor a NaN. -/
def isFinite : Binary64 → Bool
  | finite .. => true
  | _ => false

/-- Equal to zero; the sign of a zero does not matter. -/
def isZero : Binary64 → Bool
  | finite _ n _ => n == 0
  | _ => false

/-- Less than zero; neither zero is. -/
def isBelowZero : Binary64 → Bool
  | finite s n _ => s && n != 0
  | infinite s => s
  | nan => false

/-- The same number with the other sign. -/
def neg : Binary64 → Binary64
  | finite s n h => finite (!s) n h
  | infinite s => infinite (!s)
  | nan => nan

instance : Neg Binary64 := ⟨neg⟩

/-- A magnitude in quanta with its sign. -/
def signedQuanta (negative : Bool) (quanta : Nat) : Int :=
  if negative then -quanta else quanta

/-! ### The interchange word -/

/-- The magnitudes with one exponent. -/
def binadeSize : Nat := twoPow 52

/-- The word of a magnitude: the index of its double among the non-negative ones. -/
def magnitudeBits (n : Nat) : Nat :=
  (n.log2 - 52) * binadeSize + n / grain n

/-- The magnitude with a given word, as a count of quanta. -/
def quantaOfBits (word : Nat) : Nat :=
  if word < binadeSize then word
  else (binadeSize + word % binadeSize) * twoPow (word / binadeSize - 1)

/-- The word of an infinity without its sign bit. -/
def infiniteBits : Nat := 0x7ff0000000000000

/-- The word of a NaN. -/
def nanBits : Nat := 0x7ff8000000000000

/-- The sign bit. -/
def signBit (negative : Bool) : Nat := if negative then twoPow 63 else 0

/-- The 64 bits of a double; every NaN has the word `nanBits`. -/
def toBits : Binary64 → UInt64
  | finite s n _ => .ofNat (signBit s + magnitudeBits n)
  | infinite s => .ofNat (signBit s + infiniteBits)
  | nan => .ofNat nanBits

theorem grain_quantaOfBits_dvd (word : Nat) : grain (quantaOfBits word) ∣ quantaOfBits word := by
  unfold quantaOfBits
  split
  case isTrue h =>
    exact grain_dvd_of_lt (k := 0) (Nat.lt_trans h (twoPow_lt (by decide))) (Nat.one_dvd _)
  case isFalse h =>
    have hm : word % binadeSize < binadeSize := Nat.mod_lt _ (twoPow_pos 52)
    refine grain_dvd_of_lt (k := word / binadeSize - 1) ?_ (Nat.dvd_mul_left _ _)
    rw [twoPow_add]
    refine Nat.mul_lt_mul_of_pos_right ?_ (twoPow_pos _)
    have h53 : twoPow 53 = binadeSize + binadeSize := rfl
    omega

/-- A word below that of infinity decodes to a magnitude in range. -/
theorem quantaOfBits_lt {word : Nat} (h : word < infiniteBits) : quantaOfBits word < bound := by
  have h52 : binadeSize = 4503599627370496 := rfl
  have hk : word / binadeSize ≤ 2046 := by
    rw [h52]
    unfold infiniteBits at h
    omega
  have hm : word % binadeSize < binadeSize := Nat.mod_lt _ (twoPow_pos 52)
  unfold quantaOfBits
  split
  case isTrue h' => exact Nat.lt_trans h' (twoPow_lt (by decide))
  case isFalse h' =>
    have h53 : twoPow 53 = binadeSize + binadeSize := rfl
    have h1 : (binadeSize + word % binadeSize) * twoPow (word / binadeSize - 1)
        < twoPow 53 * twoPow (word / binadeSize - 1) :=
      Nat.mul_lt_mul_of_pos_right (by omega) (twoPow_pos _)
    rw [← twoPow_add] at h1
    refine Nat.lt_of_lt_of_le h1 (twoPow_le ?_)
    rw [boundScale]
    omega

/-- The double with the given 64 bits. -/
def ofBits (word : UInt64) : Binary64 :=
  let negative := decide (twoPow 63 ≤ word.toNat)
  let rest := word.toNat % twoPow 63
  if h : rest < infiniteBits then
    finite negative (quantaOfBits rest) ⟨quantaOfBits_lt h, grain_quantaOfBits_dvd rest⟩
  else if rest = infiniteBits then infinite negative
  else nan

end Binary64

end DeskCalculator
