import DeskCalculator.Binary64.Rounding

/-!
Arithmetic of doubles: the exact result, rounded once.

Counts of quanta are added as integers; a product is divided by, and a quotient
multiplied by, the quanta in a unit. A square root is taken of a whole number of
quanta times `quantaPerUnit`; what lies strictly between two whole numbers rounds
as the half between them does, since every boundary between doubles is whole there.

* `Binary64.add`, `sub`, `mul`, `div`, `sqrt`, with the rules for infinities, NaN
  and signed zeros.
* `floorSqrt`, `floorSqrt_bounds`: the whole part of a square root.
-/

namespace DeskCalculator

/-! ### The whole part of a square root -/

/-- The greatest whole number whose square is at most `n`: that of `n / 4` doubled, plus
one if there is room. -/
def floorSqrt (n : Nat) : Nat :=
  if n = 0 then 0
  else
    let r := 2 * floorSqrt (n / 4)
    if (r + 1) * (r + 1) ≤ n then r + 1 else r
termination_by n
decreasing_by omega

/-- The two bounds that say which number `floorSqrt` is. -/
theorem floorSqrt_bounds (n : Nat) :
    floorSqrt n * floorSqrt n ≤ n ∧ n < (floorSqrt n + 1) * (floorSqrt n + 1) := by
  induction n using Nat.strongRecOn with
  | _ n ih =>
    by_cases hn : n = 0
    · subst hn
      simp [floorSqrt]
    · obtain ⟨h1, h2⟩ := ih (n / 4) (by omega)
      rw [floorSqrt, if_neg hn]
      generalize floorSqrt (n / 4) = s at *
      have h3 : 4 * (s * s) ≤ n := by omega
      have h4 : n < 4 * ((s + 1) * (s + 1)) := by omega
      simp only []
      split <;> grind

/-! ### The operations -/

namespace Binary64

/-- A sum; opposite infinities have none, and a sum of zero is negative only when both
terms are. -/
def add : Binary64 → Binary64 → Binary64
  | nan, _ => nan
  | _, nan => nan
  | infinite s, infinite t => if s = t then infinite s else nan
  | infinite s, finite .. => infinite s
  | finite .., infinite t => infinite t
  | finite s m _, finite t n _ =>
    let sum := signedQuanta s m + signedQuanta t n
    if sum = 0 then zero (s && t) else ofQuotient (decide (sum < 0)) sum.natAbs 1

/-- A difference: the sum with the sign of the second term changed. -/
def sub (x y : Binary64) : Binary64 := add x (neg y)

/-- A product; zero times an infinity has none. -/
def mul : Binary64 → Binary64 → Binary64
  | nan, _ => nan
  | _, nan => nan
  | infinite s, infinite t => infinite (s ^^ t)
  | infinite s, finite t n _ => if n = 0 then nan else infinite (s ^^ t)
  | finite s m _, infinite t => if m = 0 then nan else infinite (s ^^ t)
  | finite s m _, finite t n _ => ofQuotient (s ^^ t) (m * n) quantaPerUnit

/-- A quotient; zero by zero and infinity by infinity have none. -/
def div : Binary64 → Binary64 → Binary64
  | nan, _ => nan
  | _, nan => nan
  | infinite _, infinite _ => nan
  | infinite s, finite t _ _ => infinite (s ^^ t)
  | finite s _ _, infinite t => zero (s ^^ t)
  | finite s m _, finite t n _ =>
    if n = 0 then (if m = 0 then nan else infinite (s ^^ t))
    else ofQuotient (s ^^ t) (m * quantaPerUnit) n

/-- Twice the square root of `n`, with an odd number for what lies between two even ones:
it rounds as the root does. -/
def stickySqrt (n : Nat) : Nat :=
  let r := floorSqrt n
  if r * r = n then 2 * r else 2 * r + 1

/-- A square root; each zero is its own, and nothing else below zero has one. -/
def sqrt : Binary64 → Binary64
  | nan => nan
  | infinite s => if s then nan else infinite false
  | finite s n _ =>
    if n = 0 then zero s
    else if s then nan
    else ofQuotient false (stickySqrt (n * quantaPerUnit)) 2

instance : Add Binary64 := ⟨add⟩
instance : Sub Binary64 := ⟨sub⟩
instance : Mul Binary64 := ⟨mul⟩
instance : Div Binary64 := ⟨div⟩

/-- The double nearest the decimal `digits / 10^places`. -/
def ofDecimal (digits places : Nat) : Binary64 :=
  ofQuotient false (digits * quantaPerUnit) (tenPow places)

/-- A whole number as a double. -/
def ofNat (n : Nat) : Binary64 := ofDecimal n 0

end Binary64

end DeskCalculator
