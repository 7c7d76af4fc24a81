/-!
Lists of pairs as finite maps: the first pair with a key counts.

* `Association.erase`, `Association.insert`: without a key, and with another value for it.
* `Association.lookup_erase`, `lookup_insert`: what is found afterwards.
-/

namespace DeskCalculator

namespace Association

variable {κ α : Type} [BEq κ]

/-- The pairs with other keys. -/
def erase (k : κ) (l : List (κ × α)) : List (κ × α) := l.filter fun entry => !(entry.1 == k)

/-- The pairs with other keys, and one with this key. -/
def insert (k : κ) (v : α) (l : List (κ × α)) : List (κ × α) := (k, v) :: erase k l

variable [LawfulBEq κ]

/-- An erased key is not found, and other keys are found as before. -/
theorem lookup_erase (k k' : κ) (l : List (κ × α)) :
    (erase k l).lookup k' = if k' == k then none else l.lookup k' := by
  induction l with
  | nil => simp [erase]
  | cons entry l ih =>
    obtain ⟨j, v⟩ := entry
    rw [erase] at ih ⊢
    by_cases hj : j = k
    · subst hj
      cases hk : k' == j <;> simpa [hk, List.lookup_cons] using ih
    · have hjk : (j == k) = false := beq_eq_false_iff_ne.2 hj
      by_cases hk : k' = j
      · simp [hj, hk]
      · have hkj : (k' == j) = false := beq_eq_false_iff_ne.2 hk
        simpa [hjk, hkj, List.lookup_cons] using ih

/-- An inserted key is found with its value, and other keys are found as before. -/
theorem lookup_insert (k k' : κ) (v : α) (l : List (κ × α)) :
    (insert k v l).lookup k' = if k' == k then some v else l.lookup k' := by
  rw [insert, List.lookup_cons, lookup_erase]
  cases k' == k <;> simp

end Association

end DeskCalculator
