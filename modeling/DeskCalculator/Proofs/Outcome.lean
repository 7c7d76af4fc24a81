import Mathlib.Tactic

/-!
Computations that may fail: what they come to when they are put one after the other.

* `bind_eq_ok_iff`, `bind_eq_error_iff`: the second step of two works on the value of the
  first, if there is one.
* `map_eq_ok_iff`, `map_eq_error_iff`: so does a function, which cannot fail.
* `mapM_eq_ok_iff`: a list of steps succeeds when all of them do, each with its value.
* `exists_ok_of_mem`: then each of them succeeds.
* `mapM_eq_error_iff`: it fails with the error of the first step that fails.
-/

namespace DeskCalculator

variable {ε α β : Type}

lemma bind_eq_ok_iff {x : Except ε α} {f : α → Except ε β} {b : β} :
    (x >>= f) = .ok b ↔ ∃ a, x = .ok a ∧ f a = .ok b := by
  cases x with
  | error e => simp [bind, Except.bind]
  | ok a => simp [bind, Except.bind]

lemma bind_eq_error_iff {x : Except ε α} {f : α → Except ε β} {e : ε} :
    (x >>= f) = .error e ↔ x = .error e ∨ ∃ a, x = .ok a ∧ f a = .error e := by
  cases x with
  | error e => simp [bind, Except.bind]
  | ok a => simp [bind, Except.bind]

lemma map_eq_ok_iff {x : Except ε α} {f : α → β} {b : β} :
    f <$> x = .ok b ↔ ∃ a, x = .ok a ∧ f a = b := by
  cases x with
  | error e => simp [Functor.map, Except.map]
  | ok a => simp [Functor.map, Except.map]

lemma map_eq_error_iff {x : Except ε α} {f : α → β} {e : ε} :
    f <$> x = .error e ↔ x = .error e := by
  cases x with
  | error e => simp [Functor.map, Except.map]
  | ok a => simp [Functor.map, Except.map]

@[simp] lemma error_bind (e : ε) (f : α → Except ε β) :
    ((Except.error e : Except ε α) >>= f) = .error e := rfl

@[simp] lemma ok_bind (a : α) (f : α → Except ε β) :
    ((Except.ok a : Except ε α) >>= f) = f a := rfl

lemma mapM_eq_ok_iff {f : α → Except ε β} {xs : List α} {ys : List β} :
    xs.mapM f = .ok ys ↔ List.Forall₂ (fun x y => f x = .ok y) xs ys := by
  induction xs generalizing ys with
  | nil =>
      rw [List.mapM_nil, List.forall₂_nil_left_iff]
      exact ⟨fun h => (Except.ok.inj h).symm, fun h => h ▸ rfl⟩
  | cons x xs ih =>
      rw [List.mapM_cons, bind_eq_ok_iff, List.forall₂_cons_left_iff]
      constructor
      · rintro ⟨y, hy, h⟩
        obtain ⟨ys', hys, h⟩ := bind_eq_ok_iff.1 h
        exact ⟨y, ys', hy, ih.1 hys, (Except.ok.inj h).symm⟩
      · rintro ⟨y, ys', hy, hys, rfl⟩
        exact ⟨y, hy, bind_eq_ok_iff.2 ⟨ys', ih.2 hys, rfl⟩⟩

/-- When all steps over a list succeed, each of them does. -/
lemma exists_ok_of_mem {f : α → Except ε β} {xs : List α} {ys : List β}
    (h : xs.mapM f = .ok ys) {x : α} (hx : x ∈ xs) : ∃ y ∈ ys, f x = .ok y := by
  induction mapM_eq_ok_iff.1 h with
  | nil => cases hx
  | @cons x' y' xs' ys' hy hys ih =>
      rcases List.mem_cons.1 hx with rfl | hx
      · exact ⟨y', List.mem_cons_self, hy⟩
      · obtain ⟨y, hmem, hfx⟩ := ih (mapM_eq_ok_iff.2 hys) hx
        exact ⟨y, List.mem_cons_of_mem y' hmem, hfx⟩

lemma mapM_eq_error_iff {f : α → Except ε β} {xs : List α} {e : ε} :
    xs.mapM f = .error e ↔
      ∃ front x back, xs = front ++ x :: back ∧ (∀ y ∈ front, ∃ v, f y = .ok v) ∧
        f x = .error e := by
  induction xs with
  | nil =>
      refine ⟨nofun, ?_⟩
      rintro ⟨front, x, back, h, -⟩
      cases front <;> cases h
  | cons x xs ih =>
      rw [List.mapM_cons, bind_eq_error_iff]
      constructor
      · rintro (hx | ⟨y, hy, h⟩)
        · exact ⟨[], x, xs, rfl, nofun, hx⟩
        · rcases bind_eq_error_iff.1 h with hxs | ⟨ys, -, h⟩
          · obtain ⟨front, z, back, rfl, hfront, hz⟩ := ih.1 hxs
            exact ⟨x :: front, z, back, rfl, List.forall_mem_cons.2 ⟨⟨y, hy⟩, hfront⟩, hz⟩
          · cases h
      · rintro ⟨front, z, back, h, hfront, hz⟩
        cases front with
        | nil =>
            obtain ⟨rfl, rfl⟩ := List.cons.inj h
            exact Or.inl hz
        | cons w front =>
            obtain ⟨rfl, rfl⟩ := List.cons.inj h
            obtain ⟨⟨y, hy⟩, hrest⟩ := List.forall_mem_cons.1 hfront
            have hxs := ih.2 ⟨front, z, back, rfl, hrest, hz⟩
            exact Or.inr ⟨y, hy, bind_eq_error_iff.2 (Or.inl hxs)⟩

lemma mapM_eq_error {f : α → Except ε β} {xs : List α} {e : ε} (h : xs.mapM f = .error e) :
    ∃ x ∈ xs, f x = .error e := by
  obtain ⟨front, x, back, rfl, -, hx⟩ := mapM_eq_error_iff.1 h
  exact ⟨x, by simp, hx⟩

end DeskCalculator
