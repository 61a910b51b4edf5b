import Mathlib.Tactic

/-!
# HttpGarden.Lib.LongestPrefix

**Longest prefixes** of a list with a property, and of those the longest prefix whose
total weight fits a capacity.

The prefix can be found from either end: `fitting` takes elements from the front as
long as they fit, and a loop that drops elements from the back as long as the rest does
not fit is justified by `IsLongestPrefix.of_append_singleton`.
-/

namespace HttpGarden.Lib

variable {α : Type}

/-- The list `p` is a prefix of `l` with the property, and no longer prefix has it. -/
structure IsLongestPrefix (P : List α → Prop) (l p : List α) : Prop where
  isPrefix : p <+: l
  holds : P p
  longest : ∀ q, q <+: l → P q → q.length ≤ p.length

namespace IsLongestPrefix

variable {P : List α → Prop} {l p q : List α}

theorem refl (h : P l) : IsLongestPrefix P l l :=
  ⟨List.prefix_rfl, h, fun _ hq _ => hq.length_le⟩

theorem unique (hp : IsLongestPrefix P l p) (hq : IsLongestPrefix P l q) : p = q := by
  have hle : p.length ≤ q.length := hq.longest p hp.isPrefix hp.holds
  have hge : q.length ≤ p.length := hp.longest q hq.isPrefix hq.holds
  exact (List.prefix_of_prefix_length_le hp.isPrefix hq.isPrefix hle).eq_of_length (by omega)

/-- If the whole list does not have the property, its last element is not needed. -/
theorem of_append_singleton {a : α} (h : ¬ P (l ++ [a])) (hp : IsLongestPrefix P l p) :
    IsLongestPrefix P (l ++ [a]) p := by
  refine ⟨hp.isPrefix.trans (List.prefix_append l [a]), hp.holds, ?_⟩
  intro q hq hPq
  rcases List.prefix_concat_iff.mp hq with rfl | hq
  · exact absurd hPq h
  · exact hp.longest q hq hPq

end IsLongestPrefix

/-! ### Weights -/

section Weight

variable (w : α → Nat)

/-- The elements weigh at most `capacity` together. -/
def Fits (capacity : Nat) (l : List α) : Prop := (l.map w).sum ≤ capacity

instance (capacity : Nat) (l : List α) : Decidable (Fits w capacity l) :=
  inferInstanceAs (Decidable (_ ≤ _))

/-- The elements at the front of a list that fit. -/
def fitting : Nat → List α → List α
  | _, [] => []
  | capacity, a :: l => if w a ≤ capacity then a :: fitting (capacity - w a) l else []

variable {w}

theorem fits_nil (capacity : Nat) : Fits w capacity [] := Nat.zero_le capacity

theorem fits_cons {capacity : Nat} {a : α} {l : List α} :
    Fits w capacity (a :: l) ↔ w a ≤ capacity ∧ Fits w (capacity - w a) l := by
  rw [Fits, Fits, List.map_cons, List.sum_cons]
  omega

theorem fitting_isLongestPrefix (capacity : Nat) (l : List α) :
    IsLongestPrefix (Fits w capacity) l (fitting w capacity l) := by
  induction l generalizing capacity with
  | nil => exact .refl (fits_nil capacity)
  | cons a l ih =>
      rw [fitting]
      by_cases h : w a ≤ capacity
      · rw [if_pos h]
        have ih := ih (capacity - w a)
        refine ⟨List.cons_prefix_cons.mpr ⟨rfl, ih.isPrefix⟩, fits_cons.mpr ⟨h, ih.holds⟩, ?_⟩
        intro q hq hfits
        cases q with
        | nil => exact Nat.zero_le _
        | cons b q =>
            obtain ⟨rfl, hql⟩ := List.cons_prefix_cons.mp hq
            exact Nat.succ_le_succ (ih.longest q hql (fits_cons.mp hfits).2)
      · rw [if_neg h]
        refine ⟨List.nil_prefix, fits_nil capacity, ?_⟩
        intro q hq hfits
        cases q with
        | nil => exact le_rfl
        | cons b q =>
            obtain ⟨rfl, -⟩ := List.cons_prefix_cons.mp hq
            exact absurd (fits_cons.mp hfits).1 h

/-- A list that fits is not cut. -/
theorem fitting_eq_self {capacity : Nat} {l : List α} (h : Fits w capacity l) :
    fitting w capacity l = l :=
  (fitting_isLongestPrefix capacity l).unique (.refl h)

/-- A list that does not fit may lose its last element first. -/
theorem fitting_append_singleton {capacity : Nat} {l : List α} {a : α}
    (h : ¬ Fits w capacity (l ++ [a])) : fitting w capacity (l ++ [a]) = fitting w capacity l :=
  (fitting_isLongestPrefix capacity (l ++ [a])).unique
    ((fitting_isLongestPrefix capacity l).of_append_singleton h)

end Weight

end HttpGarden.Lib
