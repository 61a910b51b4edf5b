import Mathlib.Tactic

/-!
# HttpGarden.Lib.Traverse

`for` loops that collect one result for every element of a list while they thread
a state. The rule `collect_spec` is the one needed to tell a loop whose body is
supposed to leave the state alone from one that spoils it: as long as every
element is *good* the invariant stays and the results are those of a function
without state; one bad element spoils the state for the rest of the loop.
-/

namespace HttpGarden.Lib

variable {ι σ α : Type}

/-- Run `f` on the elements in order and collect the results. -/
def collect (f : ι → σ → α × σ) : List ι → σ → List α × σ
  | [], s => ([], s)
  | x :: xs, s =>
    let m := f x s
    let ms := collect f xs m.2
    (m.1 :: ms.1, ms.2)

theorem collect_stable {f : ι → σ → α × σ} {P : σ → Prop} (h : ∀ x s, P s → P (f x s).2)
    (l : List ι) {s : σ} (hs : P s) : P (collect f l s).2 := by
  induction l generalizing s with
  | nil => exact hs
  | cons x xs ih => exact ih (h x s hs)

/-- A loop keeps `P` if every one of its iterations does. -/
theorem collect_keeps_iff {f : ι → σ → α × σ} {P : σ → Prop} {Q : ι → Prop} {l : List ι}
    (h : ∀ x ∈ l, ∀ s, P (f x s).2 ↔ P s ∧ Q x) (s : σ) :
    P (collect f l s).2 ↔ P s ∧ ∀ x ∈ l, Q x := by
  induction l generalizing s with
  | nil => exact ⟨fun hs => ⟨hs, by simp⟩, And.left⟩
  | cons x xs ih =>
      have htail := ih (fun y hy => h y (List.mem_cons_of_mem x hy)) (f x s).2
      rw [List.forall_mem_cons, ← and_assoc, ← h x List.mem_cons_self s]
      exact htail

/-- If every element is good, the loop keeps `I` and returns what `g` returns;
otherwise it ends in a spoiled state. -/
theorem collect_spec {f : ι → σ → α × σ} {g : ι → α} {I S : σ → Prop} {P : ι → Prop}
    {l : List ι} (hgood : ∀ x ∈ l, ∀ s, I s → P x → (f x s).1 = g x ∧ I (f x s).2)
    (hbad : ∀ x ∈ l, ∀ s, I s → ¬ P x → S (f x s).2)
    (hstable : ∀ x s, S s → S (f x s).2) {s : σ} (hs : I s) :
    ((∀ x ∈ l, P x) → (collect f l s).1 = l.map g ∧ I (collect f l s).2) ∧
      ((¬ ∀ x ∈ l, P x) → S (collect f l s).2) := by
  induction l generalizing s with
  | nil => exact ⟨fun _ => ⟨rfl, hs⟩, fun h => absurd (by simp) h⟩
  | cons x xs ih =>
      by_cases hx : P x
      · obtain ⟨h1, h2⟩ := hgood x (by simp) s hs hx
        obtain ⟨ihgood, ihbad⟩ := ih (fun y hy => hgood y (by simp [hy]))
          (fun y hy => hbad y (by simp [hy])) h2
        refine ⟨fun hall => ?_, fun hnot => ?_⟩
        · obtain ⟨e1, e2⟩ := ihgood fun y hy => hall y (by simp [hy])
          exact ⟨by rw [collect, List.map_cons, h1, e1], e2⟩
        · exact ihbad fun hall => hnot (by simpa using ⟨hx, hall⟩)
      · constructor
        · intro hall
          exact absurd (hall x (by simp)) hx
        · intro _
          exact collect_stable hstable xs (hbad x (by simp) s hs hx)

/-- Two loops over related elements run in step if their bodies do. -/
theorem collect_in_step {κ τ : Type} {f : ι → σ → α × σ} {f' : κ → τ → α × τ} {R : ι → κ → Prop}
    {S : σ → τ → Prop}
    (h : ∀ x y, R x y → ∀ s t, S s t → (f x s).1 = (f' y t).1 ∧ S (f x s).2 (f' y t).2)
    {xs : List ι} {ys : List κ} (hxs : List.Forall₂ R xs ys) {s : σ} {t : τ} (hst : S s t) :
    (collect f xs s).1 = (collect f' ys t).1 ∧ S (collect f xs s).2 (collect f' ys t).2 := by
  induction hxs generalizing s t with
  | nil => exact ⟨rfl, hst⟩
  | @cons x y xs ys hxy _ ih =>
      obtain ⟨hfirst, hst'⟩ := h x y hxy s t hst
      obtain ⟨hrest, hend⟩ := ih hst'
      exact ⟨by rw [collect, collect, hfirst, hrest], hend⟩

end HttpGarden.Lib
