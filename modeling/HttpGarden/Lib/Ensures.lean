import Mathlib.Data.List.Basic

/-!
# HttpGarden.Lib.Ensures

**Programs that return**: from every state such a program returns without an exception, and what it
returns satisfies a condition. The conditions say nothing about the states, which are for the calls
that a program makes to the outside.

* `Ensures.bind`: one program after the other.
* `Ensures.foldlM`: a loop over a list, by an invariant of what has been gone through.
-/

namespace HttpGarden.Lib

variable {σ ε α β : Type}

/-- From every state the program returns something for which `P` holds. -/
def Ensures (x : StateT σ (Except ε) α) (P : α → Prop) : Prop :=
  ∀ s, ∃ a s', x s = .ok (a, s') ∧ P a

namespace Ensures

variable {x : StateT σ (Except ε) α} {P Q : α → Prop} {R : β → Prop}

theorem pure {a : α} (h : P a) : Ensures (Pure.pure a : StateT σ (Except ε) α) P :=
  fun s => ⟨a, s, rfl, h⟩

theorem mono (hx : Ensures x P) (h : ∀ a, P a → Q a) : Ensures x Q := by
  intro s
  obtain ⟨a, s', heq, ha⟩ := hx s
  exact ⟨a, s', heq, h a ha⟩

/-- **One after the other**: the second program starts with what the first has returned. -/
theorem bind {f : α → StateT σ (Except ε) β} (hx : Ensures x P) (hf : ∀ a, P a → Ensures (f a) R) :
    Ensures (x >>= f) R := by
  intro s
  obtain ⟨a, s', heq, ha⟩ := hx s
  obtain ⟨b, s'', heq', hb⟩ := hf a ha s'
  refine ⟨b, s'', ?_, hb⟩
  show (x s >>= fun p => f p.1 p.2) = _
  rw [heq]
  exact heq'

/-- **A loop over a list** keeps a relation between the elements gone through and the result. -/
theorem foldlM {f : β → α → StateT σ (Except ε) β} {l : List α} {b : β} (I : List α → β → Prop)
    (hinit : I [] b)
    (hstep : ∀ pre a b, a ∈ l → I pre b → Ensures (f b a) (I (pre ++ [a]))) :
    Ensures (l.foldlM f b) (I l) := by
  have hrest : ∀ rest pre b, pre ++ rest = l → I pre b → Ensures (rest.foldlM f b) (I l) := by
    intro rest
    induction rest with
    | nil =>
        intro pre b hl hb
        rw [List.append_nil] at hl
        exact .pure (hl ▸ hb)
    | cons a rest ih =>
        intro pre b hl hb
        have ha : a ∈ l := by
          rw [← hl]
          exact List.mem_append_right pre List.mem_cons_self
        rw [List.foldlM_cons]
        refine (hstep pre a b ha hb).bind fun b' hb' => ih (pre ++ [a]) b' ?_ hb'
        rw [List.append_assoc]
        exact hl
  exact hrest l [] b rfl hinit

end Ensures

end HttpGarden.Lib
