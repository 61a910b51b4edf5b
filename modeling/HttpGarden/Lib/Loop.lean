import Mathlib.Tactic
import Mathlib.Logic.Relation

/-!
# HttpGarden.Lib.Loop

**While loops** as one-iteration functions. An iteration either goes on in a new
state or leaves the loop with a result; a run is the reflexive-transitive closure
of the iterations that go on.

The rules: an invariant of one iteration holds in every state of a run
(`Reaches.invariant`), and a loop whose iterations shrink a natural number
terminates (`terminates_of_decreasing`).
-/

namespace HttpGarden.Lib

/-- The outcome of one iteration. -/
inductive Next (σ ρ : Type)
  | again (s : σ)
  | leave (r : ρ)
  deriving Repr, DecidableEq

/-- A loop: what one iteration does, the loop test included. -/
def Loop (σ ρ : Type) := σ → Next σ ρ

namespace Loop

variable {σ ρ : Type} {l : Loop σ ρ} {s s' : σ}

/-- `s'` is the state at the start of some iteration of a run from `s`. -/
def Reaches (l : Loop σ ρ) : σ → σ → Prop := Relation.ReflTransGen fun s s' => l s = .again s'

/-- A run from `s` leaves the loop with `r`. -/
def Returns (l : Loop σ ρ) (s : σ) (r : ρ) : Prop := ∃ s', l.Reaches s s' ∧ l s' = .leave r

/-- The loop comes to an end. -/
def Terminates (l : Loop σ ρ) (s : σ) : Prop := ∃ r, l.Returns s r

theorem Reaches.refl (l : Loop σ ρ) (s : σ) : l.Reaches s s := Relation.ReflTransGen.refl

theorem Reaches.step {s₁ : σ} (h : l.Reaches s s₁) (hs : l s₁ = .again s') : l.Reaches s s' :=
  Relation.ReflTransGen.tail h hs

theorem Reaches.invariant {I : σ → Prop} (hstep : ∀ s s', I s → l s = .again s' → I s')
    (h : l.Reaches s s') (hs : I s) : I s' := by
  induction h with
  | refl => exact hs
  | tail _ hl ih => exact hstep _ _ ih hl

theorem Returns.of_again {r : ρ} (hs : l s = .again s') (h : l.Returns s' r) : l.Returns s r := by
  obtain ⟨s₁, hreach, hl⟩ := h
  exact ⟨s₁, Relation.ReflTransGen.head hs hreach, hl⟩

/-- A run is at its start, or has made the first iteration. -/
theorem Reaches.eq_or_again (h : l.Reaches s s') : s' = s ∨ ∃ s₁, l s = .again s₁ ∧ l.Reaches s₁ s' := by
  rcases Relation.ReflTransGen.cases_head h with rfl | ⟨s₁, hs, hrest⟩
  · exact .inl rfl
  · exact .inr ⟨s₁, hs, hrest⟩

theorem Reaches.eq_of_leave {r : ρ} (h : l.Reaches s s') (hs : l s = .leave r) : s' = s := by
  rcases h.eq_or_again with rfl | ⟨s₁, hagain, -⟩
  · rfl
  · rw [hs] at hagain
    cases hagain

/-- What a run returns is settled by where it starts. -/
theorem Returns.unique {r r' : ρ} (h : l.Returns s r) (h' : l.Returns s r') : r = r' := by
  obtain ⟨s₁, hreach, hs₁⟩ := h
  induction hreach using Relation.ReflTransGen.head_induction_on with
  | refl =>
      obtain ⟨s₂, hreach', hs₂⟩ := h'
      cases hreach'.eq_of_leave hs₁
      rw [hs₁] at hs₂
      cases hs₂
      rfl
  | head hs _ ih =>
      obtain ⟨s₂, hreach', hs₂⟩ := h'
      rcases hreach'.eq_or_again with rfl | ⟨s₁', hagain, hrest⟩
      · rw [hs] at hs₂
        cases hs₂
      · rw [hs] at hagain
        cases hagain
        exact ih ⟨s₂, hrest, hs₂⟩

/-- A run goes on from any state that it reaches. -/
theorem Returns.of_reaches {r : ρ} (hreach : l.Reaches s s') (h : l.Returns s' r) : l.Returns s r := by
  obtain ⟨s₁, hreach', hs₁⟩ := h
  exact ⟨s₁, Relation.ReflTransGen.trans hreach hreach', hs₁⟩

/-- What a run returns, it returns from every state that it reaches. -/
theorem Returns.at_reached {r : ρ} (hreach : l.Reaches s s') (h : l.Returns s r) : l.Returns s' r := by
  induction hreach using Relation.ReflTransGen.head_induction_on with
  | refl => exact h
  | head hs _ ih =>
      obtain ⟨t, hreach, ht⟩ := h
      rcases hreach.eq_or_again with rfl | ⟨s₁, hagain, hrest⟩
      · cases hs.symm.trans ht
      · cases hs.symm.trans hagain
        exact ih ⟨t, hrest, ht⟩

/-- An iteration that goes on shrinks `m`, as long as the invariant holds: the
loop terminates. -/
theorem terminates_of_decreasing {I : σ → Prop} (m : σ → Nat)
    (hinv : ∀ s s', I s → l s = .again s' → I s')
    (hdec : ∀ s s', I s → l s = .again s' → m s' < m s) (hs : I s) : l.Terminates s := by
  induction hm : m s using Nat.strong_induction_on generalizing s with
  | _ n ih =>
      cases hl : l s with
      | leave r => exact ⟨r, s, Reaches.refl l s, hl⟩
      | again s' =>
          have hlt : m s' < n := hm ▸ hdec s s' hs hl
          obtain ⟨r, hr⟩ := ih (m s') hlt (hinv s s' hs hl) rfl
          exact ⟨r, Returns.of_again hl hr⟩

/-- Every iteration goes on, as long as the invariant holds: the loop does not terminate. -/
theorem not_terminates_of_invariant {I : σ → Prop}
    (hstep : ∀ s, I s → ∃ s', l s = .again s' ∧ I s') (hs : I s) : ¬ l.Terminates s := by
  intro hterminates
  obtain ⟨r, s', hreach, hleave⟩ := hterminates
  have hinv : I s' := hreach.invariant (I := I) (fun s₁ s₂ h₁ hagain => by
    obtain ⟨s₃, hs₃, hI⟩ := hstep s₁ h₁
    cases hagain.symm.trans hs₃
    exact hI) hs
  obtain ⟨s'', hagain, -⟩ := hstep s' hinv
  cases hagain.symm.trans hleave

end Loop

end HttpGarden.Lib
