import Mathlib.Data.List.Basic
import Mathlib.Logic.Function.Basic

/-!
# HttpGarden.Lib.Threads

**Threads that share a variable.** A schedule says which thread makes the next move, in any order;
a move is what a thread does without being interrupted.

* `run_invariant`: what a thread keeps by its own moves, and what no move of another thread breaks,
  holds after every schedule. `rely` says how a move may change the shared variable.
* `run_measure`: a thread whose moves bring it nearer to its end gets there, whatever the others do.
-/

namespace HttpGarden.Lib

/-- What a move comes to. -/
structure Moved (γ τ ω : Type) where
  shared : γ
  thread : τ
  out : List ω := []

/-- One move of a thread. -/
def Mover (γ τ ω : Type) := γ → τ → Moved γ τ ω

/-- All threads, with the shared variable and what they have emitted. -/
structure Threads (ι γ τ ω : Type) where
  shared : γ
  threads : ι → τ
  log : List (ι × ω) := []

namespace Threads

variable {ι γ τ ω : Type} [DecidableEq ι]

/-- The thread `i` moves. -/
def step (m : Mover γ τ ω) (s : Threads ι γ τ ω) (i : ι) : Threads ι γ τ ω :=
  let moved := m s.shared (s.threads i)
  { shared := moved.shared
    threads := Function.update s.threads i moved.thread
    log := s.log ++ moved.out.map (i, ·) }

def run (m : Mover γ τ ω) (s : Threads ι γ τ ω) (schedule : List ι) : Threads ι γ τ ω :=
  schedule.foldl (step m) s

/-- What the thread `i` has emitted. -/
def outputs (s : Threads ι γ τ ω) (i : ι) : List ω := (s.log.filter fun e => e.1 = i).map (·.2)

variable {m : Mover γ τ ω} {s : Threads ι γ τ ω} {i j : ι}

theorem threads_step_self (m : Mover γ τ ω) (s : Threads ι γ τ ω) (i : ι) :
    (s.step m i).threads i = (m s.shared (s.threads i)).thread :=
  Function.update_self ..

theorem threads_step_of_ne (m : Mover γ τ ω) (s : Threads ι γ τ ω) (h : j ≠ i) :
    (s.step m i).threads j = s.threads j :=
  Function.update_of_ne h ..

theorem outputs_step_self (m : Mover γ τ ω) (s : Threads ι γ τ ω) (i : ι) :
    (s.step m i).outputs i = s.outputs i ++ (m s.shared (s.threads i)).out := by
  rw [outputs, step, List.filter_append, List.map_append, List.filter_map, List.map_map]
  congr 1
  rw [List.filter_eq_self.mpr (by simp)]
  exact List.map_id _

theorem outputs_step_of_ne (m : Mover γ τ ω) (s : Threads ι γ τ ω) (h : j ≠ i) :
    (s.step m i).outputs j = s.outputs j := by
  have hother : (((m s.shared (s.threads i)).out.map (i, ·)).filter fun e => e.1 = j) = [] := by
    refine List.filter_eq_nil_iff.mpr fun e he => ?_
    obtain ⟨w, -, rfl⟩ := List.mem_map.mp he
    simpa using Ne.symm h
  rw [outputs, step, List.filter_append, hother, List.append_nil]
  rfl

/-- **The rule for one thread among others.** -/
theorem run_invariant {rely : γ → γ → Prop} {I : List ω → γ → τ → Prop}
    (hstep : ∀ out g t, I out g t → I (out ++ (m g t).out) (m g t).shared (m g t).thread)
    (hrely : ∀ out g g' t, rely g g' → I out g t → I out g' t)
    (hguarantee : ∀ g t, rely g (m g t).shared)
    (h : I (s.outputs i) s.shared (s.threads i)) (schedule : List ι) :
    I ((s.run m schedule).outputs i) (s.run m schedule).shared ((s.run m schedule).threads i) := by
  induction schedule generalizing s with
  | nil => exact h
  | cons j schedule ih =>
      refine ih ?_
      by_cases hj : i = j
      · rw [hj] at h ⊢
        rw [outputs_step_self, threads_step_self]
        exact hstep _ _ _ h
      · rw [outputs_step_of_ne m s hj, threads_step_of_ne m s hj]
        exact hrely _ _ _ _ (hguarantee _ _) h

/-- **A thread gets on** with each of its moves. -/
theorem run_measure {measure : τ → Nat} (h : ∀ g t, measure (m g t).thread ≤ measure t - 1)
    (s : Threads ι γ τ ω) (schedule : List ι) (i : ι) :
    measure ((s.run m schedule).threads i) ≤ measure (s.threads i) - schedule.count i := by
  induction schedule generalizing s with
  | nil => exact Nat.le_refl _
  | cons j schedule ih =>
      refine Nat.le_trans (ih (s.step m j)) ?_
      by_cases hj : i = j
      · rw [hj, threads_step_self, List.count_cons_self]
        have hmove := h s.shared (s.threads j)
        omega
      · exact Nat.le_of_eq (by rw [threads_step_of_ne m s hj, List.count_cons_of_ne (Ne.symm hj)])

end Threads

end HttpGarden.Lib
