import HttpGarden.Lib.Loop

/-!
# HttpGarden.Lib.Process

**Processes** that take inputs one at a time. Handling an input emits outputs, and then the
process goes on in a new state or leaves with a result; what comes after is not handled.

* `Emits.andThen` composes two handlings, the second of which is only reached from a state.
* `run_append`: a process handles a list of inputs part by part.
* `forall_out_run`: what holds of everything that a run emits holds at every input it comes to.
* `run_invariant`: an invariant that speaks of the inputs that have been handled.
-/

namespace HttpGarden.Lib

/-- What handling one input comes to. -/
structure Emits (ω σ ρ : Type) where
  out : List ω
  next : Next σ ρ
  deriving DecidableEq

/-- Handling one input in a state. -/
def Process (σ α ω ρ : Type) := σ → α → Emits ω σ ρ

variable {σ α ω ρ : Type}

namespace Emits

/-- Nothing is emitted. -/
def again (s : σ) : Emits ω σ ρ := ⟨[], .again s⟩

def leave (r : ρ) : Emits ω σ ρ := ⟨[], .leave r⟩

/-- On to `k` from the state that was reached, if there is one. -/
def andThen (e : Emits ω σ ρ) (k : σ → Emits ω σ ρ) : Emits ω σ ρ :=
  match e.next with
  | .again s => ⟨e.out ++ (k s).out, (k s).next⟩
  | .leave r => ⟨e.out, .leave r⟩

/-- The same is emitted, and then both go on in states that are related, or both leave with the
same result. -/
inductive Rel (R : σ → σ → Prop) : Emits ω σ ρ → Emits ω σ ρ → Prop
  | again (out : List ω) {s t : σ} (h : R s t) : Rel R ⟨out, .again s⟩ ⟨out, .again t⟩
  | leave (out : List ω) (r : ρ) : Rel R ⟨out, .leave r⟩ ⟨out, .leave r⟩

variable {e e' : Emits ω σ ρ} {k : σ → Emits ω σ ρ} {s : σ} {r : ρ}

theorem ext (hout : e.out = e'.out) (hnext : e.next = e'.next) : e = e' := by
  cases e
  cases e'
  cases hout
  cases hnext
  rfl

theorem andThen_of_again (h : e.next = .again s) :
    e.andThen k = ⟨e.out ++ (k s).out, (k s).next⟩ := by
  rw [andThen, h]

theorem andThen_of_leave (h : e.next = .leave r) : e.andThen k = e := by
  rw [andThen, h]
  exact ext rfl h.symm

theorem andThen_again (e : Emits ω σ ρ) : e.andThen again = e := by
  cases h : e.next with
  | again s =>
      rw [andThen_of_again h]
      exact ext (List.append_nil e.out) h.symm
  | leave r => exact andThen_of_leave h

theorem andThen_assoc (e : Emits ω σ ρ) (k l : σ → Emits ω σ ρ) :
    (e.andThen k).andThen l = e.andThen fun s => (k s).andThen l := by
  cases h : e.next with
  | leave r => rw [andThen_of_leave h, andThen_of_leave h, andThen_of_leave h]
  | again s =>
      rw [andThen_of_again h, andThen_of_again h]
      cases hk : (k s).next with
      | leave r =>
          rw [andThen_of_leave hk, hk]
          exact andThen_of_leave rfl
      | again t =>
          rw [andThen_of_again hk, andThen_of_again (e := ⟨_, .again t⟩) rfl]
          exact ext (List.append_assoc _ _ _) rfl

/-- From the same state, the same is done exactly if the rest is the same. -/
theorem andThen_right_inj {l : σ → Emits ω σ ρ} (h : e.next = .again s) :
    e.andThen k = e.andThen l ↔ k s = l s := by
  rw [andThen_of_again h, andThen_of_again h]
  refine ⟨fun heq => ?_, fun heq => ?_⟩
  · obtain ⟨hout, hnext⟩ := Emits.mk.inj heq
    exact ext (List.append_cancel_left hout) hnext
  · rw [heq]

/-- What is reached is reached by way of a state. -/
theorem next_andThen_eq_again {t : σ} :
    (e.andThen k).next = .again t ↔ ∃ s, e.next = .again s ∧ (k s).next = .again t := by
  cases h : e.next with
  | leave r =>
      rw [andThen_of_leave h, h]
      exact ⟨nofun, nofun⟩
  | again s =>
      rw [andThen_of_again h]
      refine ⟨fun ht => ⟨s, rfl, ht⟩, ?_⟩
      intro ⟨s', hs, ht⟩
      cases hs
      exact ht

/-- An output that `k` never emits is counted in what comes before. -/
theorem count_andThen [DecidableEq ω] {w : ω} (hk : ∀ s, (k s).out.count w = 0) :
    (e.andThen k).out.count w = e.out.count w := by
  cases h : e.next with
  | leave r => rw [andThen_of_leave h]
  | again s => rw [andThen_of_again h, List.count_append, hk s, Nat.add_zero]

end Emits

namespace Process

/-- One input after the other. -/
def run (p : Process σ α ω ρ) : σ → List α → Emits ω σ ρ
  | s, [] => .again s
  | s, a :: as => (p s a).andThen fun s' => run p s' as

variable {p : Process σ α ω ρ}

theorem run_cons (s : σ) (a : α) (as : List α) :
    p.run s (a :: as) = (p s a).andThen fun s' => p.run s' as := rfl

theorem run_singleton (s : σ) (a : α) : p.run s [a] = p s a := Emits.andThen_again (p s a)

/-- **Part by part.** -/
theorem run_append (s : σ) (as bs : List α) :
    p.run s (as ++ bs) = (p.run s as).andThen fun s' => p.run s' bs := by
  induction as generalizing s with
  | nil => rfl
  | cons a as ih =>
      rw [List.cons_append, run_cons, run_cons, Emits.andThen_assoc]
      congr 1
      funext s'
      exact ih s'

/-- The run comes to the input `a` in the state `t`. -/
def Comes (p : Process σ α ω ρ) (s : σ) (as : List α) (t : σ) (a : α) : Prop :=
  ∃ before after, as = before ++ a :: after ∧ (p.run s before).next = .again t

theorem not_comes_nil {s t : σ} {a : α} : ¬ p.Comes s [] t a := by
  intro ⟨before, after, h, _⟩
  exact List.append_ne_nil_of_right_ne_nil before (List.cons_ne_nil a after) h.symm

/-- The first input, or one that is come to after it. -/
theorem comes_cons {s t : σ} {a b : α} {as : List α} : p.Comes s (a :: as) t b ↔
    (t = s ∧ b = a) ∨ ∃ s', (p s a).next = .again s' ∧ p.Comes s' as t b := by
  constructor
  · intro ⟨before, after, has, hrun⟩
    cases before with
    | nil =>
        cases has
        cases hrun
        exact .inl ⟨rfl, rfl⟩
    | cons c before =>
        cases has
        obtain ⟨s', hs', ht⟩ := Emits.next_andThen_eq_again.mp hrun
        exact .inr ⟨s', hs', before, after, rfl, ht⟩
  · intro h
    rcases h with ⟨rfl, rfl⟩ | ⟨s', hs', before, after, rfl, hrun⟩
    · exact ⟨[], as, rfl, rfl⟩
    · exact ⟨a :: before, after, rfl, Emits.next_andThen_eq_again.mpr ⟨s', hs', hrun⟩⟩

/-- **What a run emits** is what is emitted for the inputs it comes to. -/
theorem mem_out_run {s : σ} {as : List α} {w : ω} :
    w ∈ (p.run s as).out ↔ ∃ t a, p.Comes s as t a ∧ w ∈ (p t a).out := by
  induction as generalizing s with
  | nil => exact ⟨nofun, fun ⟨_, _, h, _⟩ => absurd h not_comes_nil⟩
  | cons a as ih =>
      rw [run_cons]
      cases h : (p s a).next with
      | leave r =>
          rw [Emits.andThen_of_leave h]
          refine ⟨fun hw => ⟨s, a, comes_cons.mpr (.inl ⟨rfl, rfl⟩), hw⟩, ?_⟩
          intro ⟨t, b, hcomes, hw⟩
          rcases comes_cons.mp hcomes with ⟨rfl, rfl⟩ | ⟨s', hs', _⟩
          · exact hw
          · cases h.symm.trans hs'
      | again s' =>
          rw [Emits.andThen_of_again h, List.mem_append, ih]
          constructor
          · intro hw
            rcases hw with hw | ⟨t, b, hcomes, hw⟩
            · exact ⟨s, a, comes_cons.mpr (.inl ⟨rfl, rfl⟩), hw⟩
            · exact ⟨t, b, comes_cons.mpr (.inr ⟨s', h, hcomes⟩), hw⟩
          · intro ⟨t, b, hcomes, hw⟩
            rcases comes_cons.mp hcomes with ⟨rfl, rfl⟩ | ⟨s'', hs'', hcomes⟩
            · exact .inl hw
            · cases h.symm.trans hs''
              exact .inr ⟨t, b, hcomes, hw⟩

/-- A property of everything that is emitted is a property of every step, which may speak of the
inputs before it. -/
theorem forall_out_run {s : σ} {as : List α} {P : ω → Prop} {Q : List α → σ → α → Prop}
    (h : ∀ before t a, (p.run s before).next = .again t →
      ((∀ w ∈ (p t a).out, P w) ↔ Q before t a)) :
    (∀ w ∈ (p.run s as).out, P w) ↔ ∀ before a after t, as = before ++ a :: after →
      (p.run s before).next = .again t → Q before t a := by
  refine ⟨fun hall before a after t has hrun => ?_, fun hall w hw => ?_⟩
  · have hcomes : p.Comes s as t a := ⟨before, after, has, hrun⟩
    exact (h before t a hrun).mp fun w hw => hall w (mem_out_run.mpr ⟨t, a, hcomes, hw⟩)
  · obtain ⟨t, a, ⟨before, after, has, hrun⟩, hw⟩ := mem_out_run.mp hw
    exact (h before t a hrun).mpr (hall before a after t has hrun) w hw

/-- A run that leaves comes to the input at which it leaves. -/
theorem run_next_eq_leave {s : σ} {as : List α} {r : ρ} : (p.run s as).next = .leave r ↔
    ∃ t a, p.Comes s as t a ∧ (p t a).next = .leave r := by
  induction as generalizing s with
  | nil => exact ⟨nofun, fun ⟨_, _, hcomes, _⟩ => absurd hcomes not_comes_nil⟩
  | cons a as ih =>
      simp only [comes_cons]
      rw [run_cons]
      cases h : (p s a).next with
      | leave r' =>
          rw [Emits.andThen_of_leave h, h]
          refine ⟨fun hr => ⟨s, a, .inl ⟨rfl, rfl⟩, h.trans hr⟩, fun hcomes => ?_⟩
          obtain ⟨t, b, ⟨rfl, rfl⟩ | ⟨s', hs', _⟩, hleave⟩ := hcomes
          · exact h.symm.trans hleave
          · cases hs'
      | again s' =>
          rw [Emits.andThen_of_again h]
          refine ih.trans ⟨fun hcomes => ?_, fun hcomes => ?_⟩
          · obtain ⟨t, b, hcomes, hleave⟩ := hcomes
            exact ⟨t, b, .inr ⟨s', rfl, hcomes⟩, hleave⟩
          · obtain ⟨t, b, ⟨rfl, rfl⟩ | ⟨s'', hs'', hcomes⟩, hleave⟩ := hcomes
            · cases h.symm.trans hleave
            · cases hs''
              exact ⟨t, b, hcomes, hleave⟩

/-- Nothing comes after the input at which a run leaves. -/
theorem run_append_of_leave {s : σ} {as : List α} {r : ρ} (h : (p.run s as).next = .leave r)
    (bs : List α) : p.run s (as ++ bs) = p.run s as := by
  rw [run_append, Emits.andThen_of_leave h]

section

variable {I : List α → σ → Prop}

theorem run_append_invariant
    (hstep : ∀ before s a t, I before s → (p s a).next = .again t → I (before ++ [a]) t)
    {before as : List α} {s t : σ} (h : I before s) (hrun : (p.run s as).next = .again t) :
    I (before ++ as) t := by
  induction as generalizing before s with
  | nil =>
      cases hrun
      rwa [List.append_nil]
  | cons a as ih =>
      obtain ⟨s', hs', hrun⟩ := Emits.next_andThen_eq_again.mp hrun
      have hrest := ih (hstep before s a s' h hs') hrun
      rwa [List.append_assoc] at hrest

/-- **An invariant that speaks of the inputs so far.** -/
theorem run_invariant
    (hstep : ∀ before s a t, I before s → (p s a).next = .again t → I (before ++ [a]) t)
    {as : List α} {s t : σ} (h : I [] s) (hrun : (p.run s as).next = .again t) : I as t :=
  run_append_invariant hstep h hrun

end

end Process

end HttpGarden.Lib
