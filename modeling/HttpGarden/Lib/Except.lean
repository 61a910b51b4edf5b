import Mathlib.Tactic
import Mathlib.Data.List.Forall2

/-!
# HttpGarden.Lib.Except

Rules for computations that may raise: when a sequence of steps returns, when it
raises, and what a whole list of steps returns.
-/

namespace HttpGarden.Lib

variable {ε α β : Type}

@[simp] theorem ok_bind (a : α) (f : α → Except ε β) : (Except.ok a >>= f) = f a := rfl

@[simp] theorem error_bind (e : ε) (f : α → Except ε β) :
    ((Except.error e : Except ε α) >>= f) = .error e := rfl

@[simp] theorem pure_eq_ok (a : α) : (pure a : Except ε α) = .ok a := rfl

@[simp] theorem throw_eq_error (e : ε) : (throw e : Except ε α) = .error e := rfl

/-- A sequence returns when both of its parts do. -/
theorem bind_eq_ok {x : Except ε α} {f : α → Except ε β} {b : β} :
    (x >>= f) = .ok b ↔ ∃ a, x = .ok a ∧ f a = .ok b := by
  cases x <;> simp

theorem map_eq_ok {x : Except ε α} {f : α → β} {b : β} :
    f <$> x = .ok b ↔ ∃ a, x = .ok a ∧ f a = b := by
  cases x <;> simp [Functor.map, Except.map]

/-- A check and then a computation. -/
theorem check_bind_eq_ok {x : Except ε Unit} {f : Unit → Except ε β} {b : β} :
    (x >>= f) = .ok b ↔ x = .ok () ∧ f () = .ok b := by
  cases x <;> simp

/-- A test that guards the rest of a computation has to fail for it to return. -/
theorem ite_error_eq_ok {P : Prop} [Decidable P] {e : ε} {x : Except ε α} {a : α} :
    (if P then .error e else x) = .ok a ↔ ¬ P ∧ x = .ok a := by
  by_cases h : P <;> simp [h]

/-- A loop over a list returns when it does for every element. -/
theorem mapM_eq_ok {f : α → Except ε β} {as : List α} {bs : List β} :
    as.mapM f = .ok bs ↔ List.Forall₂ (fun a b => f a = .ok b) as bs := by
  induction as generalizing bs with
  | nil => simp [eq_comm]
  | cons a as ih =>
      rw [List.mapM_cons, bind_eq_ok]
      constructor
      · intro ⟨b, hb, h⟩
        obtain ⟨bs', hbs, h⟩ := bind_eq_ok.mp h
        rw [pure_eq_ok, Except.ok.injEq] at h
        exact h ▸ .cons hb (ih.mp hbs)
      · intro h
        cases h with
        | cons hb hbs => exact ⟨_, hb, bind_eq_ok.mpr ⟨_, ih.mpr hbs, rfl⟩⟩

/-- A loop that carries a state returns if every step can, whatever the state. -/
theorem foldlM_ok_iff {f : β → α → Except ε β} {P : α → Prop}
    (hf : ∀ b a, (∃ b', f b a = .ok b') ↔ P a) (as : List α) (b : β) :
    (∃ b', as.foldlM f b = .ok b') ↔ ∀ a ∈ as, P a := by
  induction as generalizing b with
  | nil => simp
  | cons a as ih =>
      rw [List.foldlM_cons, List.forall_mem_cons, ← hf b a]
      cases f b a with
      | ok b' => simpa using ih b'
      | error e => simp

/-- Construct a value whose invariant is a check that has passed. -/
def build (c : Except ε Unit) (k : c = .ok () → α) : Except ε α :=
  match c, k with
  | .ok (), k => .ok (k rfl)
  | .error e, _ => .error e

theorem build_of_ok {c : Except ε Unit} {k : c = .ok () → α} (h : c = .ok ()) :
    build c k = .ok (k h) := by
  subst h
  rfl

/-- A construction returns only what passed its check. -/
theorem build_eq_ok {c : Except ε Unit} {k : c = .ok () → α} {a : α} :
    build c k = .ok a ↔ ∃ h, k h = a := by
  cases c with
  | ok u => simp [build]
  | error e => simp [build]

/-! ### Exceptions -/

/-- Every exception that leaves the computation is a `P`. -/
def OnlyRaises (P : ε → Prop) (x : Except ε α) : Prop := ∀ e, x = .error e → P e

section

variable {P : ε → Prop} {x : Except ε α}

theorem onlyRaises_ok (a : α) : OnlyRaises P (.ok a : Except ε α) := by
  intro e h
  cases h

theorem onlyRaises_error {e : ε} : OnlyRaises P (.error e : Except ε α) ↔ P e := by
  constructor
  · exact fun h => h e rfl
  · intro h e' he
    cases he
    exact h

theorem OnlyRaises.mono {Q : ε → Prop} (hPQ : ∀ e, P e → Q e) (h : OnlyRaises P x) : OnlyRaises Q x :=
  fun e he => hPQ e (h e he)

theorem onlyRaises_bind {f : α → Except ε β} :
    OnlyRaises P (x >>= f) ↔ OnlyRaises P x ∧ ∀ a, x = .ok a → OnlyRaises P (f a) := by
  cases x with
  | ok a =>
      rw [ok_bind]
      constructor
      · intro h
        refine ⟨onlyRaises_ok a, fun a' ha' => ?_⟩
        cases ha'
        exact h
      · exact fun h => h.2 a rfl
  | error e =>
      rw [error_bind, onlyRaises_error, onlyRaises_error]
      exact ⟨fun h => ⟨h, nofun⟩, And.left⟩

theorem OnlyRaises.bind {f : α → Except ε β} (hx : OnlyRaises P x) (hf : ∀ a, OnlyRaises P (f a)) :
    OnlyRaises P (x >>= f) := onlyRaises_bind.mpr ⟨hx, fun a _ => hf a⟩

theorem OnlyRaises.foldlM {f : β → α → Except ε β} (hf : ∀ b a, OnlyRaises P (f b a))
    (as : List α) (b : β) : OnlyRaises P (as.foldlM f b) := by
  induction as generalizing b with
  | nil => exact onlyRaises_ok b
  | cons a as ih =>
      rw [List.foldlM_cons]
      exact (hf b a).bind ih

theorem OnlyRaises.mapM {f : α → Except ε β} {as : List α} (hf : ∀ a ∈ as, OnlyRaises P (f a)) :
    OnlyRaises P (as.mapM f) := by
  induction as with
  | nil => exact onlyRaises_ok []
  | cons a as ih =>
      obtain ⟨ha, has⟩ := List.forall_mem_cons.mp hf
      rw [List.mapM_cons]
      exact ha.bind fun b => (ih has).bind fun bs => onlyRaises_ok _

theorem OnlyRaises.ite {c : Prop} [Decidable c] {y : Except ε α} (hx : OnlyRaises P x)
    (hy : OnlyRaises P y) : OnlyRaises P (if c then x else y) := by
  split
  · exact hx
  · exact hy

/-- A value is constructed, or its check has raised. -/
theorem OnlyRaises.build {c : Except ε Unit} (h : OnlyRaises P c) (k : c = .ok () → α) :
    OnlyRaises P (build c k) := by
  cases c with
  | ok u => exact onlyRaises_ok _
  | error e => exact onlyRaises_error.mpr (onlyRaises_error.mp h)

end

end HttpGarden.Lib
