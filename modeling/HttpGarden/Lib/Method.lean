import HttpGarden.Lib.Except

/-!
# HttpGarden.Lib.Method

**Methods that change an object and may raise.** An exception does not undo what was done before
it, so a call leaves an object behind in both cases.

A method is an `EStateM`. `outcome` forgets the object of a call that has raised, and turns a method
into a computation of `Lib.Except`; `after` is the object that any call leaves.
-/

namespace HttpGarden.Lib

variable {ε σ α β : Type}

/-- A method of an object of type `σ`. -/
abbrev Method (ε σ α : Type) := EStateM ε σ α

namespace Method

/-- What a caller has that drops the object on an exception. -/
def outcome : EStateM.Result ε σ α → Except ε (σ × α)
  | .ok a s => .ok (s, a)
  | .error e _ => .error e

/-- The object after the call. -/
def after : EStateM.Result ε σ α → σ
  | .ok _ s => s
  | .error _ s => s

/-- A computation that may raise and leaves the object alone. -/
def raising (x : Except ε α) : Method ε σ α := fun s =>
  match x with
  | .ok a => .ok a s
  | .error e => .error e s

variable {m : Method ε σ α} {f : α → Method ε σ β} {s s' : σ}

theorem outcome_eq_ok {r : EStateM.Result ε σ α} {a : α} :
    outcome r = .ok (s, a) ↔ r = .ok a s := by
  cases r <;> simp [outcome, and_comm]

theorem bind_of_ok {a : α} (h : m s = .ok a s') : (m >>= f) s = f a s' := by
  show EStateM.bind m f s = _
  rw [EStateM.bind, h]

theorem bind_of_error {e : ε} (h : m s = .error e s') : (m >>= f) s = .error e s' := by
  show EStateM.bind m f s = _
  rw [EStateM.bind, h]

theorem outcome_bind : outcome ((m >>= f) s) = outcome (m s) >>= fun r => outcome (f r.2 r.1) := by
  cases h : m s with
  | ok a s' => rw [bind_of_ok h]; rfl
  | error e s' => rw [bind_of_error h]; rfl

@[simp] theorem outcome_pure (a : α) : outcome ((pure a : Method ε σ α) s) = .ok (s, a) := rfl

@[simp] theorem outcome_get : outcome ((get : Method ε σ σ) s) = .ok (s, s) := rfl

@[simp] theorem outcome_modify (g : σ → σ) :
    outcome ((modify g : Method ε σ PUnit) s) = .ok (g s, ()) := rfl

@[simp] theorem outcome_raising (x : Except ε α) :
    outcome ((raising x : Method ε σ α) s) = x >>= fun a => .ok (s, a) := by
  cases x <;> rfl

@[simp] theorem get_bind {g : σ → Method ε σ β} : (get >>= g) s = g s s := rfl

/-- What every part leaves as it was, a sequence does. -/
theorem after_bind {P : σ → Prop} (hm : P (after (m s))) (hf : ∀ a s, P s → P (after (f a s))) :
    P (after ((m >>= f) s)) := by
  cases h : m s with
  | ok a s' =>
      rw [bind_of_ok h]
      rw [h] at hm
      exact hf a s' hm
  | error e s' =>
      rw [bind_of_error h]
      rw [h] at hm
      exact hm

@[simp] theorem after_raising (x : Except ε α) : after ((raising x : Method ε σ α) s) = s := by
  cases x <;> rfl

end Method

end HttpGarden.Lib
