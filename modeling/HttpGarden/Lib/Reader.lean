import HttpGarden.Lib.Except

/-!
# HttpGarden.Lib.Reader

**Readers**: functions that take items off the front of an input and may raise.
They model code that pulls items from a shared iterator.

* `Reads p enc a` says that `p` takes exactly `enc` off the front, whatever
  follows it, and returns `a`; it composes along sequencing.
* `Consumes n p` says that a reader that returns has taken at least `n` items.
* `readAll stop p` repeats `p` until it raises `stop`; `ReadsAll` is the relation
  it computes, and the form in which a proof by induction over the items read is
  done.
-/

namespace HttpGarden.Lib

/-- A computation that reads items of type `τ` and may raise an `ε`. -/
abbrev Reader (τ ε : Type) := StateT (List τ) (Except ε)

namespace Reader

variable {τ ε α β : Type} {p : Reader τ ε α} {f : α → Reader τ ε β} {s s' : List τ}

/-! ### Building blocks -/

/-- The next item; `stop` is raised at the end of the input. -/
def next (stop : ε) : Reader τ ε τ
  | t :: s => .ok (t, s)
  | [] => .error stop

/-- Put an item back in front of the input. -/
def unread (t : τ) : Reader τ ε Unit := fun s => .ok ((), t :: s)

/-- Look at the next item. -/
def peek (stop : ε) : Reader τ ε τ := do
  let t ← next stop
  unread t
  return t

/-- The items that are left, all of them. -/
def rest : Reader τ ε (List τ) := fun s => .ok (s, [])

/-- At most `n` items. -/
def upTo (n : Nat) : Reader τ ε (List τ) := fun s => .ok (s.take n, s.drop n)

/-- Raise `e'` in place of `e`. -/
def reraise [DecidableEq ε] (e e' : ε) (p : Reader τ ε α) : Reader τ ε α := fun s =>
  match p s with
  | .ok r => .ok r
  | .error e₁ => .error (if e₁ = e then e' else e₁)

/-- A check that reads nothing. -/
def check (c : Except ε α) : Reader τ ε α := fun s => c.map fun a => (a, s)

@[simp] theorem bind_apply : (p >>= f) s = (p s >>= fun m => f m.1 m.2) := rfl

@[simp] theorem pure_apply {a : α} : (pure a : Reader τ ε α) s = .ok (a, s) := rfl

@[simp] theorem throw_apply {e : ε} : (throw e : Reader τ ε α) s = .error e := rfl

@[simp] theorem next_cons {stop : ε} {t : τ} : next stop (t :: s) = .ok (t, s) := rfl

@[simp] theorem next_nil {stop : ε} : (next stop : Reader τ ε τ) [] = .error stop := rfl

@[simp] theorem peek_cons {stop : ε} {t : τ} : peek stop (t :: s) = .ok (t, t :: s) := rfl

@[simp] theorem peek_nil {stop : ε} : (peek stop : Reader τ ε τ) [] = .error stop := rfl

@[simp] theorem rest_apply : (rest : Reader τ ε _) s = .ok (s, []) := rfl

@[simp] theorem upTo_apply {n : Nat} : (upTo n : Reader τ ε _) s = .ok (s.take n, s.drop n) := rfl

@[simp] theorem check_ok {a : α} : (check (.ok a) : Reader τ ε α) s = .ok (a, s) := rfl

@[simp] theorem check_error {e : ε} : (check (.error e) : Reader τ ε α) s = .error e := rfl

theorem next_eq_ok {stop : ε} {t : τ} : next stop s = .ok (t, s') ↔ s = t :: s' := by
  cases s <;> simp

theorem check_eq_ok {c : Except ε α} {a : α} : check c s = .ok (a, s') ↔ c = .ok a ∧ s' = s := by
  cases c <;> simp [eq_comm]

theorem reraise_eq_ok [DecidableEq ε] {e e' : ε} {r : α × List τ} :
    reraise e e' p s = .ok r ↔ p s = .ok r := by
  unfold reraise
  cases p s <;> simp

/-- A reader that returns came through both of its parts. -/
theorem bind_ok {b : β} :
    (p >>= f) s = .ok (b, s') ↔ ∃ a s₁, p s = .ok (a, s₁) ∧ f a s₁ = .ok (b, s') := by
  rw [bind_apply, bind_eq_ok, Prod.exists]

theorem return_ok {g : α → β} {b : β} :
    (do return g (← p) : Reader τ ε β) s = .ok (b, s') ↔ ∃ a, p s = .ok (a, s') ∧ b = g a := by
  rw [bind_ok]
  simp only [pure_apply, Except.ok.injEq, Prod.mk.injEq]
  constructor
  · intro ⟨a, s₁, hp, hb, hs⟩
    exact ⟨a, hs ▸ hp, hb.symm⟩
  · intro ⟨a, hp, hb⟩
    exact ⟨a, s', hp, hb.symm, rfl⟩

/-- A test that guards the rest of a reader has to fail for it to return. -/
theorem ite_throw_ok {P : Prop} [Decidable P] {e : ε} {q : Reader τ ε β} {k : α → Reader τ ε β}
    {r : β × List τ} :
    (if P then (throw e : Reader τ ε α) >>= k else q) s = .ok r ↔ ¬ P ∧ q s = .ok r := by
  by_cases h : P <;> simp [h]

/-! ### Exact reading -/

/-- `p` takes `enc` off the front of any input and returns `a`. -/
def Reads (p : Reader τ ε α) (enc : List τ) (a : α) : Prop := ∀ s, p (enc ++ s) = .ok (a, s)

theorem Reads.pure (a : α) : Reads (pure a : Reader τ ε α) [] a := fun _ => rfl

theorem Reads.bind {enc enc' : List τ} {a : α} {b : β} (hp : Reads p enc a)
    (hf : Reads (f a) enc' b) : Reads (p >>= f) (enc ++ enc') b := by
  intro s
  rw [bind_apply, List.append_assoc, hp (enc' ++ s), ok_bind]
  exact hf s

theorem Reads.upTo (enc : List τ) : Reads (upTo enc.length : Reader τ ε _) enc enc := by
  intro s
  simp

/-! ### Progress -/

/-- Every successful read takes at least `n` items. -/
def Consumes (n : Nat) (p : Reader τ ε α) : Prop :=
  ∀ s a s', p s = .ok (a, s') → s'.length + n ≤ s.length

theorem Consumes.bind {m n : Nat} (hp : Consumes m p) (hf : ∀ a, Consumes n (f a)) :
    Consumes (m + n) (p >>= f) := by
  intro s b s' h
  obtain ⟨a, s₁, h₁, h₂⟩ := bind_ok.mp h
  have := hp s a s₁ h₁
  have := hf a s₁ b s' h₂
  omega

theorem Consumes.mono {m n : Nat} (hp : Consumes n p) (h : m ≤ n) : Consumes m p := by
  intro s a s' hs
  have := hp s a s' hs
  omega

theorem consumes_pure (a : α) : Consumes 0 (pure a : Reader τ ε α) := by
  intro s b s' h
  simp only [pure_apply, Except.ok.injEq, Prod.mk.injEq] at h
  rw [h.2, Nat.add_zero]

theorem consumes_next (stop : ε) : Consumes 1 (next stop : Reader τ ε τ) := by
  intro s t s' h
  rw [next_eq_ok.mp h, List.length_cons]

theorem consumes_peek (stop : ε) : Consumes 0 (peek stop : Reader τ ε τ) := by
  intro s t s' h
  cases s with
  | nil => simp at h
  | cons u s =>
      simp only [peek_cons, Except.ok.injEq, Prod.mk.injEq] at h
      rw [← h.2, Nat.add_zero]

theorem consumes_check (c : Except ε α) : Consumes 0 (check c : Reader τ ε α) := by
  intro s a s' h
  rw [(check_eq_ok.mp h).2, Nat.add_zero]

theorem Consumes.reraise [DecidableEq ε] {n : Nat} (hp : Consumes n p) (e e' : ε) :
    Consumes n (reraise e e' p) :=
  fun s a s' h => hp s a s' (reraise_eq_ok.mp h)

/-- A reader returns a shorter input. -/
theorem Consumes.lt {a : α} (hp : Consumes 1 p) (h : p s = .ok (a, s')) : s'.length < s.length :=
  hp s a s' h

/-! ### Reading to the end -/

/-- Run `p` again and again until it raises `stop`. -/
def readAll [DecidableEq ε] (stop : ε) (p : Reader τ ε α) (hp : Consumes 1 p) (s : List τ) :
    Except ε (List α) :=
  match _h : p s with
  | .ok (a, s') => (readAll stop p hp s').map (a :: ·)
  | .error e => if e = stop then .ok [] else .error e
termination_by s.length
decreasing_by exact hp.lt _h

/-- `p` reads the items `as` off `s`, one after the other, and then raises `stop`. -/
inductive ReadsAll (stop : ε) (p : Reader τ ε α) : List τ → List α → Prop
  | done {s : List τ} (h : p s = .error stop) : ReadsAll stop p s []
  | more {s s' : List τ} {a : α} {as : List α} (h : p s = .ok (a, s'))
      (hs : ReadsAll stop p s' as) : ReadsAll stop p s (a :: as)

section ReadAll

variable [DecidableEq ε] {stop : ε} {hp : Consumes 1 p}

theorem readAll_of_ok {a : α} (h : p s = .ok (a, s')) :
    readAll stop p hp s = (readAll stop p hp s').map (a :: ·) := by
  rw [readAll]
  split
  · rename_i a₁ s₁ h₁
    rw [h, Except.ok.injEq, Prod.mk.injEq] at h₁
    rw [← h₁.1, ← h₁.2]
  · rename_i e he
    rw [h] at he
    cases he

theorem readAll_of_error {e : ε} (h : p s = .error e) :
    readAll stop p hp s = if e = stop then .ok [] else .error e := by
  rw [readAll]
  split
  · rename_i a₁ s₁ h₁
    rw [h] at h₁
    cases h₁
  · rename_i e' he
    rw [h, Except.error.injEq] at he
    rw [he]

theorem readAll_eq_ok {as : List α} : readAll stop p hp s = .ok as ↔ ReadsAll stop p s as := by
  refine ⟨fun h => ?_, fun h => ?_⟩
  · induction hn : s.length using Nat.strong_induction_on generalizing s as with
    | _ n ih =>
        cases hs : p s with
        | ok r =>
            obtain ⟨a, s'⟩ := r
            rw [readAll_of_ok hs] at h
            cases hr : readAll stop p hp s' with
            | ok as' =>
                rw [hr, Except.map, Except.ok.injEq] at h
                rw [← h]
                exact .more hs (ih s'.length (hn ▸ hp.lt hs) hr rfl)
            | error e =>
                rw [hr] at h
                cases h
        | error e =>
            rw [readAll_of_error hs] at h
            by_cases he : e = stop
            · rw [if_pos he, Except.ok.injEq] at h
              rw [← h]
              exact .done (he ▸ hs)
            · rw [if_neg he] at h
              cases h
  · induction h with
    | done h => rw [readAll_of_error h, if_pos rfl]
    | more h _ ih => rw [readAll_of_ok h, ih, Except.map]

/-- Items written one after the other are read back. -/
theorem readAll_flatMap {γ : Type} {enc : γ → List τ} {val : γ → α} {xs : List γ}
    (hr : ∀ x ∈ xs, Reads p (enc x) (val x)) (hstop : p [] = .error stop) :
    readAll stop p hp (xs.flatMap enc) = .ok (xs.map val) := by
  induction xs with
  | nil => rw [List.flatMap_nil, readAll_of_error hstop, if_pos rfl, List.map_nil]
  | cons x xs ih =>
      rw [List.flatMap_cons, readAll_of_ok (hr x (by simp) (xs.flatMap enc)),
        ih fun y hy => hr y (by simp [hy]), Except.map, List.map_cons]

end ReadAll

end Reader

end HttpGarden.Lib
