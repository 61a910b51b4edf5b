import HttpGarden.Lib.Reader

/-!
# HttpGarden.Lib.ReadUntil

**Reading up to a mark.** A reader that returns an item, or `none` at a mark, is run until the mark,
and the items are folded on the way.

* `ReadsSome` is the relation of reading one item after the other.
* `foldUntil_eq_ok`, `foldUntil_eq_error`: what the loop returns and what it raises.
* `readsSome_iff`: from how one item is spelled to how a list of them is.
* `ReadsSome.unique`: an input is read as one list of items.
-/

namespace HttpGarden.Lib.Reader

variable {τ ε α σ : Type} {p : Reader τ ε (Option α)} {s s' s₁ s₂ : List τ} {as as' : List α}

/-- An item takes something off the input. -/
def Advances (p : Reader τ ε (Option α)) : Prop :=
  ∀ s a s', p s = .ok (some a, s') → s'.length < s.length

/-- Items are read, and folded, until the mark. -/
def foldUntil (p : Reader τ ε (Option α)) (hp : Advances p) (f : σ → α → σ) (acc : σ) :
    Reader τ ε σ := fun s =>
  match _h : p s with
  | .error e => .error e
  | .ok (none, s') => .ok (acc, s')
  | .ok (some a, s') => foldUntil p hp f (f acc a) s'
termination_by s => s.length
decreasing_by exact hp _ _ _ _h

/-- These items are read one after the other, and this input is left. -/
inductive ReadsSome (p : Reader τ ε (Option α)) : List τ → List α → List τ → Prop
  | nil (s : List τ) : ReadsSome p s [] s
  | cons {s s₁ s' : List τ} {a : α} {as : List α} (h : p s = .ok (some a, s₁))
      (hs : ReadsSome p s₁ as s') : ReadsSome p s (a :: as) s'

variable {hp : Advances p} {f : σ → α → σ} {acc : σ}

theorem foldUntil_of_some {a : α} (h : p s = .ok (some a, s')) :
    foldUntil p hp f acc s = foldUntil p hp f (f acc a) s' := by
  rw [foldUntil]
  split
  · next e he =>
      rw [h] at he
      cases he
  · next t ht =>
      rw [h] at ht
      cases ht
  · next b t ht =>
      rw [h] at ht
      cases ht
      rfl

theorem foldUntil_of_none (h : p s = .ok (none, s')) :
    foldUntil p hp f acc s = .ok (acc, s') := by
  rw [foldUntil]
  split
  · next e he =>
      rw [h] at he
      cases he
  · next t ht =>
      rw [h] at ht
      cases ht
      rfl
  · next b t ht =>
      rw [h] at ht
      cases ht

theorem foldUntil_of_error {e : ε} (h : p s = .error e) : foldUntil p hp f acc s = .error e := by
  rw [foldUntil]
  split
  · next e' he =>
      rw [h] at he
      cases he
      rfl
  · next t ht =>
      rw [h] at ht
      cases ht
  · next b t ht =>
      rw [h] at ht
      cases ht

/-- The loop goes on behind what it has read. -/
theorem ReadsSome.foldUntil_eq (h : ReadsSome p s as s') :
    foldUntil p hp f acc s = foldUntil p hp f (as.foldl f acc) s' := by
  induction h generalizing acc with
  | nil s => rfl
  | cons h _ ih => rw [foldUntil_of_some h, ih, List.foldl_cons]

/-- **The loop comes to an end**: behind some items there is none. -/
theorem exists_readsSome (hp : Advances p) (s : List τ) :
    ∃ as s₁, ReadsSome p s as s₁ ∧ ∀ a s', p s₁ ≠ .ok (some a, s') := by
  induction hn : s.length using Nat.strong_induction_on generalizing s with
  | _ n ih =>
      by_cases hsome : ∃ a s', p s = .ok (some a, s')
      · obtain ⟨a, s', h⟩ := hsome
        obtain ⟨as, s₁, hreads, hend⟩ := ih s'.length (hn ▸ hp s a s' h) s' rfl
        exact ⟨a :: as, s₁, .cons h hreads, hend⟩
      · exact ⟨[], s, .nil s, fun a s' h => hsome ⟨a, s', h⟩⟩

/-- What the loop does is settled where it reads no item. -/
theorem foldUntil_cases (hp : Advances p) (f : σ → α → σ) (acc : σ) (s : List τ) :
    ∃ as s₁, ReadsSome p s as s₁ ∧
      ((∃ s', p s₁ = .ok (none, s') ∧ foldUntil p hp f acc s = .ok (as.foldl f acc, s')) ∨
        ∃ e, p s₁ = .error e ∧ foldUntil p hp f acc s = .error e) := by
  obtain ⟨as, s₁, hreads, hend⟩ := exists_readsSome hp s
  refine ⟨as, s₁, hreads, ?_⟩
  rw [hreads.foldUntil_eq]
  cases h : p s₁ with
  | error e => exact .inr ⟨e, rfl, foldUntil_of_error h⟩
  | ok r =>
      obtain ⟨a?, s'⟩ := r
      cases a? with
      | none => exact .inl ⟨s', rfl, foldUntil_of_none h⟩
      | some a => exact absurd h (hend a s')

theorem foldUntil_eq_ok {r : σ} : foldUntil p hp f acc s = .ok (r, s') ↔
    ∃ as s₁, ReadsSome p s as s₁ ∧ p s₁ = .ok (none, s') ∧ r = as.foldl f acc := by
  refine ⟨fun h => ?_, fun h => ?_⟩
  · obtain ⟨as, s₁, hreads, ⟨t, hnone, hok⟩ | ⟨e, -, herror⟩⟩ := foldUntil_cases hp f acc s
    · rw [hok] at h
      cases h
      exact ⟨as, s₁, hreads, hnone, rfl⟩
    · rw [herror] at h
      cases h
  · obtain ⟨as, s₁, hreads, hnone, rfl⟩ := h
    rw [hreads.foldUntil_eq, foldUntil_of_none hnone]

theorem foldUntil_eq_error {e : ε} : foldUntil p hp f acc s = .error e ↔
    ∃ as s₁, ReadsSome p s as s₁ ∧ p s₁ = .error e := by
  refine ⟨fun h => ?_, fun h => ?_⟩
  · obtain ⟨as, s₁, hreads, ⟨t, -, hok⟩ | ⟨e', he', herror⟩⟩ := foldUntil_cases hp f acc s
    · rw [hok] at h
      cases h
    · rw [herror] at h
      cases h
      exact ⟨as, s₁, hreads, he'⟩
  · obtain ⟨as, s₁, hreads, herror⟩ := h
    rw [hreads.foldUntil_eq, foldUntil_of_error herror]

/-- **One list of items**: what is read up to where no item is read. -/
theorem ReadsSome.unique (h : ReadsSome p s as s₁) (hend : ∀ a s', p s₁ ≠ .ok (some a, s'))
    (h' : ReadsSome p s as' s₂) (hend' : ∀ a s', p s₂ ≠ .ok (some a, s')) :
    as = as' ∧ s₁ = s₂ := by
  induction h generalizing as' with
  | nil s =>
      cases h' with
      | nil s => exact ⟨rfl, rfl⟩
      | cons h _ => exact absurd h (hend _ _)
  | cons h _ ih =>
      cases h' with
      | nil s => exact absurd h (hend' _ _)
      | cons h₁ hs =>
          rw [h] at h₁
          cases h₁
          obtain ⟨has, hrest⟩ := ih hend hs
          exact ⟨congrArg _ has, hrest⟩

/-- Items are spelled one after the other. -/
theorem readsSome_iff {P : List τ → α → Prop}
    (h : ∀ s a s', p s = .ok (some a, s') ↔ ∃ t, s = t ++ s' ∧ P t a) :
    ReadsSome p s as s' ↔ ∃ ts : List (List τ), s = ts.flatten ++ s' ∧ List.Forall₂ P ts as := by
  refine ⟨fun hreads => ?_, fun hspelled => ?_⟩
  · induction hreads with
    | nil s => exact ⟨[], rfl, .nil⟩
    | cons hread _ ih =>
        obtain ⟨t, rfl, ht⟩ := (h _ _ _).mp hread
        obtain ⟨ts, rfl, hts⟩ := ih
        exact ⟨t :: ts, by rw [List.flatten_cons, List.append_assoc], .cons ht hts⟩
  · obtain ⟨ts, rfl, hts⟩ := hspelled
    induction hts with
    | nil => exact .nil _
    | cons ht _ ih =>
        rw [List.flatten_cons, List.append_assoc]
        exact .cons ((h _ _ _).mpr ⟨_, rfl, ht⟩) ih

end HttpGarden.Lib.Reader
