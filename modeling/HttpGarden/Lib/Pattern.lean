import Mathlib.Tactic
import Mathlib.Data.List.Basic

/-!
# HttpGarden.Lib.Pattern

**Backtracking patterns.** A pattern maps the input to the list of *all* its
matches at the front, in the order in which a backtracking engine would try
them; the match the engine reports is the first of that list (`first`). Greedy
repetition lists the longest run first, lazy repetition the shortest, and
sequencing is the list monad, so a choice that makes the rest fail is undone
exactly as the engine undoes it.

Two kinds of rule are provided for every combinator:

* *inversion* (`Matches.…`): what a match says about the input, whatever the
  order of the choices; and
* *forward* (`first_…`): which match comes first, for inputs where every greedy
  choice already succeeds.
-/

namespace HttpGarden.Lib

/-- All matches at the front of the input, best first: what was captured and
what is left of the input. -/
def Pattern (τ α : Type) := List τ → List (α × List τ)

namespace Pattern

variable {τ α β : Type}

instance : Monad (Pattern τ) where
  pure a := fun s => [(a, s)]
  bind p f := fun s => (p s).flatMap fun m => f m.1 m.2

/-- One token satisfying `c`. -/
def one (c : τ → Bool) : Pattern τ τ
  | t :: s => if c t then [(t, s)] else []
  | [] => []

/-- The exact token sequence `w`. -/
def word [DecidableEq τ] (w : List τ) : Pattern τ Unit := fun s =>
  if w <+: s then [((), s.drop w.length)] else []

/-- The matches that put one more `c`-token `t` in front of a run. -/
def extend (c : τ → Bool) (t : τ) (ms : List (List τ × List τ)) : List (List τ × List τ) :=
  if c t then ms.map fun m => (t :: m.1, m.2) else []

/-- Greedy `[c]*`. -/
def many (c : τ → Bool) : Pattern τ (List τ)
  | t :: s => extend c t (many c s) ++ [([], t :: s)]
  | [] => [([], [])]

/-- Lazy `[c]*?`. -/
def lazyMany (c : τ → Bool) : Pattern τ (List τ)
  | t :: s => ([], t :: s) :: extend c t (lazyMany c s)
  | [] => [([], [])]

/-- Greedy `[c]+`. -/
def many1 (c : τ → Bool) : Pattern τ (List τ) := do
  let t ← one c
  let x ← many c
  return t :: x

/-- Exactly `n` tokens, whatever they are. -/
def exactly (n : Nat) : Pattern τ (List τ) := fun s =>
  if n ≤ s.length then [(s.take n, s.drop n)] else []

/-- Greedy `(p)?`. -/
def opt (p : Pattern τ α) : Pattern τ (Option α) := fun s =>
  (p s).map (fun m => (some m.1, m.2)) ++ [(none, s)]

/-- The end of the input. -/
def eos : Pattern τ Unit
  | [] => [((), [])]
  | _ :: _ => []

/-- The match that the engine reports for a pattern anchored at the front. -/
def first (p : Pattern τ α) (s : List τ) : Option (α × List τ) := (p s).head?

/-- The leftmost match: what precedes it, its capture and what follows it. -/
def search (p : Pattern τ α) : List τ → Option (List τ × α × List τ)
  | [] => (p.first []).map fun m => ([], m.1, m.2)
  | t :: s =>
    match p.first (t :: s) with
    | some m => some ([], m.1, m.2)
    | none => (search p s).map fun m => (t :: m.1, m.2)

/-- `p` matches some front part of `s`, leaving `s'`, in one of its choices. -/
def Matches (p : Pattern τ α) (s : List τ) (a : α) (s' : List τ) : Prop := (a, s') ∈ p s

/-- Every match consumes at least one token. -/
def Progress (p : Pattern τ α) : Prop :=
  ∀ s a s', p.Matches s a s' → s'.length < s.length

/-! ### Inversion rules -/

theorem matches_of_first {p : Pattern τ α} {s a s'} (h : p.first s = some (a, s')) :
    p.Matches s a s' :=
  List.mem_of_mem_head? (by simpa [first] using h)

@[simp] theorem matches_pure {a b : α} {s s' : List τ} :
    Matches (pure a) s b s' ↔ b = a ∧ s' = s := by
  show (b, s') ∈ [(a, s)] ↔ _
  simp

@[simp] theorem matches_bind {p : Pattern τ α} {f : α → Pattern τ β} {s b s'} :
    Matches (p >>= f) s b s' ↔ ∃ a s₁, p.Matches s a s₁ ∧ (f a).Matches s₁ b s' := by
  show (b, s') ∈ (p s).flatMap (fun m => f m.1 m.2) ↔ _
  simp [List.mem_flatMap, Matches]

@[simp] theorem matches_one {c : τ → Bool} {s a s'} :
    Matches (one c) s a s' ↔ s = a :: s' ∧ c a = true := by
  cases s with
  | nil => simp [Matches, one]
  | cons t s =>
      by_cases h : c t
      · simp only [Matches, one, h, if_true, List.mem_singleton, Prod.mk.injEq, List.cons.injEq]
        constructor
        · rintro ⟨rfl, rfl⟩; exact ⟨⟨rfl, rfl⟩, h⟩
        · rintro ⟨⟨rfl, rfl⟩, -⟩; exact ⟨rfl, rfl⟩
      · simp only [Matches, one, h, List.cons.injEq]
        constructor
        · intro hm; simp at hm
        · rintro ⟨⟨rfl, -⟩, hc⟩; exact absurd hc h

@[simp] theorem matches_word [DecidableEq τ] {w s : List τ} {a s'} :
    Matches (word w) s a s' ↔ s = w ++ s' := by
  unfold Matches word
  split
  · rename_i h
    obtain ⟨r, rfl⟩ := h
    simp [eq_comm]
  · rename_i h
    constructor
    · intro hm; simp at hm
    · rintro rfl; exact absurd (List.prefix_append w s') h

theorem mem_extend {c : τ → Bool} {t : τ} {ms : List (List τ × List τ)} {x s'} :
    (x, s') ∈ extend c t ms ↔ c t = true ∧ ∃ y, x = t :: y ∧ (y, s') ∈ ms := by
  unfold extend
  split
  · rename_i h
    rw [List.mem_map]
    constructor
    · intro ⟨⟨y, s₁⟩, hm, heq⟩
      simp only [Prod.mk.injEq] at heq
      obtain ⟨rfl, rfl⟩ := heq
      exact ⟨h, y, rfl, hm⟩
    · rintro ⟨-, y, rfl, hm⟩
      exact ⟨(y, s'), hm, rfl⟩
  · rename_i h
    simp [h]

theorem run_nil_iff {c : τ → Bool} {x s' : List τ} :
    ([] = x ++ s' ∧ ∀ u ∈ x, c u = true) ↔ x = [] ∧ s' = [] := by
  cases x <;> simp

/-- A run of `c`-tokens at the front, peeled off token by token. -/
theorem run_cons_iff {c : τ → Bool} {t : τ} {s x s' : List τ} :
    (t :: s = x ++ s' ∧ ∀ u ∈ x, c u = true) ↔
      (c t = true ∧ ∃ y, x = t :: y ∧ s = y ++ s' ∧ ∀ u ∈ y, c u = true) ∨
      (x = [] ∧ s' = t :: s) := by
  cases x with
  | nil => simpa using eq_comm
  | cons v x =>
      simp only [List.cons_append, List.cons.injEq, List.mem_cons, forall_eq_or_imp]
      constructor
      · intro ⟨⟨rfl, hs⟩, hc, hall⟩
        exact Or.inl ⟨hc, x, ⟨rfl, rfl⟩, hs, hall⟩
      · rintro (⟨hc, y, ⟨rfl, rfl⟩, hs, hall⟩ | ⟨h, -⟩)
        · exact ⟨⟨rfl, hs⟩, hc, hall⟩
        · cases h

theorem matches_many {c : τ → Bool} {s x s'} :
    Matches (many c) s x s' ↔ s = x ++ s' ∧ ∀ t ∈ x, c t = true := by
  induction s generalizing x with
  | nil => simp only [run_nil_iff, Matches, many, List.mem_singleton, Prod.mk.injEq]
  | cons t s ih =>
      have ih' : ∀ y, (y, s') ∈ many c s ↔ s = y ++ s' ∧ ∀ t ∈ y, c t = true := fun y => ih
      rw [run_cons_iff]
      simp only [Matches, many, List.mem_append, mem_extend, ih', List.mem_singleton,
        Prod.mk.injEq]

theorem matches_lazyMany {c : τ → Bool} {s x s'} :
    Matches (lazyMany c) s x s' ↔ s = x ++ s' ∧ ∀ t ∈ x, c t = true := by
  induction s generalizing x with
  | nil => simp only [run_nil_iff, Matches, lazyMany, List.mem_singleton, Prod.mk.injEq]
  | cons t s ih =>
      have ih' : ∀ y, (y, s') ∈ lazyMany c s ↔ s = y ++ s' ∧ ∀ t ∈ y, c t = true := fun y => ih
      rw [run_cons_iff, or_comm]
      simp only [Matches, lazyMany, List.mem_cons, mem_extend, ih', Prod.mk.injEq]

theorem matches_many1 {c : τ → Bool} {s x s'} :
    Matches (many1 c) s x s' ↔ x ≠ [] ∧ s = x ++ s' ∧ ∀ t ∈ x, c t = true := by
  simp only [many1, matches_bind, matches_one, matches_many, matches_pure]
  constructor
  · rintro ⟨t, s₁, ⟨rfl, hc⟩, y, s₂, ⟨rfl, hall⟩, rfl, rfl⟩
    exact ⟨by simp, rfl, by simpa using ⟨hc, hall⟩⟩
  · rintro ⟨hne, rfl, hall⟩
    obtain ⟨t, y, rfl⟩ := List.exists_cons_of_ne_nil hne
    simp only [List.mem_cons, forall_eq_or_imp] at hall
    exact ⟨t, y ++ s', ⟨rfl, hall.1⟩, y, s', ⟨rfl, hall.2⟩, rfl, rfl⟩

theorem matches_exactly {n : Nat} {s x s' : List τ} :
    Matches (exactly n) s x s' ↔ s = x ++ s' ∧ x.length = n := by
  unfold Matches exactly
  split
  · rename_i h
    simp only [List.mem_singleton, Prod.mk.injEq]
    constructor
    · rintro ⟨rfl, rfl⟩; exact ⟨(List.take_append_drop n s).symm, by simpa using h⟩
    · rintro ⟨rfl, rfl⟩; simp
  · rename_i h
    simp only [List.not_mem_nil, false_iff]
    rintro ⟨rfl, rfl⟩
    simp at h

@[simp] theorem matches_opt {p : Pattern τ α} {s a s'} :
    Matches (opt p) s a s' ↔ (∃ b, a = some b ∧ p.Matches s b s') ∨ (a = none ∧ s' = s) := by
  unfold Matches opt
  rw [List.mem_append, List.mem_map]
  constructor
  · rintro (⟨m, hm, heq⟩ | h)
    · simp only [Prod.mk.injEq] at heq
      obtain ⟨rfl, rfl⟩ := heq
      exact Or.inl ⟨m.1, rfl, hm⟩
    · right; simpa using h
  · rintro (⟨b, rfl, hm⟩ | ⟨rfl, rfl⟩)
    · exact Or.inl ⟨(b, s'), hm, rfl⟩
    · right; simp

@[simp] theorem matches_eos {s : List τ} {a s'} : Matches eos s a s' ↔ s = [] ∧ s' = [] := by
  cases s <;> simp [Matches, eos]

/-! ### Forward rules -/

theorem first_eq_none_iff {p : Pattern τ α} {s} :
    p.first s = none ↔ ∀ a s', ¬ p.Matches s a s' := by
  rw [first, List.head?_eq_none_iff, List.eq_nil_iff_forall_not_mem]
  exact ⟨fun h a s' => h (a, s'), fun h m => h m.1 m.2⟩

theorem first_isSome_of_matches {p : Pattern τ α} {s a s'} (h : p.Matches s a s') :
    (p.first s).isSome := by
  cases hf : p.first s with
  | none => exact absurd h (first_eq_none_iff.mp hf a s')
  | some m => rfl

/-- A pattern with only one possible match reports it. -/
theorem first_of_unique {p : Pattern τ α} {s a s'} (h : p.Matches s a s')
    (hu : ∀ b s₁, p.Matches s b s₁ → b = a ∧ s₁ = s') : p.first s = some (a, s') := by
  obtain ⟨⟨b, s₁⟩, hf⟩ := Option.isSome_iff_exists.mp (first_isSome_of_matches h)
  obtain ⟨rfl, rfl⟩ := hu b s₁ (matches_of_first hf)
  exact hf

/-- If the preferred choice of `p` lets the rest succeed, it is kept. -/
theorem first_bind {p : Pattern τ α} {f : α → Pattern τ β} {s a s₁ m}
    (hp : p.first s = some (a, s₁)) (hf : (f a).first s₁ = some m) :
    first (p >>= f) s = some m := by
  obtain ⟨ms, hps⟩ : ∃ ms, p s = (a, s₁) :: ms := by
    cases h : p s with
    | nil => simp [first, h] at hp
    | cons x xs => simp [first, h] at hp; exact ⟨xs, by rw [hp]⟩
  obtain ⟨ns, hfs⟩ : ∃ ns, f a s₁ = m :: ns := by
    cases h : f a s₁ with
    | nil => simp [first, h] at hf
    | cons x xs => simp [first, h] at hf; exact ⟨xs, by rw [hf]⟩
  show ((p s).flatMap fun x => f x.1 x.2).head? = _
  rw [hps, List.flatMap_cons, hfs]
  rfl

theorem first_one {c : τ → Bool} {t : τ} (h : c t = true) (s : List τ) :
    (one c).first (t :: s) = some (t, s) := by
  simp [first, one, h]

theorem first_word [DecidableEq τ] (w s : List τ) : (word w).first (w ++ s) = some ((), s) :=
  first_of_unique (by simp) (by simp [eq_comm])

/-- No token at the front of `s` satisfies `c`. -/
def Stops (c : τ → Bool) (s : List τ) : Prop := ∀ t ∈ s.head?, c t = false

@[simp] theorem stops_nil (c : τ → Bool) : Stops c [] := by simp [Stops]

@[simp] theorem stops_cons {c : τ → Bool} {t : τ} {s : List τ} :
    Stops c (t :: s) ↔ c t = false := by simp [Stops]

/-- A greedy run takes everything up to the first token outside the class. -/
theorem first_many {c : τ → Bool} {x s : List τ} (hx : ∀ t ∈ x, c t = true) (hs : Stops c s) :
    (many c).first (x ++ s) = some (x, s) := by
  induction x with
  | nil =>
      cases s with
      | nil => rfl
      | cons t s => simp [first, many, extend, stops_cons.mp hs]
  | cons u x ih =>
      have hrun := ih fun t ht => hx t (by simp [ht])
      simp only [first] at hrun
      simp [first, many, extend, hx u (by simp), hrun]

/-- Where a run ends is settled by the input. -/
theorem run_inj {c : τ → Bool} {x x' s s' : List τ} (hx : ∀ t ∈ x, c t = true)
    (hx' : ∀ t ∈ x', c t = true) (hs : Stops c s) (hs' : Stops c s') (h : x ++ s = x' ++ s') :
    x = x' ∧ s = s' := by
  have hfirst := first_many hx hs
  rw [h, first_many hx' hs', Option.some.injEq, Prod.mk.injEq] at hfirst
  exact ⟨hfirst.1.symm, hfirst.2.symm⟩

theorem first_many1 {c : τ → Bool} {x s : List τ} (hne : x ≠ []) (hx : ∀ t ∈ x, c t = true)
    (hs : Stops c s) : (many1 c).first (x ++ s) = some (x, s) := by
  obtain ⟨t, y, rfl⟩ := List.exists_cons_of_ne_nil hne
  simp only [List.mem_cons, forall_eq_or_imp] at hx
  exact first_bind (first_one hx.1 (y ++ s)) (first_bind (first_many hx.2 hs) rfl)

theorem first_exactly {x s : List τ} : (exactly x.length).first (x ++ s) = some (x, s) := by
  simp [first, exactly]

theorem first_opt_some {p : Pattern τ α} {s a s'} (h : p.first s = some (a, s')) :
    (opt p).first s = some (some a, s') := by
  simp only [first] at h
  simp [first, opt, h]

/-- The rest of a pattern after a lazy run sees the shortest run for which it
succeeds. -/
theorem first_lazyMany_bind {c : τ → Bool} {f : List τ → Pattern τ β} {x s : List τ} {m}
    (hx : ∀ t ∈ x, c t = true) (hf : (f x).first s = some m)
    (hshort : ∀ x₁ x₂, x = x₁ ++ x₂ → x₂ ≠ [] → (f x₁).first (x₂ ++ s) = none) :
    first (lazyMany c >>= f) (x ++ s) = some m := by
  induction x generalizing f with
  | nil =>
      have hhead : (lazyMany c).first s = some ([], s) := by cases s <;> rfl
      exact first_bind hhead hf
  | cons u x ih =>
      have hrec : first (lazyMany c >>= fun y => f (u :: y)) (x ++ s) = some m := by
        apply ih (fun t ht => hx t (by simp [ht])) hf
        intro x₁ x₂ heq hne
        exact hshort (u :: x₁) x₂ (by rw [heq]; rfl) hne
      have hnil : f [] (u :: (x ++ s)) = [] := by
        have := hshort [] (u :: x) rfl (by simp)
        rwa [first, List.head?_eq_none_iff] at this
      show ((lazyMany c (u :: (x ++ s))).flatMap fun y => f y.1 y.2).head? = some m
      rw [lazyMany, extend, if_pos (hx u (by simp)), List.flatMap_cons, hnil, List.nil_append,
        List.flatMap_map]
      exact hrec

/-- The rest of a pattern after a greedy run sees the longest run for which it
succeeds. -/
theorem first_many_bind {c : τ → Bool} {f : List τ → Pattern τ β} {x s : List τ} {m}
    (hx : ∀ t ∈ x, c t = true) (hf : (f x).first s = some m)
    (hlong : ∀ y s', s = y ++ s' → y ≠ [] → (∀ t ∈ y, c t = true) → (f (x ++ y)).first s' = none) :
    first (many c >>= f) (x ++ s) = some m := by
  induction x generalizing f with
  | nil =>
      have hrun : ∀ y s', (y, s') ∈ many c s → y ≠ [] → f y s' = [] := by
        intro y s' hmem hne
        obtain ⟨heq, hy⟩ := matches_many.mp hmem
        have hnone := hlong y s' heq hne hy
        rwa [first, List.nil_append, List.head?_eq_none_iff] at hnone
      show ((many c s).flatMap fun y => f y.1 y.2).head? = some m
      cases s with
      | nil => simpa [many, first] using hf
      | cons t s =>
          have hlonger : (extend c t (many c s)).flatMap (fun y => f y.1 y.2) = [] := by
            rw [List.flatMap_eq_nil_iff]
            intro y hy
            obtain ⟨-, y', hy', -⟩ := mem_extend.mp hy
            exact hrun y.1 y.2 (List.mem_append_left _ hy) (hy' ▸ List.cons_ne_nil t y')
          rw [many, List.flatMap_append, hlonger]
          simpa [first] using hf
  | cons u x ih =>
      have hrec : first (many c >>= fun y => f (u :: y)) (x ++ s) = some m :=
        ih (fun t ht => hx t (by simp [ht])) hf hlong
      obtain ⟨ms, hms⟩ : ∃ ms, (many c (x ++ s)).flatMap (fun y => f (u :: y.1) y.2) = m :: ms :=
        List.head?_eq_some_iff.mp hrec
      show ((many c (u :: (x ++ s))).flatMap fun y => f y.1 y.2).head? = some m
      rw [many, extend, if_pos (hx u (by simp)), List.flatMap_append, List.flatMap_map, hms]
      rfl

theorem first_many1_bind {c : τ → Bool} {f : List τ → Pattern τ β} {x s : List τ} {m}
    (hne : x ≠ []) (hx : ∀ t ∈ x, c t = true) (hf : (f x).first s = some m)
    (hlong : ∀ y s', s = y ++ s' → y ≠ [] → (∀ t ∈ y, c t = true) → (f (x ++ y)).first s' = none) :
    first (many1 c >>= f) (x ++ s) = some m := by
  obtain ⟨t, x, rfl⟩ := List.exists_cons_of_ne_nil hne
  have hrun : first (many c >>= fun y => f (t :: y)) (x ++ s) = some m :=
    first_many_bind (fun u hu => hx u (by simp [hu])) hf hlong
  have hmany1 : many1 c (t :: (x ++ s)) = (many c (x ++ s)).map fun m => (t :: m.1, m.2) := by
    show (one c (t :: (x ++ s))).flatMap _ = _
    rw [one, if_pos (hx t (by simp)), List.flatMap_singleton, List.map_eq_flatMap]
    rfl
  show ((many1 c (t :: (x ++ s))).flatMap fun y => f y.1 y.2).head? = some m
  rw [hmany1, List.flatMap_map]
  exact hrun

/-! ### Searching -/

theorem search_of_first {p : Pattern τ α} {s a s'} (h : p.first s = some (a, s')) :
    p.search s = some ([], a, s') := by
  cases s with
  | nil => simp [search, h]
  | cons t s => simp [search, h]

theorem search_cons_of_none {p : Pattern τ α} {t : τ} {s} (h : p.first (t :: s) = none) :
    p.search (t :: s) = (p.search s).map fun m => (t :: m.1, m.2) := by
  simp [search, h]

/-- A search result splits the input around a match. -/
theorem search_sound {p : Pattern τ α} {s pre a s'} (h : p.search s = some (pre, a, s')) :
    ∃ mid, s = pre ++ mid ∧ p.first mid = some (a, s') := by
  induction s generalizing pre with
  | nil =>
      simp only [search, Option.map_eq_some_iff] at h
      obtain ⟨⟨b, s₁⟩, hf, heq⟩ := h
      simp only [Prod.mk.injEq] at heq
      obtain ⟨rfl, rfl, rfl⟩ := heq
      exact ⟨[], rfl, hf⟩
  | cons t s ih =>
      rw [search] at h
      split at h
      · rename_i m hf
        simp only [Option.some.injEq, Prod.mk.injEq] at h
        obtain ⟨rfl, rfl, rfl⟩ := h
        exact ⟨t :: s, rfl, hf⟩
      · simp only [Option.map_eq_some_iff] at h
        obtain ⟨⟨pre', b, s₁⟩, hs, heq⟩ := h
        simp only [Prod.mk.injEq] at heq
        obtain ⟨rfl, rfl, rfl⟩ := heq
        obtain ⟨mid, rfl, hf⟩ := ih hs
        exact ⟨mid, rfl, hf⟩

theorem search_length_lt {p : Pattern τ α} (hp : p.Progress) {s pre a s'}
    (h : p.search s = some (pre, a, s')) : s'.length < s.length := by
  obtain ⟨mid, rfl, hf⟩ := search_sound h
  have := hp _ _ _ (matches_of_first hf)
  simp only [List.length_append]
  omega

/-- The pieces between successive leftmost matches. -/
def split (p : Pattern τ α) (hp : p.Progress) (s : List τ) : List (List τ) :=
  match _h : p.search s with
  | none => [s]
  | some (pre, _, s') => pre :: split p hp s'
termination_by s.length
decreasing_by exact search_length_lt hp _h

theorem split_of_search_none {p : Pattern τ α} (hp : p.Progress) {s}
    (h : p.search s = none) : p.split hp s = [s] := by
  rw [split]
  split
  · rfl
  · rename_i heq; rw [h] at heq; cases heq

theorem split_of_search_some {p : Pattern τ α} (hp : p.Progress) {s pre a s'}
    (h : p.search s = some (pre, a, s')) : p.split hp s = pre :: p.split hp s' := by
  rw [split]
  split
  · rename_i heq; rw [h] at heq; cases heq
  · rename_i heq
    rw [h] at heq
    cases heq
    rfl

/-- Every leftmost match is replaced by `u`. -/
def sub (p : Pattern τ α) (hp : p.Progress) (u s : List τ) : List τ :=
  match _h : p.search s with
  | none => s
  | some (pre, _, s') => pre ++ (u ++ sub p hp u s')
termination_by s.length
decreasing_by exact search_length_lt hp _h

theorem sub_of_search_none {p : Pattern τ α} (hp : p.Progress) {u s}
    (h : p.search s = none) : p.sub hp u s = s := by
  rw [sub]
  split
  · rfl
  · rename_i heq; rw [h] at heq; cases heq

theorem sub_of_search_some {p : Pattern τ α} (hp : p.Progress) {u s pre a s'}
    (h : p.search s = some (pre, a, s')) : p.sub hp u s = pre ++ (u ++ p.sub hp u s') := by
  rw [sub]
  split
  · rename_i heq; rw [h] at heq; cases heq
  · rename_i heq
    rw [h] at heq
    cases heq
    rfl

/-- What the search passes over stays as it is. -/
theorem sub_append {p : Pattern τ α} (hp : p.Progress) {u t s}
    (h : p.search (t ++ s) = (p.search s).map fun m => (t ++ m.1, m.2)) :
    p.sub hp u (t ++ s) = t ++ p.sub hp u s := by
  cases hs : p.search s with
  | none =>
      rw [hs] at h
      rw [sub_of_search_none hp h, sub_of_search_none hp hs]
  | some m =>
      obtain ⟨pre, a, s'⟩ := m
      rw [hs] at h
      rw [sub_of_search_some hp h, sub_of_search_some hp hs, List.append_assoc]

end Pattern

end HttpGarden.Lib
