import HttpGarden.Lib.Pattern

/-!
# HttpGarden.Lib.Settled

**Matches that do not depend on what follows the input.**

A backtracking engine looks ahead: whether a greedy run goes on, or where a search finds
its first match, is up to the bytes after the input. A pattern is *settled* on an input
when appending to the input only appends to what its matches leave.

`Leaves` is the condition under which a sequence of greedy runs is settled: every run meets,
within the input, a token that ends it.
-/

namespace HttpGarden.Lib

namespace Pattern

variable {τ α β : Type}

/-- Appending to `s` changes nothing but the rest of each match. -/
def Settled (p : Pattern τ α) (s : List τ) : Prop :=
  ∀ b, p (s ++ b) = (p s).map fun m => (m.1, m.2 ++ b)

theorem Settled.first_append {p : Pattern τ α} {s : List τ} (h : p.Settled s) (b : List τ) :
    p.first (s ++ b) = (p.first s).map fun m => (m.1, m.2 ++ b) := by
  rw [first, h b, List.head?_map]
  rfl

/-! ### Combinators -/

theorem settled_pure (a : α) (s : List τ) : (pure a : Pattern τ α).Settled s := fun _ => rfl

theorem Settled.bind {p : Pattern τ α} {f : α → Pattern τ β} {s : List τ} (hp : p.Settled s)
    (hf : ∀ a s', p.Matches s a s' → (f a).Settled s') : (p >>= f).Settled s := by
  intro b
  show (p (s ++ b)).flatMap (fun m => f m.1 m.2) = ((p s).flatMap fun m => f m.1 m.2).map _
  rw [hp b, List.flatMap_map, List.map_flatMap]
  exact List.flatMap_congr fun m hm => hf m.1 m.2 hm b

theorem settled_one {c : τ → Bool} {s : List τ} (hs : s ≠ []) : (one c).Settled s := by
  intro b
  obtain ⟨t, s, rfl⟩ := List.exists_cons_of_ne_nil hs
  cases h : c t <;> simp [one, h]

/-- The tokens of a word are compared until one differs. -/
theorem settled_word [DecidableEq τ] {w s : List τ} (hs : ∃ t ∈ s, t ∉ w) :
    (word w).Settled s := by
  obtain ⟨t, ht, hw⟩ := hs
  intro b
  by_cases h : w <+: s
  · obtain ⟨r, rfl⟩ := h
    rw [List.append_assoc]
    simp [word]
  · have happend : ¬ w <+: s ++ b := by
      intro hpre
      rcases List.prefix_or_prefix_of_prefix hpre (List.prefix_append s b) with h' | h'
      · exact h h'
      · exact hw (h'.subset ht)
    rw [word, word, if_neg h, if_neg happend]
    rfl

theorem extend_map (c : τ → Bool) (t : τ) (ms : List (List τ × List τ)) (b : List τ) :
    extend c t (ms.map fun m => (m.1, m.2 ++ b)) =
      (extend c t ms).map fun m => (m.1, m.2 ++ b) := by
  cases h : c t <;> simp [extend, h]

/-- A run is settled by a token that ends it. -/
theorem settled_many {c : τ → Bool} {s : List τ} (hs : ∃ t ∈ s, c t = false) :
    (many c).Settled s := by
  intro b
  induction s with
  | nil =>
      obtain ⟨t, ht, -⟩ := hs
      cases ht
  | cons u s ih =>
      show extend c u (many c (s ++ b)) ++ [([], u :: (s ++ b))] =
        (extend c u (many c s) ++ [([], u :: s)]).map _
      cases hu : c u with
      | false => simp [extend, hu]
      | true =>
          obtain ⟨t, ht, hc⟩ := hs
          have htail : t ∈ s := by
            rcases List.mem_cons.mp ht with rfl | ht
            · rw [hu] at hc
              cases hc
            · exact ht
          rw [ih ⟨t, htail, hc⟩, extend_map, List.map_append]
          rfl

theorem settled_many1 {c : τ → Bool} {s : List τ} (hs : ∃ t ∈ s, c t = false) :
    (many1 c).Settled s := by
  obtain ⟨t, ht, hc⟩ := hs
  refine (settled_one (List.ne_nil_of_mem ht)).bind fun u s' hm => ?_
  obtain ⟨rfl, hu⟩ := matches_one.mp hm
  refine Settled.bind (settled_many ⟨t, ?_, hc⟩) fun x s'' _ => settled_pure _ _
  rcases List.mem_cons.mp ht with rfl | ht
  · rw [hu] at hc
    cases hc
  · exact ht

theorem Settled.opt {p : Pattern τ α} {s : List τ} (hp : p.Settled s) : (opt p).Settled s := by
  intro b
  simp only [Pattern.opt, hp b, List.map_append, List.map_map, List.map_cons, List.map_nil]
  rfl

/-- A search is settled by the match it finds, if the pattern is settled up to there. -/
theorem search_append {p : Pattern τ α} {s pre : List τ} {a s'} (h : p.search s = some (pre, a, s'))
    (hp : ∀ x y, s = x ++ y → x <+: pre → p.Settled y) (b : List τ) :
    p.search (s ++ b) = some (pre, a, s' ++ b) := by
  induction s generalizing pre with
  | nil =>
      obtain ⟨mid, hnil, hf⟩ := search_sound h
      obtain ⟨rfl, rfl⟩ := List.append_eq_nil_iff.mp hnil.symm
      have happend := (hp [] [] rfl (List.nil_prefix)).first_append b
      rw [hf] at happend
      exact search_of_first happend
  | cons t s ih =>
      have happend := (hp [] (t :: s) rfl (List.nil_prefix)).first_append b
      cases hf : p.first (t :: s) with
      | some m =>
          obtain ⟨a', rest⟩ := m
          rw [search_of_first hf] at h
          cases h
          rw [hf] at happend
          exact search_of_first happend
      | none =>
          rw [search_cons_of_none hf] at h
          obtain ⟨⟨pre', a', s''⟩, hs, heq⟩ := Option.map_eq_some_iff.mp h
          cases heq
          rw [hf] at happend
          have hrec := ih hs fun x y hxy hx => hp (t :: x) y (by rw [hxy]; rfl)
            (List.cons_prefix_cons.mpr ⟨rfl, hx⟩)
          have hcons := search_cons_of_none (s := s ++ b) happend
          rw [hrec] at hcons
          exact hcons

/-! ### Leaving classes -/

/-- Reading `s`, every class of the list is left in turn. -/
def Leaves : List (τ → Bool) → List τ → Prop
  | [], _ => True
  | c :: cs, s => ∃ x y z, s = x ++ y :: z ∧ c y = false ∧ Leaves cs z

theorem Leaves.append_left {cs : List (τ → Bool)} {s : List τ} (h : Leaves cs s) (r : List τ) :
    Leaves cs (r ++ s) := by
  cases cs with
  | nil => trivial
  | cons c cs =>
      obtain ⟨x, y, z, rfl, hy, hz⟩ := h
      exact ⟨r ++ x, y, z, (List.append_assoc r x _).symm, hy, hz⟩

theorem Leaves.tail {c : τ → Bool} {cs : List (τ → Bool)} {s : List τ} (h : Leaves (c :: cs) s) :
    Leaves cs s := by
  obtain ⟨x, y, z, rfl, -, hz⟩ := h
  exact (hz.append_left [y]).append_left x

theorem Leaves.tail_of_cons {c : τ → Bool} {cs : List (τ → Bool)} {t : τ} {s : List τ}
    (h : Leaves (c :: cs) (t :: s)) : Leaves cs s := by
  obtain ⟨x, y, z, heq, -, hz⟩ := h
  cases x with
  | nil => exact (List.cons.inj heq).2 ▸ hz
  | cons v x =>
      rw [(List.cons.inj heq).2]
      exact (hz.append_left [y]).append_left x

/-- A run in a class does not leave it. -/
theorem Leaves.of_run {c : τ → Bool} {cs : List (τ → Bool)} {r s : List τ}
    (hr : ∀ t ∈ r, c t = true) (h : Leaves (c :: cs) (r ++ s)) : Leaves (c :: cs) s := by
  induction r with
  | nil => exact h
  | cons u r ih =>
      obtain ⟨hu, hr⟩ := List.forall_mem_cons.mp hr
      refine ih hr ?_
      obtain ⟨x, y, z, heq, hy, hz⟩ := h
      cases x with
      | nil =>
          obtain ⟨rfl, -⟩ := List.cons.inj heq
          rw [hu] at hy
          cases hy
      | cons v x => exact ⟨x, y, z, (List.cons.inj heq).2, hy, hz⟩

/-- A run outside a class leaves it at once. -/
theorem Leaves.append_run {c : τ → Bool} {cs : List (τ → Bool)} {r s : List τ} (hne : r ≠ [])
    (hr : ∀ t ∈ r, c t = false) (h : Leaves cs s) : Leaves (c :: cs) (r ++ s) := by
  obtain ⟨u, r, rfl⟩ := List.exists_cons_of_ne_nil hne
  exact ⟨[], u, r ++ s, rfl, hr u List.mem_cons_self, h.append_left r⟩

theorem Leaves.exists_mem {c : τ → Bool} {cs : List (τ → Bool)} {s : List τ}
    (h : Leaves (c :: cs) s) : ∃ t ∈ s, c t = false := by
  obtain ⟨x, y, z, rfl, hy, -⟩ := h
  exact ⟨y, List.mem_append_right x List.mem_cons_self, hy⟩

theorem leaves_singleton {c : τ → Bool} {s : List τ} :
    Leaves [c] s ↔ ∃ t ∈ s, c t = false := by
  refine ⟨Leaves.exists_mem, ?_⟩
  intro ⟨t, ht, hc⟩
  obtain ⟨x, z, rfl⟩ := List.append_of_mem ht
  exact ⟨x, t, z, rfl, hc, trivial⟩

/-- **A run and what comes after it** are settled if the input leaves the classes of both. -/
theorem Settled.many1_bind {c : τ → Bool} {cs : List (τ → Bool)} {f : List τ → Pattern τ β}
    {s : List τ} (hs : Leaves (c :: cs) s) (hf : ∀ x s', Leaves cs s' → (f x).Settled s') :
    (many1 c >>= f).Settled s := by
  refine (settled_many1 hs.exists_mem).bind fun x s' hm => hf x s' ?_
  obtain ⟨-, rfl, hx⟩ := matches_many1.mp hm
  exact (hs.of_run hx).tail

/-! ### The preferred run -/

theorem exists_of_first_bind {p : Pattern τ α} {f : α → Pattern τ β} {s : List τ} {m}
    (h : first (p >>= f) s = some m) : ∃ a s', p.Matches s a s' ∧ (f a).first s' = some m := by
  have hhead : ((p s).flatMap fun x => f x.1 x.2).head? = some m := h
  rw [List.head?_flatMap] at hhead
  obtain ⟨⟨a, s'⟩, hm, hf⟩ := List.exists_of_findSome?_eq_some hhead
  exact ⟨a, s', hm, hf⟩

/-- A greedy run is the longest after which the rest of the pattern succeeds. -/
theorem first_many_bind_longest {c : τ → Bool} {f : List τ → Pattern τ β} {s : List τ} {m}
    (h : first (many c >>= f) s = some m) : ∃ x s', s = x ++ s' ∧ (∀ t ∈ x, c t = true) ∧
      (f x).first s' = some m ∧ ∀ y z, s' = y ++ z → y ≠ [] → (∀ t ∈ y, c t = true) →
        (f (x ++ y)).first z = none := by
  induction s generalizing f with
  | nil =>
      obtain ⟨x, s', hm, hf⟩ := exists_of_first_bind h
      obtain ⟨hnil, hx⟩ := matches_many.mp hm
      obtain ⟨rfl, rfl⟩ := List.append_eq_nil_iff.mp hnil.symm
      refine ⟨[], [], rfl, hx, hf, fun y z hyz hy => ?_⟩
      exact absurd (List.append_eq_nil_iff.mp hyz.symm).1 hy
  | cons u s ih =>
      have hhead : ((extend c u (many c s)).flatMap (fun x => f x.1 x.2) ++
          ([([], u :: s)] : List (List τ × List τ)).flatMap fun x => f x.1 x.2).head? = some m := by
        rw [← List.flatMap_append]
        exact h
      have hextend (hu : c u = true) : (extend c u (many c s)).flatMap (fun x => f x.1 x.2) =
          (many c >>= fun x => f (u :: x) : Pattern τ β) s := by
        rw [extend, if_pos hu, List.flatMap_map]
        rfl
      cases hlong : (extend c u (many c s)).flatMap fun x => f x.1 x.2 with
      | cons m' ms =>
          rw [hlong] at hhead
          -- the run takes `u`, and what is said of its tail is said by induction
          cases hu : c u with
          | false =>
              rw [extend, if_neg (by simp [hu])] at hlong
              cases hlong
          | true =>
              rw [hextend hu] at hlong
              have hrec : first (many c >>= fun x => f (u :: x)) s = some m := by
                rw [first, hlong]
                exact hhead
              obtain ⟨x, s', rfl, hx, hf, hmax⟩ := ih hrec
              exact ⟨u :: x, s', rfl, List.forall_mem_cons.mpr ⟨hu, hx⟩, hf, hmax⟩
      | nil =>
          rw [hlong, List.nil_append, List.flatMap_singleton] at hhead
          refine ⟨[], u :: s, rfl, fun t ht => absurd ht List.not_mem_nil, hhead, ?_⟩
          intro y z hyz hy hc
          obtain ⟨v, y, rfl⟩ := List.exists_cons_of_ne_nil hy
          obtain ⟨rfl, rfl⟩ := List.cons.inj hyz
          obtain ⟨hu, hc⟩ := List.forall_mem_cons.mp hc
          rw [hextend hu] at hlong
          rw [List.nil_append, first_eq_none_iff]
          intro a s' hm
          have hmem : (a, s') ∈ (many c >>= fun x => f (u :: x) : Pattern τ β) (y ++ z) :=
            matches_bind.mpr ⟨y, z, matches_many.mpr ⟨rfl, hc⟩, hm⟩
          exact absurd (hlong ▸ hmem) List.not_mem_nil

theorem first_many1_bind_longest {c : τ → Bool} {f : List τ → Pattern τ β} {s : List τ} {m}
    (h : first (many1 c >>= f) s = some m) : ∃ x s', x ≠ [] ∧ s = x ++ s' ∧
      (∀ t ∈ x, c t = true) ∧ (f x).first s' = some m ∧
      ∀ y z, s' = y ++ z → y ≠ [] → (∀ t ∈ y, c t = true) → (f (x ++ y)).first z = none := by
  have hassoc : (many1 c >>= f) s = (one c >>= fun t => many c >>= fun x => f (t :: x)) s := by
    show ((one c s).flatMap fun m => (many c m.2).flatMap fun n => [(m.1 :: n.1, n.2)]).flatMap
        (fun m => f m.1 m.2) =
      (one c s).flatMap fun m => (many c m.2).flatMap fun n => f (m.1 :: n.1) n.2
    simp only [List.flatMap_assoc, List.flatMap_singleton]
  have hbind : first (one c >>= fun t => many c >>= fun x => f (t :: x)) s = some m := by
    rw [first, ← hassoc]
    exact h
  obtain ⟨t, s₁, hm, hrest⟩ := exists_of_first_bind hbind
  obtain ⟨rfl, ht⟩ := matches_one.mp hm
  obtain ⟨x, s', rfl, hx, hf, hmax⟩ := first_many_bind_longest hrest
  exact ⟨t :: x, s', List.cons_ne_nil t x, rfl, List.forall_mem_cons.mpr ⟨ht, hx⟩, hf, hmax⟩

end Pattern

end HttpGarden.Lib
