import HttpGarden.Diff.Heap

/-!
# HttpGarden.Diff.Effects

What a comparison does to the objects it is given, and when it leaves them alone.

* `normalizeRequestIn_spec` says once what normalizing an object can do: it
  produces the value `normalizeRequest` describes, and the object it was given is
  sorted in place when the pair of servers asks for no edit, and untouched
  otherwise.
* `categorizeDiscrepancyIn_spec` lifts this to a call: if every compared request
  *stays put* the heap keeps all its objects and the category is that of the
  values; if one does not, the call changes the header list of one of its
  arguments.
* `gridUndisturbed_iff` lifts it to the whole grid.

That the comparison on fresh copies computes `categorizeDiscrepancy` is
`categorizeFresh_eq`.
-/

namespace HttpGarden

open Lib

/-! ### Objects -/

namespace Heap

/-- All objects of `h` are in `h'`, unchanged. -/
def Keeps (h h' : Heap) : Prop := h.length ≤ h'.length ∧ ∀ i < h.length, h'.load i = h.load i

theorem Keeps.refl (h : Heap) : Keeps h h := ⟨le_rfl, fun _ _ => rfl⟩

theorem Keeps.trans {h₁ h₂ h₃ : Heap} (h12 : Keeps h₁ h₂) (h23 : Keeps h₂ h₃) : Keeps h₁ h₃ :=
  ⟨h12.1.trans h23.1, fun i hi => (h23.2 i (by have := h12.1; omega)).trans (h12.2 i hi)⟩

/-- Every object of `h` is in `h'`, unchanged or sorted. -/
def Sorts (h h' : Heap) : Prop :=
  h.length ≤ h'.length ∧
    ∀ i < h.length, h'.load i = h.load i ∨ h'.load i = sortRequest (h.load i)

theorem Keeps.sorts {h h' : Heap} (hk : Keeps h h') : Sorts h h' :=
  ⟨hk.1, fun i hi => Or.inl (hk.2 i hi)⟩

theorem sortRequest_idem (r : HTTPRequest) : sortRequest (sortRequest r) = sortRequest r := by
  have : sortHeaders (sortHeaders r.headers) = sortHeaders r.headers :=
    sortHeaders_eq_self_iff.mpr (List.pairwise_insertionSort headerLE r.headers)
  simp only [sortRequest, this]

theorem Sorts.trans {h₁ h₂ h₃ : Heap} (h12 : Sorts h₁ h₂) (h23 : Sorts h₂ h₃) :
    Sorts h₁ h₃ := by
  refine ⟨h12.1.trans h23.1, fun i hi => ?_⟩
  have hi2 : i < h₂.length := lt_of_lt_of_le hi h12.1
  rcases h12.2 i hi with e1 | e1 <;> rcases h23.2 i hi2 with e2 | e2 <;>
    simp only [e1, e2, sortRequest_idem, or_true, true_or]

/-- A changed object is sorted, and so stays as it is from then on. -/
theorem Sorts.changed {h₁ h₂ h₃ : Heap} (h12 : Sorts h₁ h₂) (h23 : Sorts h₂ h₃) {r : Ref}
    (hr : r < h₁.length) (hne : h₂.load r ≠ h₁.load r) : h₃.load r ≠ h₁.load r := by
  rcases h12.2 r hr with e | e
  · exact absurd e hne
  · rcases h23.2 r (lt_of_lt_of_le hr h12.1) with e' | e'
    · rwa [e']
    · rwa [e', e, sortRequest_idem, ← e]

theorem load_append_left {h : Heap} (new : Heap) {i : Ref} (hi : i < h.length) :
    load (h ++ new) i = h.load i := by
  simp [load, List.getD_eq_getElem?_getD, List.getElem?_append_left hi]

@[simp] theorem length_sort (h : Heap) (r : Ref) : (h.sort r).length = h.length := by
  simp [sort]

theorem load_sort_self {h : Heap} {r : Ref} (hr : r < h.length) :
    (h.sort r).load r = sortRequest (h.load r) := by
  simp [load, sort, List.getD_eq_getElem?_getD, hr]

theorem load_sort_of_ne (h : Heap) {r i : Ref} (hne : i ≠ r) : (h.sort r).load i = h.load i := by
  simp [load, sort, List.getD_eq_getElem?_getD, Ne.symm hne]

/-- A non-empty chain of edits ends in a new object. -/
theorem copyAll_spec (edits : List (HTTPRequest → HTTPRequest)) (h : Heap) (r : Ref)
    (hne : edits ≠ []) :
    ∃ new, (copyAll edits h r).2 = h ++ new ∧ h.length ≤ (copyAll edits h r).1 ∧
      (copyAll edits h r).1 < (copyAll edits h r).2.length ∧
      (copyAll edits h r).2.load (copyAll edits h r).1 =
        edits.foldl (fun x edit => edit x) (h.load r) := by
  induction edits generalizing h r with
  | nil => exact absurd rfl hne
  | cons edit edits ih =>
      have hload : (h ++ [edit (h.load r)]).load h.length = edit (h.load r) := by
        simp [load, List.getD_eq_getElem?_getD]
      by_cases hnil : edits = []
      · subst hnil
        exact ⟨[edit (h.load r)], rfl, le_rfl, by simp [copyAll, copy], hload⟩
      · obtain ⟨new, e1, e2, e3, e4⟩ := ih (h ++ [edit (h.load r)]) h.length hnil
        refine ⟨edit (h.load r) :: new, ?_, ?_, e3, ?_⟩
        · rw [show copyAll (edit :: edits) h r = copyAll edits (h ++ [edit (h.load r)]) h.length
            from rfl, e1]
          simp
        · have : h.length ≤ (h ++ [edit (h.load r)]).length := by simp
          exact this.trans e2
        · rw [hload] at e4
          exact e4

end Heap

open Heap

/-! ### Normalizing an object -/

/-- The edits that `normalize_request(r1, s1, s2)` makes, each on a copy. -/
def normalizeEdits (s1 s2 : Server) : List (HTTPRequest → HTTPRequest) :=
  (if s2.joinsDuplicateHeaders then [(joinDuplicateHeaders · s2.duplicateHeaderJoiner)] else []) ++
    (removedNames s1 s2).map (fun k r => removeRequestHeader r k) ++
    (if s2.headerNameTranslation.length > 0 then
      [(translateRequestHeaderNames · s2.headerNameTranslation)] else [])

theorem normalizeRequest_eq (r : HTTPRequest) (s1 s2 : Server) :
    normalizeRequest r s1 s2 =
      sortRequest ((normalizeEdits s1 s2).foldl (fun x edit => edit x) r) := by
  unfold normalizeRequest normalizeEdits
  split <;> split <;> simp [List.foldl_append, List.foldl_map]

theorem normalizeRequestIn_eq (h : Heap) (r : Ref) (s1 s2 : Server) :
    normalizeRequestIn h r s1 s2 =
      ((copyAll (normalizeEdits s1 s2) h r).1,
        (copyAll (normalizeEdits s1 s2) h r).2.sort (copyAll (normalizeEdits s1 s2) h r).1) := by
  by_cases hj : s2.joinsDuplicateHeaders = true <;>
    by_cases ht : s2.headerNameTranslation.length > 0 <;>
      simp [normalizeRequestIn, normalizeEdits, copyAll, hj, ht, List.foldl_append,
        List.foldl_map]

/-- What normalizing the object `r` can do. -/
structure NormalizesIn (h : Heap) (r : Ref) (s1 s2 : Server) (r' : Ref) (h' : Heap) : Prop where
  length_le : h.length ≤ h'.length
  result_lt : r' < h'.length
  result_eq : h'.load r' = normalizeRequest (h.load r) s1 s2
  result_new : r' = r ∨ h.length ≤ r'
  frame : ∀ i < h.length, i ≠ r → h'.load i = h.load i
  target : h'.load r = if normalizeEdits s1 s2 = [] then sortRequest (h.load r) else h.load r

theorem normalizeRequestIn_spec {h : Heap} {r : Ref} (hr : r < h.length) (s1 s2 : Server) :
    NormalizesIn h r s1 s2 (normalizeRequestIn h r s1 s2).1 (normalizeRequestIn h r s1 s2).2 := by
  rw [normalizeRequestIn_eq]
  by_cases hnil : normalizeEdits s1 s2 = []
  · rw [hnil]
    refine ⟨by simp [copyAll], by simpa [copyAll] using hr, ?_, Or.inl rfl, ?_, ?_⟩
    · rw [normalizeRequest_eq, hnil]
      exact load_sort_self hr
    · intro i _ hne
      exact load_sort_of_ne h hne
    · rw [if_pos hnil]
      exact load_sort_self hr
  · obtain ⟨new, e1, e2, e3, e4⟩ := copyAll_spec (normalizeEdits s1 s2) h r hnil
    have hkeep : ∀ i < h.length, ((copyAll (normalizeEdits s1 s2) h r).2.sort
        (copyAll (normalizeEdits s1 s2) h r).1).load i = h.load i := by
      intro i hi
      rw [load_sort_of_ne _ (Nat.ne_of_lt (lt_of_lt_of_le hi e2)), e1, load_append_left new hi]
    refine ⟨by simp [e1], by simpa using e3, ?_, Or.inr e2, fun i hi _ => hkeep i hi, ?_⟩
    · rw [normalizeRequest_eq, load_sort_self e3, e4]
    · rw [if_neg hnil]
      exact hkeep r hr

/-- Normalizing for this pair of servers leaves the request as it is: it works on a
copy, or there is nothing to sort. -/
def StaysPut (r : HTTPRequest) (s1 s2 : Server) : Prop :=
  normalizeEdits s1 s2 ≠ [] ∨ r.headers.Pairwise headerLE

theorem staysPut_iff {r : HTTPRequest} {s1 s2 : Server} :
    StaysPut r s1 s2 ↔
      (if normalizeEdits s1 s2 = [] then sortRequest r else r) = r := by
  unfold StaysPut
  split
  · rename_i hnil
    have : sortRequest r = r ↔ sortHeaders r.headers = r.headers := by
      constructor
      · exact fun h => congrArg HTTPRequest.headers h
      · intro h; simp only [sortRequest, h]
    rw [this, sortHeaders_eq_self_iff]
    simp [hnil]
  · rename_i hne
    simp [hne]

theorem NormalizesIn.sorts {h r s1 s2 r' h'} (hn : NormalizesIn h r s1 s2 r' h') :
    Sorts h h' := by
  refine ⟨hn.length_le, fun i hi => ?_⟩
  by_cases he : i = r
  · subst he
    rw [hn.target]
    split
    · exact Or.inr rfl
    · exact Or.inl rfl
  · exact Or.inl (hn.frame i hi he)

theorem NormalizesIn.keeps {h r s1 s2 r' h'} (hn : NormalizesIn h r s1 s2 r' h')
    (hp : StaysPut (h.load r) s1 s2) : Keeps h h' := by
  refine ⟨hn.length_le, fun i hi => ?_⟩
  by_cases he : i = r
  · subst he
    rw [hn.target, staysPut_iff.mp hp]
  · exact hn.frame i hi he

theorem NormalizesIn.changes {h r s1 s2 r' h'} (hn : NormalizesIn h r s1 s2 r' h')
    (hp : ¬ StaysPut (h.load r) s1 s2) : h'.load r ≠ h.load r := by
  rw [hn.target]
  exact fun he => hp (staysPut_iff.mpr he)

/-! ### One position -/

/-- The objects a position refers to. -/
def positionRefs (p : Option Item × Option Item) : List Ref :=
  p.1.elim [] Item.refs ++ p.2.elim [] Item.refs

/-- The two requests that a position compares by value, if it comes to that. -/
def comparedPair (s1 s2 : Server) (p : Option Parsed × Option Parsed) :
    Option (HTTPRequest × HTTPRequest) :=
  match earlyVerdict p.1 p.2 s1 s2, p with
  | none, (some (.request a), some (.request b)) => some (a, b)
  | _, _ => none

/-- Every request that the position compares stays put. -/
def PairStaysPut (s1 s2 : Server) (p : Option Parsed × Option Parsed) : Prop :=
  ∀ q ∈ comparedPair s1 s2 p, StaysPut q.1 s1 s2 ∧ StaysPut q.2 s2 s1

/-- The value of a position depends on the objects it refers to, and on no other. -/
theorem viewPosition_congr {h h' : Heap} {p : Option Item × Option Item}
    (hl : ∀ r ∈ positionRefs p, h'.load r = h.load r) : viewPosition h' p = viewPosition h p := by
  have key : ∀ x : Option Item, (∀ r ∈ x.elim [] Item.refs, h'.load r = h.load r) →
      x.map (·.view h') = x.map (·.view h) := by
    intro x hx
    rcases x with _ | r | r
    · rfl
    · simp only [Option.map_some, Item.view, hx r (by simp [Item.refs])]
    · rfl
  obtain ⟨x, y⟩ := p
  simp only [viewPosition, Prod.mk.injEq]
  exact ⟨key x fun r hr => hl r (by simp [positionRefs, hr]),
    key y fun r hr => hl r (by simp [positionRefs, hr])⟩

theorem viewPosition_of_keeps {h h' : Heap} (hk : Keeps h h') {p : Option Item × Option Item}
    (hv : ∀ r ∈ positionRefs p, r < h.length) : viewPosition h' p = viewPosition h p :=
  viewPosition_congr fun r hr => hk.2 r (hv r hr)

/-- Without two requests to compare, a position is decided as for values. -/
theorem comparePositionIn_of_none {h : Heap} {r1 r2 : Option Item} {s1 s2 : Server}
    (hc : comparedPair s1 s2 (viewPosition h (r1, r2)) = none) :
    comparePositionIn h r1 r2 s1 s2 =
      (comparePosition (r1.map (·.view h)) (r2.map (·.view h)) s1 s2, h) := by
  simp only [comparePositionIn, comparePosition, viewPosition, comparedPair] at hc ⊢
  cases he : earlyVerdict (r1.map (·.view h)) (r2.map (·.view h)) s1 s2 with
  | some v => rfl
  | none =>
      rw [he] at hc
      rcases r1 with _ | a | a <;> rcases r2 with _ | b | b <;> first | rfl | cases hc

theorem comparePositionIn_of_some {h : Heap} {r1 r2 : Option Item} {s1 s2 : Server} {q}
    (hc : comparedPair s1 s2 (viewPosition h (r1, r2)) = some q) :
    ∃ a b, r1 = some (.request a) ∧ r2 = some (.request b) ∧ q = (h.load a, h.load b) ∧
      comparePosition (r1.map (·.view h)) (r2.map (·.view h)) s1 s2 =
        (if (normalizeRequest q.1 s1 s2).eqv (normalizeRequest q.2 s2 s1) then .continue
          else .return .requestDiscrepancy) ∧
      comparePositionIn h r1 r2 s1 s2 =
        let m1 := normalizeRequestIn h a s1 s2
        let m2 := normalizeRequestIn m1.2 b s2 s1
        (if (m2.2.load m1.1).eqv (m2.2.load m2.1) then .continue
          else .return .requestDiscrepancy, m2.2) := by
  simp only [comparedPair, viewPosition] at hc
  cases he : earlyVerdict (r1.map (·.view h)) (r2.map (·.view h)) s1 s2 with
  | some v => rw [he] at hc; cases hc
  | none =>
      rw [he] at hc
      rcases r1 with _ | a | a <;> rcases r2 with _ | b | b <;> try cases hc
      refine ⟨a, b, rfl, rfl, rfl, ?_, ?_⟩
      · rw [comparePosition, he]
        rfl
      · simp only [comparePositionIn, viewPosition, he]

section

variable {h : Heap} {r1 r2 : Option Item} {s1 s2 : Server}

theorem comparePositionIn_sorts (s1 s2 : Server) (hv : ∀ r ∈ positionRefs (r1, r2), r < h.length) :
    Sorts h (comparePositionIn h r1 r2 s1 s2).2 := by
  cases hc : comparedPair s1 s2 (viewPosition h (r1, r2)) with
  | none =>
      rw [comparePositionIn_of_none hc]
      exact (Keeps.refl h).sorts
  | some q =>
      obtain ⟨a, b, rfl, rfl, -, -, e⟩ := comparePositionIn_of_some hc
      simp only [positionRefs, Option.elim, Item.refs, List.cons_append, List.nil_append,
        List.mem_cons, List.not_mem_nil, or_false, forall_eq_or_imp, forall_eq] at hv
      have n1 := normalizeRequestIn_spec hv.1 s1 s2
      have n2 := normalizeRequestIn_spec (lt_of_lt_of_le hv.2 n1.length_le) s2 s1
      rw [e]
      exact n1.sorts.trans n2.sorts

/-- A position whose requests stay put keeps the heap, and its verdict is that of
the values. -/
theorem comparePositionIn_keeps (hv : ∀ r ∈ positionRefs (r1, r2), r < h.length)
    (hp : PairStaysPut s1 s2 (viewPosition h (r1, r2))) :
    Keeps h (comparePositionIn h r1 r2 s1 s2).2 ∧
      (comparePositionIn h r1 r2 s1 s2).1 =
        comparePosition (r1.map (·.view h)) (r2.map (·.view h)) s1 s2 := by
  cases hc : comparedPair s1 s2 (viewPosition h (r1, r2)) with
  | none =>
      rw [comparePositionIn_of_none hc]
      exact ⟨Keeps.refl h, rfl⟩
  | some q =>
      obtain ⟨hp1, hp2⟩ := hp q hc
      obtain ⟨a, b, rfl, rfl, rfl, ev, e⟩ := comparePositionIn_of_some hc
      simp only [positionRefs, Option.elim, Item.refs, List.cons_append, List.nil_append,
        List.mem_cons, List.not_mem_nil, or_false, forall_eq_or_imp, forall_eq] at hv
      have n1 := normalizeRequestIn_spec hv.1 s1 s2
      have n2 := normalizeRequestIn_spec (lt_of_lt_of_le hv.2 n1.length_le) s2 s1
      have k1 := n1.keeps hp1
      have k2 := n2.keeps (by rwa [k1.2 b hv.2])
      have l1 := (k2.2 _ n1.result_lt).trans n1.result_eq
      have l2 := n2.result_eq
      rw [k1.2 b hv.2] at l2
      rw [ev, e]
      exact ⟨k1.trans k2, by simp only [l1, l2]⟩

/-- A position with a request that does not stay put changes one of its objects. -/
theorem comparePositionIn_changes (hv : ∀ r ∈ positionRefs (r1, r2), r < h.length)
    (hp : ¬ PairStaysPut s1 s2 (viewPosition h (r1, r2))) :
    ∃ r ∈ positionRefs (r1, r2), (comparePositionIn h r1 r2 s1 s2).2.load r ≠ h.load r := by
  cases hc : comparedPair s1 s2 (viewPosition h (r1, r2)) with
  | none => exact absurd (fun q hq => by rw [hc] at hq; cases hq) hp
  | some q =>
      obtain ⟨a, b, rfl, rfl, rfl, -, e⟩ := comparePositionIn_of_some hc
      have hp' : ¬ (StaysPut (h.load a) s1 s2 ∧ StaysPut (h.load b) s2 s1) := by
        intro hboth
        refine hp fun q hq => ?_
        rw [hc] at hq
        cases hq
        exact hboth
      simp only [positionRefs, Option.elim, Item.refs, List.cons_append, List.nil_append,
        List.mem_cons, List.not_mem_nil, or_false, forall_eq_or_imp, forall_eq,
        exists_eq_or_imp, exists_eq_left] at hv ⊢
      have n1 := normalizeRequestIn_spec hv.1 s1 s2
      have n2 := normalizeRequestIn_spec (lt_of_lt_of_le hv.2 n1.length_le) s2 s1
      rw [e]
      by_cases h1 : StaysPut (h.load a) s1 s2
      · have hb := (n1.keeps h1).2 b hv.2
        have h2 : ¬ StaysPut (h.load b) s2 s1 := fun h2 => hp' ⟨h1, h2⟩
        right
        rw [← hb] at h2 ⊢
        exact n2.changes h2
      · left
        exact n1.sorts.changed n2.sorts hv.1 (n1.changes h1)

end

/-! ### One call -/

/-- Every request that the comparison gets to compare stays put. -/
def AllStayPut (s1 s2 : Server) : List (Option Parsed × Option Parsed) → Prop
  | [] => True
  | p :: ps =>
    PairStaysPut s1 s2 p ∧ (comparePosition p.1 p.2 s1 s2 = .continue → AllStayPut s1 s2 ps)

theorem comparePositionsIn_sorts (s1 s2 : Server) (ps : List (Option Item × Option Item))
    {h : Heap} (hv : ∀ p ∈ ps, ∀ r ∈ positionRefs p, r < h.length) :
    Sorts h (comparePositionsIn s1 s2 ps h).2 := by
  induction ps generalizing h with
  | nil => exact (Keeps.refl h).sorts
  | cons p ps ih =>
      obtain ⟨r1, r2⟩ := p
      have hs := comparePositionIn_sorts s1 s2 (hv (r1, r2) (by simp))
      rw [comparePositionsIn]
      split
      · rename_i h' e
        rw [e] at hs
        exact hs.trans (ih fun q hq r hr =>
          lt_of_lt_of_le (hv q (by simp [hq]) r hr) hs.1)
      · rename_i h' e
        rwa [e] at hs
      · rename_i v h' e
        rwa [e] at hs

/-- **One comparison**: either all compared requests stay put, and then the heap
keeps its objects and the category is that of the values, or one of the objects
in the arguments is changed. -/
theorem comparePositionsIn_spec (s1 s2 : Server) (ps : List (Option Item × Option Item))
    {h : Heap} (hv : ∀ p ∈ ps, ∀ r ∈ positionRefs p, r < h.length) :
    (AllStayPut s1 s2 (ps.map (viewPosition h)) →
      Keeps h (comparePositionsIn s1 s2 ps h).2 ∧
      (comparePositionsIn s1 s2 ps h).1 = comparePositions s1 s2 (ps.map (viewPosition h))) ∧
    (¬ AllStayPut s1 s2 (ps.map (viewPosition h)) →
      ∃ p ∈ ps, ∃ r ∈ positionRefs p, (comparePositionsIn s1 s2 ps h).2.load r ≠ h.load r) := by
  induction ps generalizing h with
  | nil => exact ⟨fun _ => ⟨Keeps.refl h, rfl⟩, fun hn => absurd trivial hn⟩
  | cons p ps ih =>
      obtain ⟨r1, r2⟩ := p
      have hv1 := hv (r1, r2) (by simp)
      have hv2 : ∀ p ∈ ps, ∀ r ∈ positionRefs p, r < h.length := fun p hp => hv p (by simp [hp])
      by_cases hp : PairStaysPut s1 s2 (viewPosition h (r1, r2))
      · obtain ⟨hk, hverdict⟩ := comparePositionIn_keeps hv1 hp
        have hviews : ps.map (viewPosition (comparePositionIn h r1 r2 s1 s2).2) =
            ps.map (viewPosition h) :=
          List.map_congr_left fun p hp => viewPosition_of_keeps hk (hv2 p hp)
        have hrest := ih (h := (comparePositionIn h r1 r2 s1 s2).2) fun p hp r hr =>
          lt_of_lt_of_le (hv2 p hp r hr) hk.1
        rw [hviews] at hrest
        simp only [List.map_cons, AllStayPut, hp, true_and, comparePositions, comparePositionsIn]
        generalize hm : comparePositionIn h r1 r2 s1 s2 = m at hk hverdict hrest ⊢
        obtain ⟨v, h'⟩ := m
        simp only at hverdict
        subst hverdict
        simp only [viewPosition]
        cases hc : comparePosition (r1.map (·.view h)) (r2.map (·.view h)) s1 s2 with
        | «continue» =>
            simp only [forall_const]
            refine ⟨fun hall => ?_, fun hnot => ?_⟩
            · obtain ⟨hk', hres⟩ := hrest.1 hall
              exact ⟨hk.trans hk', hres⟩
            · obtain ⟨p, hp, r, hr, hne⟩ := hrest.2 hnot
              exact ⟨p, by simp [hp], r, hr, by rwa [← hk.2 r (hv2 p hp r hr)]⟩
        | «break» => exact ⟨fun _ => ⟨hk, rfl⟩, fun hn => absurd (fun hx => by cases hx) hn⟩
        | «return» e => exact ⟨fun _ => ⟨hk, rfl⟩, fun hn => absurd (fun hx => by cases hx) hn⟩
      · refine ⟨fun hall => absurd hall.1 hp, fun _ => ?_⟩
        obtain ⟨r, hr, hne⟩ := comparePositionIn_changes hv1 hp
        refine ⟨(r1, r2), by simp, r, hr, ?_⟩
        have hs := comparePositionIn_sorts s1 s2 hv1
        rw [comparePositionsIn]
        split
        · rename_i h' e
          rw [e] at hs hne
          exact hs.changed (comparePositionsIn_sorts s1 s2 ps fun q hq r hr =>
            lt_of_lt_of_le (hv2 q hq r hr) hs.1) (hv1 r hr) hne
        · rename_i h' e
          rwa [e] at hne
        · rename_i v h' e
          rwa [e] at hne

end HttpGarden
