import HttpGarden.Lib.Splice
import HttpGarden.Python

/-!
# HttpGarden.Mutations.Boundaries

`mutations.py`: the mutations that move the **boundaries of a stream** and should leave its bytes
alone. What `random` returns are the parameters of a mutation.

Two elements are joined, or one is cut, or both. `list.insert` puts an item in front of what is at
the index, so the second half has to be inserted first: `_split_random_request` does so, and
`_shift_random_request_boundaries` does not. `keepsBytes_iff` says what that comes to.
-/

namespace HttpGarden

open Lib

/-! ### Methods of `list` -/

/-- `s.pop(i)`: the item and what is left. -/
def listPop {α : Type} (i : Nat) (s : List α) : Except PyError (α × List α) :=
  match s[i]? with
  | some a => .ok (a, s.eraseIdx i)
  | none => .error (.indexError "pop index out of range")

/-- `s.insert(i, a)` -/
def listInsert {α : Type} (i : Nat) (a : α) (s : List α) : List α := s.take i ++ a :: s.drop i

/-- `s[i]` -/
def listGet {α : Type} (i : Nat) (s : List α) : Except PyError α :=
  match s[i]? with
  | some a => .ok a
  | none => .error (.indexError "list index out of range")

theorem listPop_append {α : Type} (pre : List α) (a : α) (post : List α) :
    listPop pre.length (pre ++ a :: post) = .ok (a, pre ++ post) := by
  rw [listPop, List.getElem?_append_right le_rfl, Nat.sub_self, List.getElem?_cons_zero,
    List.eraseIdx_append_of_length_le le_rfl, Nat.sub_self, List.eraseIdx_cons_zero]

theorem listInsert_append {α : Type} (pre : List α) (a : α) (post : List α) :
    listInsert pre.length a (pre ++ post) = pre ++ a :: post := by
  rw [listInsert, List.take_left, List.drop_left]

theorem listGet_append {α : Type} (pre : List α) (a : α) (post : List α) :
    listGet pre.length (pre ++ a :: post) = .ok a := by
  rw [listGet, List.getElem?_append_right le_rfl, Nat.sub_self, List.getElem?_cons_zero]

/-- An item that is popped stands between two parts. -/
theorem exists_of_listPop {α : Type} {i : Nat} {s : List α} {m : α × List α} (h : listPop i s = .ok m) :
    ∃ pre post, s = pre ++ m.1 :: post ∧ pre.length = i ∧ m.2 = pre ++ post := by
  unfold listPop at h
  cases ha : s[i]? with
  | none =>
      rw [ha] at h
      cases h
  | some a =>
      rw [ha] at h
      cases h
      obtain ⟨hi, rfl⟩ := List.getElem?_eq_some_iff.mp ha
      refine ⟨s.take i, s.drop (i + 1), ?_, List.length_take_of_le hi.le, ?_⟩
      · rw [← List.drop_eq_getElem_cons hi, List.take_append_drop]
      · exact List.eraseIdx_eq_take_drop_succ ..

/-! ### The mutations -/

/-- `_concat_random_requests` -/
def concatRandomRequests (idx : Nat) (s : List Bytes) : Except PyError (List Bytes) := do
  if ¬ s.length ≥ 2 then throw .assertionError
  let (firstReq, result) ← listPop idx s
  return result.set idx (firstReq ++ (← listGet idx result))

/-- `_shift_random_request_boundaries` -/
def shiftRandomRequestBoundaries (idx boundary : Nat) (s : List Bytes) :
    Except PyError (List Bytes) := do
  if ¬ s.length ≥ 2 then throw .assertionError
  let (req, result) ← listPop idx s
  let (req', result) ← listPop idx result
  let combined := req ++ req'
  let first := combined.take boundary
  let second := combined.drop boundary
  return listInsert idx second (listInsert idx first result)

/-- `_split_random_request` -/
def splitRandomRequest (i splitSpot : Nat) (s : List Bytes) : Except PyError (List Bytes) := do
  if ¬ s.length ≥ 1 then throw .assertionError
  let (toSplit, result) ← listPop i s
  if ¬ toSplit.length ≥ 2 then throw .assertionError
  return listInsert i (toSplit.take splitSpot) (listInsert i (toSplit.drop splitSpot) result)

/-! ### What they return -/

/-- The elements at `idx` and behind it. -/
def AdjacentAt (idx : Nat) (s pre : List Bytes) (a b : Bytes) (post : List Bytes) : Prop :=
  s = pre ++ a :: b :: post ∧ pre.length = idx

theorem concatRandomRequests_eq_ok {idx : Nat} {s t : List Bytes}
    (h : concatRandomRequests idx s = .ok t) :
    ∃ pre a b post, AdjacentAt idx s pre a b post ∧ t = pre ++ (a ++ b) :: post := by
  simp only [concatRandomRequests, throw_eq_error, error_bind, ite_error_eq_ok, bind_eq_ok,
    pure_eq_ok, Except.ok.injEq] at h
  obtain ⟨-, ⟨a, result⟩, hpop, b, hget, ht⟩ := h
  obtain ⟨pre, rest, hs, hpre, hresult⟩ := exists_of_listPop hpop
  simp only at hs hresult hget ht
  subst hpre hresult
  cases rest with
  | nil =>
      rw [listGet, List.append_nil, List.getElem?_eq_none le_rfl] at hget
      cases hget
  | cons b' post =>
      rw [listGet_append, Except.ok.injEq] at hget
      subst hget
      refine ⟨pre, a, b', post, ⟨hs, rfl⟩, ?_⟩
      rw [← ht, List.set_append_right _ _ le_rfl, Nat.sub_self, List.set_cons_zero]

theorem shiftRandomRequestBoundaries_eq_ok {idx boundary : Nat} {s t : List Bytes}
    (h : shiftRandomRequestBoundaries idx boundary s = .ok t) :
    ∃ pre a b post, AdjacentAt idx s pre a b post ∧
      t = pre ++ (a ++ b).drop boundary :: (a ++ b).take boundary :: post := by
  simp only [shiftRandomRequestBoundaries, throw_eq_error, error_bind, ite_error_eq_ok, bind_eq_ok,
    pure_eq_ok, Except.ok.injEq] at h
  obtain ⟨-, ⟨a, result⟩, hpop, ⟨b, result'⟩, hpop', ht⟩ := h
  obtain ⟨pre, rest, hs, hpre, hresult⟩ := exists_of_listPop hpop
  simp only at hs hresult hpop' ht
  subst hpre hresult
  cases rest with
  | nil =>
      rw [listPop, List.append_nil, List.getElem?_eq_none le_rfl] at hpop'
      cases hpop'
  | cons b' post =>
      rw [listPop_append, Except.ok.injEq, Prod.mk.injEq] at hpop'
      obtain ⟨rfl, rfl⟩ := hpop'
      refine ⟨pre, a, b', post, ⟨hs, rfl⟩, ?_⟩
      rw [← ht, listInsert_append, listInsert_append]

theorem splitRandomRequest_eq_ok {i splitSpot : Nat} {s t : List Bytes}
    (h : splitRandomRequest i splitSpot s = .ok t) :
    ∃ pre a post, s = pre ++ a :: post ∧ pre.length = i ∧
      t = pre ++ a.take splitSpot :: a.drop splitSpot :: post := by
  simp only [splitRandomRequest, throw_eq_error, error_bind, ite_error_eq_ok, bind_eq_ok,
    pure_eq_ok, Except.ok.injEq] at h
  obtain ⟨-, ⟨a, result⟩, hpop, -, ht⟩ := h
  obtain ⟨pre, post, hs, hpre, hresult⟩ := exists_of_listPop hpop
  simp only at hs hresult ht
  subst hpre hresult
  refine ⟨pre, a, post, hs, rfl, ?_⟩
  rw [← ht, listInsert_append, listInsert_append]

/-! ### Bytes and boundaries -/

/-- A mutation, and what `random` returns in it. -/
inductive BoundaryMutation
  | concat (idx : Nat)
  | shift (idx boundary : Nat)
  | split (i splitSpot : Nat)
  deriving Repr, DecidableEq

namespace BoundaryMutation

def apply : BoundaryMutation → List Bytes → Except PyError (List Bytes)
  | concat idx => concatRandomRequests idx
  | shift idx boundary => shiftRandomRequestBoundaries idx boundary
  | split i splitSpot => splitRandomRequest i splitSpot

/-- Where the chosen elements start. -/
def position : BoundaryMutation → Nat
  | concat idx | shift idx _ => idx
  | split i _ => i

/-- How many elements are chosen. -/
def taken : BoundaryMutation → Nat
  | concat _ | shift _ _ => 2
  | split _ _ => 1

/-- How many elements stand in their place. -/
def given : BoundaryMutation → Nat
  | concat _ => 1
  | shift _ _ | split _ _ => 2

/-- What should hold of a mutation that succeeds: the bytes are the same, and other elements stand
in the place of the chosen ones and only there. -/
def KeepsBytes (m : BoundaryMutation) (s : List Bytes) : Prop :=
  ∀ t, m.apply s = .ok t → t.flatten = s.flatten ∧ t.length + m.taken = s.length + m.given ∧
    ∃ u, u.length = m.given ∧ t = splice m.position m.taken u s

/-- Two elements are cut anew where it matters which half comes first. -/
def SwapsHalves (m : BoundaryMutation) (s : List Bytes) : Prop :=
  ∃ idx boundary pre a b post, m = shift idx boundary ∧ AdjacentAt idx s pre a b post ∧
    (a ++ b).drop boundary ++ (a ++ b).take boundary ≠
      (a ++ b).take boundary ++ (a ++ b).drop boundary

theorem splice_adjacent {idx : Nat} {s pre : List Bytes} {a b : Bytes} {post : List Bytes}
    (h : AdjacentAt idx s pre a b post) (u : List Bytes) :
    splice idx 2 u s = pre ++ (u ++ post) := by
  obtain ⟨hs, hidx⟩ := h
  rw [hs, ← hidx]
  exact splice_append [a, b] u

theorem keepsBytes_concat (idx : Nat) (s : List Bytes) : KeepsBytes (concat idx) s := by
  intro t ht
  obtain ⟨pre, a, b, post, hat, rfl⟩ := concatRandomRequests_eq_ok ht
  refine ⟨?_, ?_, [a ++ b], rfl, (splice_adjacent hat [a ++ b]).symm⟩
  · simp [hat.1]
  · simp [hat.1, taken, given]
    omega

theorem keepsBytes_split (i splitSpot : Nat) (s : List Bytes) : KeepsBytes (split i splitSpot) s := by
  intro t ht
  obtain ⟨pre, a, post, rfl, rfl, rfl⟩ := splitRandomRequest_eq_ok ht
  refine ⟨?_, ?_, [a.take splitSpot, a.drop splitSpot], rfl, ?_⟩
  · rw [List.flatten_append, List.flatten_cons, List.flatten_cons, ← List.append_assoc (a.take _),
      List.take_append_drop, List.flatten_append, List.flatten_cons]
  · simp [taken, given]
    omega
  · exact (splice_append [a] [a.take splitSpot, a.drop splitSpot]).symm

theorem shiftRandomRequestBoundaries_of_adjacent {idx : Nat} {s pre : List Bytes} {a b : Bytes}
    {post : List Bytes} (h : AdjacentAt idx s pre a b post) (boundary : Nat) :
    shiftRandomRequestBoundaries idx boundary s =
      .ok (pre ++ (a ++ b).drop boundary :: (a ++ b).take boundary :: post) := by
  obtain ⟨rfl, rfl⟩ := h
  have hlen : ¬ ¬ (pre ++ a :: b :: post).length ≥ 2 := by
    rw [List.length_append, List.length_cons, List.length_cons]
    omega
  rw [shiftRandomRequestBoundaries, if_neg hlen, listPop_append, ok_bind]
  simp only [listPop_append, ok_bind, listInsert_append, pure_eq_ok]

/-- The places are right in any case, so it depends on the bytes. -/
theorem keepsBytes_shift_iff (idx boundary : Nat) (s : List Bytes) :
    KeepsBytes (shift idx boundary) s ↔ ¬ SwapsHalves (shift idx boundary) s := by
  refine ⟨fun h hswaps => ?_, fun h t ht => ?_⟩
  · obtain ⟨idx', boundary', pre, a, b, post, hm, hat, hne⟩ := hswaps
    cases hm
    obtain ⟨hflatten, -⟩ := h _ (shiftRandomRequestBoundaries_of_adjacent hat boundary)
    rw [hat.1] at hflatten
    simp only [List.flatten_append, List.flatten_cons, ← List.append_assoc,
      List.append_left_inj] at hflatten
    rw [List.append_assoc, List.append_assoc pre.flatten, List.append_right_inj] at hflatten
    exact hne (by rw [hflatten, List.take_append_drop])
  · obtain ⟨pre, a, b, post, hat, rfl⟩ := shiftRandomRequestBoundaries_eq_ok ht
    have hcommute : (a ++ b).drop boundary ++ (a ++ b).take boundary = a ++ b := by
      by_contra hne
      exact h ⟨idx, boundary, pre, a, b, post, rfl, hat,
        fun heq => hne (heq.trans (List.take_append_drop _ _))⟩
    refine ⟨?_, ?_, [(a ++ b).drop boundary, (a ++ b).take boundary], rfl, ?_⟩
    · rw [hat.1, List.flatten_append, List.flatten_cons, List.flatten_cons,
        ← List.append_assoc (List.drop _ _), hcommute]
      simp
    · simp [hat.1, taken, given]
    · exact (splice_adjacent hat [(a ++ b).drop boundary, (a ++ b).take boundary]).symm

/-- **The bytes stay the same**, unless two elements are cut anew and the halves do not commute. -/
theorem keepsBytes_iff (m : BoundaryMutation) (s : List Bytes) :
    KeepsBytes m s ↔ ¬ SwapsHalves m s := by
  cases m with
  | concat idx =>
      refine iff_of_true (keepsBytes_concat idx s) fun h => ?_
      obtain ⟨idx', boundary, pre, a, b, post, hm, -⟩ := h
      cases hm
  | shift idx boundary => exact keepsBytes_shift_iff idx boundary s
  | split i splitSpot =>
      refine iff_of_true (keepsBytes_split i splitSpot s) fun h => ?_
      obtain ⟨idx', boundary, pre, a, b, post, hm, -⟩ := h
      cases hm

/-- The boundary between two bytes is moved to where it was. -/
theorem not_keepsBytes : ¬ ∀ (m : BoundaryMutation) (s : List Bytes), KeepsBytes m s := by
  intro h
  have hshift : (shift 0 1).apply [bytes "a", bytes "b"] = .ok [bytes "b", bytes "a"] := by
    decide
  obtain ⟨hflatten, -⟩ := h (shift 0 1) [bytes "a", bytes "b"] _ hshift
  exact absurd hflatten (by decide)

end BoundaryMutation

end HttpGarden
