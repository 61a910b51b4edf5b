import HttpGarden.Lib.Splice
import HttpGarden.Python

/-!
# HttpGarden.Mutations.Positions

`mutations.py`: the mutations of **one byte of a stream**. A position in the concatenation is drawn,
and a scan over the elements finds the one that it falls into.

The scan looks for an element that goes on *behind* the position. There is none for the end of the
stream, which the two insertions can draw: `editsOnePlace_iff`.
-/

namespace HttpGarden

open Lib

/-! ### The scan -/

/-- The `for` loop over `enumerate(s)`, from the element at `reqIdx` on; `result` is the copy of the
stream. -/
def editFrom (edit : Bytes → Nat → Bytes) (result : List Bytes) :
    Nat → Nat → List Bytes → Except PyError (List Bytes)
  | _, _, [] => .error .assertionError
  | reqIdx, idx, req :: reqs =>
    if req.length > idx then .ok (result.set reqIdx (edit req idx))
    else editFrom edit result (reqIdx + 1) (idx - req.length) reqs

/-- `sum(len(r) for r in s)` -/
def totalLen (s : List Bytes) : Nat := (s.map List.length).sum

theorem totalLen_eq (s : List Bytes) : totalLen s = s.flatten.length := List.length_flatten.symm

/-- **The element that is found** is the one that the position falls into. -/
theorem editFrom_of_lt (edit : Bytes → Nat → Bytes) (pre : List Bytes) {reqs : List Bytes}
    {idx : Nat} (h : idx < reqs.flatten.length) :
    ∃ pre' req post i, reqs = pre' ++ req :: post ∧ i < req.length ∧
      idx = pre'.flatten.length + i ∧
      editFrom edit (pre ++ reqs) pre.length idx reqs = .ok (pre ++ (pre' ++ edit req i :: post)) := by
  induction reqs generalizing pre idx with
  | nil => cases h
  | cons req reqs ih =>
      rw [editFrom]
      by_cases hreq : req.length > idx
      · rw [if_pos hreq, List.set_append_right _ _ le_rfl, Nat.sub_self, List.set_cons_zero]
        exact ⟨[], req, reqs, idx, rfl, hreq, by simp, rfl⟩
      · rw [List.flatten_cons, List.length_append] at h
        have hrest : idx - req.length < reqs.flatten.length := by omega
        obtain ⟨pre', req', post, i, hreqs, hi, hidx, hrun⟩ := ih (pre ++ [req]) hrest
        rw [List.length_append, List.length_singleton, List.append_assoc,
          List.singleton_append] at hrun
        refine ⟨req :: pre', req', post, i, by rw [hreqs]; rfl, hi, ?_, ?_⟩
        · rw [List.flatten_cons, List.length_append]
          omega
        · rw [if_neg hreq, hrun, List.append_assoc]
          rfl

/-- Behind the last byte nothing is found. -/
theorem editFrom_of_ge {edit : Bytes → Nat → Bytes} {result reqs : List Bytes} {reqIdx idx : Nat}
    (h : reqs.flatten.length ≤ idx) :
    editFrom edit result reqIdx idx reqs = .error .assertionError := by
  induction reqs generalizing reqIdx idx with
  | nil => rfl
  | cons req reqs ih =>
      rw [List.flatten_cons, List.length_append] at h
      rw [editFrom, if_neg (by omega)]
      exact ih (by omega)

/-! ### The mutations -/

/-- `_MEANINGFUL_BYTES` -/
def meaningfulBytes : List Bytes :=
  [bytes "\r\n", bytes "\r", bytes "\n", [0], bytes ":", bytes "\t", bytes " "]

/-- `_delete_random_byte` -/
def deleteRandomByte (idx : Nat) (s : List Bytes) : Except PyError (List Bytes) := do
  if ¬ s.length ≥ 1 then throw .assertionError
  if ¬ totalLen s ≥ 1 then throw .assertionError
  editFrom (fun req idx => req.take idx ++ req.drop (idx + 1)) s 0 idx s

/-- `_replace_random_byte` -/
def replaceRandomByte (idx : Nat) (byte : UInt8) (s : List Bytes) : Except PyError (List Bytes) := do
  if ¬ s.length ≥ 1 then throw .assertionError
  if ¬ totalLen s ≥ 1 then throw .assertionError
  editFrom (fun req idx => req.take idx ++ [byte] ++ req.drop (idx + 1)) s 0 idx s

/-- `_insert_random_meaningful_byte` -/
def insertRandomMeaningfulByte (idx : Nat) (choice : Bytes) (s : List Bytes) :
    Except PyError (List Bytes) := do
  if ¬ s.length ≥ 1 then throw .assertionError
  editFrom (fun req idx => req.take idx ++ choice ++ req.drop idx) s 0 idx s

/-- `_insert_random_byte` -/
def insertRandomByte (idx : Nat) (byte : UInt8) (s : List Bytes) : Except PyError (List Bytes) := do
  if ¬ s.length ≥ 1 then throw .assertionError
  editFrom (fun req idx => req.take idx ++ [byte] ++ req.drop idx) s 0 idx s

/-- A mutation, and what `random` returns in it. -/
inductive ByteMutation
  | delete (idx : Nat)
  | replace (idx : Nat) (byte : UInt8)
  | insertMeaningful (idx : Nat) (choice : Bytes)
  | insert (idx : Nat) (byte : UInt8)
  deriving Repr, DecidableEq

namespace ByteMutation

def apply : ByteMutation → List Bytes → Except PyError (List Bytes)
  | delete idx => deleteRandomByte idx
  | replace idx byte => replaceRandomByte idx byte
  | insertMeaningful idx choice => insertRandomMeaningfulByte idx choice
  | insert idx byte => insertRandomByte idx byte

/-- The position that is drawn. -/
def position : ByteMutation → Nat
  | delete idx | replace idx _ | insertMeaningful idx _ | insert idx _ => idx

/-- How many bytes are taken away there. -/
def taken : ByteMutation → Nat
  | delete _ | replace _ _ => 1
  | insertMeaningful _ _ | insert _ _ => 0

/-- The bytes that are put there. -/
def given : ByteMutation → Bytes
  | delete _ => []
  | replace _ byte | insert _ byte => [byte]
  | insertMeaningful _ choice => choice

/-- What the draws can be, from a stream that the mutation is meant for. -/
def CanBeDrawn (m : ByteMutation) (s : List Bytes) : Prop :=
  s ≠ [] ∧
    match m with
    | delete idx | replace idx _ => 1 ≤ totalLen s ∧ idx ≤ totalLen s - 1
    | insertMeaningful idx choice => idx ≤ totalLen s ∧ choice ∈ meaningfulBytes
    | insert idx _ => idx ≤ totalLen s

/-- What should hold of the mutation: it succeeds, edits the bytes at the position, and changes one
element of the stream. -/
def EditsOnePlace (m : ByteMutation) (s : List Bytes) : Prop :=
  ∃ t, m.apply s = .ok t ∧ t.flatten = splice m.position m.taken m.given s.flatten ∧
    ∃ j req, j < s.length ∧ t = s.set j req

/-- All four are the scan, with the splice as the edit. -/
theorem apply_eq {m : ByteMutation} {s : List Bytes} (h : m.CanBeDrawn s) :
    m.apply s = editFrom (fun req idx => splice idx m.taken m.given req) s 0 m.position s := by
  obtain ⟨hs, h⟩ := h
  have hlen : ¬ ¬ s.length ≥ 1 := by
    have := List.length_pos_iff.mpr hs
    omega
  cases m with
  | delete idx =>
      rw [apply, deleteRandomByte, if_neg hlen, if_neg (by omega)]
      simp only [position, taken, given, splice, List.append_nil]
  | replace idx byte =>
      rw [apply, replaceRandomByte, if_neg hlen, if_neg (by omega)]
      rfl
  | insertMeaningful idx choice =>
      rw [apply, insertRandomMeaningfulByte, if_neg hlen]
      rfl
  | insert idx byte =>
      rw [apply, insertRandomByte, if_neg hlen]
      rfl

/-- **A byte mutation** edits the position that was drawn, unless that is the end of the stream. -/
theorem editsOnePlace_iff {m : ByteMutation} {s : List Bytes} (h : m.CanBeDrawn s) :
    m.EditsOnePlace s ↔ m.position ≠ totalLen s := by
  have hle : m.position ≤ totalLen s := by
    obtain ⟨-, h⟩ := h
    cases m with
    | delete idx | replace idx byte => exact h.2.trans (Nat.sub_le _ _)
    | insertMeaningful idx choice => exact h.1
    | insert idx byte => exact h
  have htaken : m.taken ≤ 1 := by cases m <;> simp [taken]
  unfold EditsOnePlace
  rw [apply_eq h]
  rw [totalLen_eq] at hle ⊢
  refine ⟨fun hedits hend => ?_, fun hne => ?_⟩
  · obtain ⟨t, ht, -⟩ := hedits
    rw [editFrom_of_ge hend.ge] at ht
    cases ht
  · obtain ⟨pre, req, post, i, hs, hi, hpos, hrun⟩ :=
      editFrom_of_lt (fun req idx => splice idx m.taken m.given req) [] (lt_of_le_of_ne hle hne)
    refine ⟨_, hrun, ?_, pre.length, splice i m.taken m.given req, ?_, ?_⟩
    · rw [List.nil_append, hs, hpos]
      exact flatten_set_splice (by omega) m.given
    · rw [hs, List.length_append, List.length_cons]
      omega
    · rw [hs, List.set_append_right _ _ le_rfl, Nat.sub_self, List.set_cons_zero]
      rfl

/-- Across an empty element. -/
theorem editsOnePlace_iff_empty :
    (replace 1 120).EditsOnePlace [bytes "a", [], bytes "b"] ↔
      (replace 1 120).position ≠ totalLen [bytes "a", [], bytes "b"] :=
  editsOnePlace_iff ⟨List.cons_ne_nil _ _, by decide, by decide⟩

theorem not_editsOnePlace : ¬ ∀ (m : ByteMutation) (s : List Bytes), m.CanBeDrawn s →
    m.EditsOnePlace s := by
  intro h
  obtain ⟨t, ht, -⟩ := h (insert 1 120) [bytes "a"] ⟨List.cons_ne_nil _ _, by decide⟩
  have herror : (insert 1 120).apply [bytes "a"] = .error .assertionError := by decide
  rw [herror] at ht
  cases ht

end ByteMutation

end HttpGarden
