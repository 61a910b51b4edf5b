import Mathlib.Tactic

/-!
# HttpGarden.Lib.CodeTree

**Binary prefix codes** as trees. A path from the root is a bit string; `follow`
walks it, `insert` puts a symbol at its end.

`IsTreeOf root code valid` says that the leaves of a tree are exactly the
codewords of the valid symbols and that no path runs into nothing. It is decided by looking at the finitely many
leaves (`isTreeOf_of_check`), and it is all that the correctness of a decoder
needs to know about the tree.
-/

namespace HttpGarden.Lib

/-- A binary tree with symbols at its leaves. -/
inductive CodeTree (α : Type)
  | empty
  | leaf (a : α)
  | node (zero one : CodeTree α)
  deriving Repr, DecidableEq

namespace CodeTree

variable {α : Type}

/-- Put `a` at the end of a path; a path cannot run through a leaf. -/
def insert (a : α) : List Bool → CodeTree α → Option (CodeTree α)
  | [], _ => some (leaf a)
  | _ :: _, leaf _ => none
  | b :: w, empty =>
    (insert a w empty).map fun t => if b then node empty t else node t empty
  | b :: w, node zero one =>
    if b then (insert a w one).map fun t => node zero t
    else (insert a w zero).map fun t => node t one

/-- The subtree that a bit leads to. -/
def child : CodeTree α → Bool → Option (CodeTree α)
  | node zero one, b => some (if b then one else zero)
  | _, _ => none

/-- The subtree at the end of a path. -/
def follow (t : CodeTree α) : List Bool → Option (CodeTree α)
  | [] => some t
  | b :: w => (t.child b).bind fun t => t.follow w

def isNode : CodeTree α → Bool
  | node _ _ => true
  | _ => false

@[simp] theorem follow_nil (t : CodeTree α) : t.follow [] = some t := rfl

theorem follow_cons (t : CodeTree α) (b : Bool) (w : List Bool) :
    t.follow (b :: w) = (t.child b).bind fun t => t.follow w := rfl

theorem follow_append (t : CodeTree α) (v w : List Bool) :
    t.follow (v ++ w) = (t.follow v).bind fun t => t.follow w := by
  induction v generalizing t with
  | nil => rfl
  | cons b v ih =>
      rw [List.cons_append, follow_cons, follow_cons]
      cases t.child b with
      | none => rfl
      | some t => exact ih t

/-! ### Trees of a code -/

/-- The leaves of `root` are the codewords of the symbols that are `valid`, and
every other path stays inside. -/
structure IsTreeOf (root : CodeTree α) (code : α → List Bool) (valid : α → Prop) : Prop where
  leaf_iff : ∀ w a, root.follow w = some (leaf a) ↔ valid a ∧ w = code a
  ne_empty : ∀ w, root.follow w ≠ some empty
  root_isNode : root.isNode = true

/-- Every leaf, with its path behind the reversed bits `w`, satisfies `p`, and no
subtree is empty. -/
def checkLeaves (p : List Bool → α → Bool) (w : List Bool) : CodeTree α → Bool
  | empty => false
  | leaf a => p w.reverse a
  | node zero one => checkLeaves p (false :: w) zero && checkLeaves p (true :: w) one

theorem checkLeaves_follow {p : List Bool → α → Bool} {w v : List Bool} {t t' : CodeTree α}
    (h : checkLeaves p w t = true) (ht : t.follow v = some t') :
    checkLeaves p (v.reverse ++ w) t' = true := by
  induction v generalizing w t with
  | nil =>
      rw [follow_nil, Option.some.injEq] at ht
      exact ht ▸ h
  | cons b v ih =>
      rw [List.reverse_cons, List.append_assoc]
      cases t with
      | empty => cases ht
      | leaf a => cases ht
      | node zero one =>
          rw [checkLeaves, Bool.and_eq_true] at h
          cases b with
          | false => exact ih h.1 ht
          | true => exact ih h.2 ht

/-- A tree is recognised by looking at its leaves. -/
theorem isTreeOf_of_check [DecidableEq α] {root : CodeTree α} {code : α → List Bool}
    {valid : α → Prop} [DecidablePred valid]
    (hcode : ∀ a, valid a → root.follow (code a) = some (leaf a))
    (hleaves : checkLeaves (fun w a => decide (valid a) && w == code a) [] root = true)
    (hnode : root.isNode = true) : IsTreeOf root code valid where
  leaf_iff w a := by
    constructor
    · intro h
      have := checkLeaves_follow hleaves h
      simpa [checkLeaves] using this
    · rintro ⟨ha, rfl⟩
      exact hcode a ha
  ne_empty w h := by
    have := checkLeaves_follow hleaves h
    cases this
  root_isNode := hnode

section

variable {root : CodeTree α} {code : α → List Bool} {valid : α → Prop}

theorem IsTreeOf.follow_code (h : IsTreeOf root code valid) {a : α} (ha : valid a) :
    root.follow (code a) = some (leaf a) :=
  (h.leaf_iff _ a).mpr ⟨ha, rfl⟩

theorem IsTreeOf.code_ne_nil (h : IsTreeOf root code valid) {a : α} (ha : valid a) :
    code a ≠ [] := by
  intro hnil
  have hleaf := h.follow_code ha
  have hnode := h.root_isNode
  rw [hnil, follow_nil, Option.some.injEq] at hleaf
  rw [hleaf] at hnode
  cases hnode

/-- A tree without empty parts has a leaf. -/
theorem exists_leaf {t : CodeTree α} (h : ∀ w, t.follow w ≠ some empty) :
    ∃ w a, t.follow w = some (leaf a) := by
  induction t with
  | empty => exact absurd rfl (h [])
  | leaf a => exact ⟨[], a, rfl⟩
  | node zero one ihzero _ =>
      obtain ⟨w, a, hw⟩ := ihzero fun w => h (false :: w)
      exact ⟨false :: w, a, hw⟩

/-- **The inner nodes** are where codewords are cut off. -/
theorem IsTreeOf.follow_isNode_iff (h : IsTreeOf root code valid) {w : List Bool} :
    (∃ t, root.follow w = some t ∧ t.isNode = true) ↔
      ∃ a, valid a ∧ w <+: code a ∧ w ≠ code a := by
  refine ⟨fun hnode => ?_, fun hprefix => ?_⟩
  · obtain ⟨t, ht, hnode⟩ := hnode
    have hrest (v : List Bool) : root.follow (w ++ v) = t.follow v := by
      rw [follow_append, ht, Option.bind_some]
    obtain ⟨v, a, hv⟩ := exists_leaf fun v => hrest v ▸ h.ne_empty (w ++ v)
    obtain ⟨ha, hcode⟩ := (h.leaf_iff _ a).mp ((hrest v).trans hv)
    refine ⟨a, ha, ⟨v, hcode⟩, fun heq => ?_⟩
    rw [heq, h.follow_code ha, Option.some.injEq] at ht
    rw [← ht] at hnode
    cases hnode
  · obtain ⟨a, ha, ⟨v, hcode⟩, hne⟩ := hprefix
    have hleaf := h.follow_code ha
    rw [← hcode, follow_append] at hleaf
    obtain ⟨t, ht, hv⟩ := Option.bind_eq_some_iff.mp hleaf
    refine ⟨t, ht, ?_⟩
    cases v with
    | nil => exact absurd (by simpa using hcode) hne
    | cons b v =>
        cases t with
        | node zero one => rfl
        | empty => cases hv
        | leaf a => cases hv

end

end CodeTree

end HttpGarden.Lib
