import Mathlib.Tactic

/-!
# HttpGarden.Lib.Splice

**Splices**: the items of a list from one position on, in some number, are replaced by others.
Insertion, deletion and replacement are all of this form.

An edit of one list among several is an edit of their concatenation, at an offset that counts what
is in front of it (`flatten_set_splice`).
-/

namespace HttpGarden.Lib

variable {α : Type}

/-- The `k` items from position `i` on are replaced by `u`. -/
def splice (i k : Nat) (u s : List α) : List α := s.take i ++ u ++ s.drop (i + k)

/-- The item at a position, and what is around it. -/
theorem exists_append_cons {i : Nat} {s : List α} (h : i < s.length) :
    ∃ pre a post, s = pre ++ a :: post ∧ pre.length = i := by
  refine ⟨s.take i, s[i], s.drop (i + 1), ?_, List.length_take_of_le h.le⟩
  rw [← List.drop_eq_getElem_cons h, List.take_append_drop]

/-- As many items as before, if as many are put in. -/
theorem length_splice {i : Nat} {u s : List α} (h : i + u.length ≤ s.length) :
    (splice i u.length u s).length = s.length := by
  rw [splice, List.length_append, List.length_append, List.length_take_of_le (by omega),
    List.length_drop]
  omega

/-- What stands in front of a splice stays. -/
theorem take_splice_left {i : Nat} {s : List α} (h : i ≤ s.length) (k : Nat) (u : List α) :
    (splice i k u s).take i = s.take i := by
  rw [splice, List.append_assoc, List.take_append_of_le_length (List.length_take_of_le h).ge,
    List.take_take, Nat.min_self]

/-- What stands in front of the end of a splice. -/
theorem take_splice {i : Nat} {u s : List α} (h : i ≤ s.length) (k : Nat) :
    (splice i k u s).take (i + u.length) = s.take i ++ u := by
  have hlength : (s.take i ++ u).length = i + u.length := by
    rw [List.length_append, List.length_take_of_le h]
  rw [splice, ← hlength, List.take_left]

/-- The items that are replaced stand between two parts that stay. -/
theorem splice_append {pre post : List α} (mid u : List α) :
    splice pre.length mid.length u (pre ++ (mid ++ post)) = pre ++ (u ++ post) := by
  rw [splice, List.take_left, ← List.append_assoc pre mid, ← List.length_append, List.drop_left,
    List.append_assoc]

theorem splice_shift (pre : List α) (i k : Nat) (u s : List α) :
    splice (pre.length + i) k u (pre ++ s) = pre ++ splice i k u s := by
  rw [splice, splice, List.take_length_add_append, Nat.add_assoc, List.drop_length_add_append,
    List.append_assoc, List.append_assoc, List.append_assoc]

/-- What is behind the splice stays as well. -/
theorem splice_append_right {i k : Nat} {s : List α} (h : i + k ≤ s.length) (u post : List α) :
    splice i k u (s ++ post) = splice i k u s ++ post := by
  rw [splice, splice, List.take_append_of_le_length (by omega), List.drop_append_of_le_length h,
    List.append_assoc, List.append_assoc, List.append_assoc]

/-- Replacing one item. -/
theorem splice_one_singleton {i : Nat} {s : List α} (h : i < s.length) (a : α) :
    splice i 1 [a] s = s.set i a := by
  rw [splice, List.set_eq_take_append_cons_drop, if_pos h, List.append_assoc, List.singleton_append]

/-- **An edit of one list** is an edit of the concatenation. -/
theorem flatten_set_splice {pre post : List (List α)} {r : List α} {i k : Nat}
    (h : i + k ≤ r.length) (u : List α) :
    (pre ++ splice i k u r :: post).flatten =
      splice (pre.flatten.length + i) k u (pre ++ r :: post).flatten := by
  rw [List.flatten_append, List.flatten_append, List.flatten_cons, List.flatten_cons, splice_shift,
    splice_append_right h]

end HttpGarden.Lib
