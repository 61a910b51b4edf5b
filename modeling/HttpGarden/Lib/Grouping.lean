import Mathlib.Data.List.Basic
import Mathlib.Data.List.Nodup
import Mathlib.Data.List.Induction

/-!
# HttpGarden.Lib.Grouping

**Dictionaries in insertion order** that combine the values of equal keys. An entry keeps the
place of the first value that came for its key.

* `groupWith_filter`: selecting by key commutes with grouping.
* `groupWith_map`: so does renaming the keys, if no two of them become equal.
* `nodup_keys_groupWith`: after grouping there is one entry for each key.
* `keys_groupWith`: the entries are in the order in which their keys first occur.
* `groupWith_of_eq_key`: what is stored under a key are its values, combined from the left.
* `groupWith_eq_map`: these facts together determine the grouping.
-/

namespace HttpGarden.Lib

variable {κ κ' ν : Type} [BEq κ] [BEq κ']

/-- Combine the value with the one that is stored under the key, or add the key. -/
def insertWith (c : ν → ν → ν) (d : List (κ × ν)) (k : κ) (v : ν) : List (κ × ν) :=
  if d.any (·.1 == k) then d.map fun e => if e.1 == k then (e.1, c e.2 v) else e
  else d ++ [(k, v)]

/-- Insert one entry after the other into an empty dictionary. -/
def groupWith (c : ν → ν → ν) (l : List (κ × ν)) : List (κ × ν) :=
  l.foldl (fun d e => insertWith c d e.1 e.2) []

variable {c : ν → ν → ν} {d l : List (κ × ν)} {k : κ} {v : ν}

/-! ### Inserting -/

theorem fst_combine (e : κ × ν) : (if e.1 == k then (e.1, c e.2 v) else e).1 = e.1 := by
  split <;> rfl

theorem groupWith_append_singleton (l : List (κ × ν)) (e : κ × ν) :
    groupWith c (l ++ [e]) = insertWith c (groupWith c l) e.1 e.2 := by
  rw [groupWith, List.foldl_append]
  rfl

variable [LawfulBEq κ]

theorem any_key_iff : d.any (·.1 == k) = true ↔ ∃ e ∈ d, e.1 = k := by
  rw [List.any_eq_true]
  exact exists_congr fun e => and_congr_right fun _ => beq_iff_eq

theorem insertWith_of_mem (h : ∃ e ∈ d, e.1 = k) :
    insertWith c d k v = d.map fun e => if e.1 == k then (e.1, c e.2 v) else e := by
  rw [insertWith, if_pos (any_key_iff.mpr h)]

theorem insertWith_of_not_mem (h : ¬ ∃ e ∈ d, e.1 = k) : insertWith c d k v = d ++ [(k, v)] := by
  rw [insertWith, if_neg fun hany => h (any_key_iff.mp hany)]

/-- The keys stay where they are, and a new one comes last. -/
theorem keys_insertWith_of_mem (h : ∃ e ∈ d, e.1 = k) :
    (insertWith c d k v).map Prod.fst = d.map Prod.fst := by
  rw [insertWith_of_mem h, List.map_map]
  exact List.map_congr_left fun e _ => fst_combine e

theorem keys_insertWith_of_not_mem (h : ¬ ∃ e ∈ d, e.1 = k) :
    (insertWith c d k v).map Prod.fst = d.map Prod.fst ++ [k] := by
  rw [insertWith_of_not_mem h, List.map_append]
  rfl

theorem mem_keys_insertWith {x : κ} :
    x ∈ (insertWith c d k v).map Prod.fst ↔ x ∈ d.map Prod.fst ∨ x = k := by
  by_cases h : ∃ e ∈ d, e.1 = k
  · rw [keys_insertWith_of_mem h]
    refine ⟨Or.inl, fun hx => hx.elim id fun hx => ?_⟩
    rw [hx]
    exact List.mem_map.mpr h
  · rw [keys_insertWith_of_not_mem h, List.mem_append, List.mem_singleton]

theorem nodup_keys_insertWith (h : (d.map Prod.fst).Nodup) :
    ((insertWith c d k v).map Prod.fst).Nodup := by
  by_cases hk : ∃ e ∈ d, e.1 = k
  · rw [keys_insertWith_of_mem hk]
    exact h
  · rw [keys_insertWith_of_not_mem hk]
    refine List.nodup_append.mpr ⟨h, List.nodup_singleton k, fun x hx y hy hxy => hk ?_⟩
    rw [List.mem_singleton.mp hy] at hxy
    exact List.mem_map.mp (hxy ▸ hx)

/-- Selecting by key: an insertion under a key that is not selected leaves no trace. -/
theorem filter_insertWith (p : κ → Bool) :
    (insertWith c d k v).filter (fun e => p e.1) =
      if p k then insertWith c (d.filter fun e => p e.1) k v else d.filter fun e => p e.1 := by
  have hmem : (∃ e ∈ d.filter fun e => p e.1, e.1 = k) ↔ (∃ e ∈ d, e.1 = k) ∧ p k = true := by
    constructor
    · intro ⟨e, he, hek⟩
      obtain ⟨he, hp⟩ := List.mem_filter.mp he
      exact ⟨⟨e, he, hek⟩, hek ▸ hp⟩
    · intro ⟨⟨e, he, hek⟩, hp⟩
      exact ⟨e, List.mem_filter.mpr ⟨he, by rw [hek]; exact hp⟩, hek⟩
  by_cases hk : ∃ e ∈ d, e.1 = k
  · rw [insertWith_of_mem hk, List.filter_map]
    have hp : ((fun e : κ × ν => p e.1) ∘ fun e => if e.1 == k then (e.1, c e.2 v) else e) =
        fun e => p e.1 := funext fun e => congrArg p (fst_combine e)
    rw [hp]
    split
    · next h => rw [insertWith_of_mem (hmem.mpr ⟨hk, h⟩)]
    · next h =>
        refine (List.map_congr_left fun e he => if_neg fun hek => h ?_).trans (List.map_id _)
        exact eq_of_beq hek ▸ (List.mem_filter.mp he).2
  · rw [insertWith_of_not_mem hk, List.filter_append]
    split
    · next h =>
        rw [insertWith_of_not_mem fun h' => hk (hmem.mp h').1]
        simp only [List.filter_cons, h, if_true, List.filter_nil]
    · next h => simp [h]

variable [LawfulBEq κ'] in
/-- Renaming the keys, when no other key becomes equal to the one that is inserted. -/
theorem map_insertWith (f : κ → κ') (hf : ∀ e ∈ d, f e.1 = f k → e.1 = k) :
    (insertWith c d k v).map (Prod.map f id) = insertWith c (d.map (Prod.map f id)) (f k) v := by
  by_cases hk : ∃ e ∈ d, e.1 = k
  · have hk' : ∃ e ∈ d.map (Prod.map f id), e.1 = f k := by
      obtain ⟨e, he, hek⟩ := hk
      exact ⟨Prod.map f id e, List.mem_map_of_mem he, congrArg f hek⟩
    rw [insertWith_of_mem hk, insertWith_of_mem hk', List.map_map, List.map_map]
    refine List.map_congr_left fun e he => ?_
    by_cases hek : e.1 = k
    · simp [hek]
    · have hfek : f e.1 ≠ f k := fun h => hek (hf e he h)
      simp [hek, hfek]
  · have hk' : ¬ ∃ e ∈ d.map (Prod.map f id), e.1 = f k := by
      intro ⟨e', he', hek⟩
      obtain ⟨e, he, rfl⟩ := List.mem_map.mp he'
      exact hk ⟨e, he, hf e he hek⟩
    rw [insertWith_of_not_mem hk, insertWith_of_not_mem hk', List.map_append]
    rfl

/-! ### Grouping -/

theorem mem_keys_groupWith {x : κ} :
    x ∈ (groupWith c l).map Prod.fst ↔ x ∈ l.map Prod.fst := by
  induction l using List.reverseRecOn with
  | nil => exact Iff.rfl
  | append_singleton l e ih =>
      rw [groupWith_append_singleton, mem_keys_insertWith, ih, List.map_append, List.mem_append]
      exact or_congr_right List.mem_singleton.symm

theorem nodup_keys_groupWith : ((groupWith c l).map Prod.fst).Nodup := by
  induction l using List.reverseRecOn with
  | nil => exact List.nodup_nil
  | append_singleton l e ih =>
      rw [groupWith_append_singleton]
      exact nodup_keys_insertWith ih

/-- **The keys** are in the order of their first occurrence. -/
theorem keys_groupWith : (groupWith c l).map Prod.fst = (l.map Prod.fst).eraseDups := by
  induction l using List.reverseRecOn with
  | nil => rfl
  | append_singleton l e ih =>
      have hkey : e.1 ∈ l.map Prod.fst ↔ ∃ e' ∈ groupWith c l, e'.1 = e.1 := by
        rw [← mem_keys_groupWith (c := c), List.mem_map]
      rw [groupWith_append_singleton, List.map_append, List.eraseDups_append, List.map_singleton]
      by_cases hk : ∃ e' ∈ groupWith c l, e'.1 = e.1
      · rw [keys_insertWith_of_mem hk, ih]
        simp [List.removeAll, hkey.mpr hk]
      · rw [keys_insertWith_of_not_mem hk, ih]
        simp [List.removeAll, mt hkey.mp hk, List.eraseDups_cons]

/-- A property of the values that combining keeps. -/
theorem forall_groupWith {P : ν → Prop} (hc : ∀ v w, P v → P w → P (c v w))
    (hl : ∀ e ∈ l, P e.2) : ∀ e ∈ groupWith c l, P e.2 := by
  induction l using List.reverseRecOn with
  | nil => exact fun _ h => absurd h List.not_mem_nil
  | append_singleton l e ih =>
      obtain ⟨hl, he⟩ := List.forall_mem_append.mp hl
      have hlast := he e (List.mem_singleton_self e)
      rw [groupWith_append_singleton]
      by_cases hk : ∃ e' ∈ groupWith c l, e'.1 = e.1
      · rw [insertWith_of_mem hk]
        refine List.forall_mem_map.mpr fun e' he' => ?_
        split
        · exact hc _ _ (ih hl e' he') hlast
        · exact ih hl e' he'
      · rw [insertWith_of_not_mem hk]
        exact List.forall_mem_append.mpr ⟨ih hl, List.forall_mem_singleton.mpr hlast⟩

/-- **Selecting by key** commutes with grouping. -/
theorem groupWith_filter (p : κ → Bool) :
    groupWith c (l.filter fun e => p e.1) = (groupWith c l).filter fun e => p e.1 := by
  induction l using List.reverseRecOn with
  | nil => rfl
  | append_singleton l e ih =>
      rw [groupWith_append_singleton, filter_insertWith, List.filter_append, ← ih]
      by_cases h : p e.1 = true
      · rw [if_pos h, List.filter_singleton, h]
        exact groupWith_append_singleton _ e
      · rw [if_neg h, List.filter_singleton, Bool.eq_false_iff.mpr h]
        exact congrArg (groupWith c) (List.append_nil _)

/-- The values of one key are combined from the left. -/
theorem groupWith_of_eq_key (hl : ∀ e ∈ l, e.1 = k) :
    groupWith c ((k, v) :: l) = [(k, (l.map Prod.snd).foldl c v)] := by
  induction l using List.reverseRecOn with
  | nil => rfl
  | append_singleton l e ih =>
      obtain ⟨hl, he⟩ := List.forall_mem_append.mp hl
      have hkey : e.1 = k := he e (List.mem_singleton_self e)
      rw [← List.cons_append, groupWith_append_singleton, ih hl,
        insertWith_of_mem ⟨_, List.mem_singleton_self _, hkey.symm⟩, List.map_append,
        List.foldl_append, hkey]
      simp

/-- **A grouping in closed form**: for each key, in the order of first occurrence, its values
combined from the left. -/
theorem groupWith_eq_map (f : κ → ν)
    (hf : ∀ k v vs, (l.filter fun e => e.1 == k) = (k, v) :: vs → f k = (vs.map Prod.snd).foldl c v) :
    groupWith c l = (l.map Prod.fst).eraseDups.map fun k => (k, f k) := by
  have hentry : ∀ e ∈ groupWith c l, (e.1, f e.1) = e := by
    intro e he
    have hkey : e.1 ∈ l.map Prod.fst := mem_keys_groupWith.mp (List.mem_map_of_mem he)
    have hmem : e ∈ groupWith c (l.filter fun x => x.1 == e.1) := by
      rw [groupWith_filter fun k => k == e.1]
      exact List.mem_filter.mpr ⟨he, beq_self_eq_true _⟩
    have hall : ∀ x ∈ l.filter fun x => x.1 == e.1, x.1 = e.1 :=
      fun x hx => eq_of_beq (List.mem_filter.mp hx).2
    cases hfilter : l.filter fun x => x.1 == e.1 with
    | nil =>
        obtain ⟨x, hx, hxe⟩ := List.mem_map.mp hkey
        have hx' : x ∈ l.filter fun x => x.1 == e.1 :=
          List.mem_filter.mpr ⟨hx, beq_iff_eq.mpr hxe⟩
        rw [hfilter] at hx'
        exact absurd hx' List.not_mem_nil
    | cons x vs =>
        rw [hfilter] at hmem hall
        obtain ⟨hx, hvs⟩ := List.forall_mem_cons.mp hall
        have hx' : x = (e.1, x.2) := Prod.ext hx rfl
        rw [hx', groupWith_of_eq_key hvs, List.mem_singleton] at hmem
        rw [hf e.1 x.2 vs (by rw [hfilter, ← hx'])]
        exact hmem.symm
  rw [← keys_groupWith (c := c), List.map_map]
  exact ((List.map_congr_left hentry).trans (List.map_id _)).symm

/-- Grouping what has each key once changes nothing. -/
theorem groupWith_of_nodup (h : (l.map Prod.fst).Nodup) : groupWith c l = l := by
  induction l using List.reverseRecOn with
  | nil => rfl
  | append_singleton l e ih =>
      rw [List.map_append, List.nodup_append] at h
      obtain ⟨hl, -, hdisjoint⟩ := h
      rw [groupWith_append_singleton, ih hl, insertWith_of_not_mem]
      intro ⟨e', he', heq⟩
      exact hdisjoint e'.1 (List.mem_map_of_mem he') e.1 (List.mem_singleton_self _) heq

/-- Entries are in the same order key by key: then they are the same, up to order. -/
theorem perm_of_filter_eq [DecidableEq ν] {l' : List (κ × ν)}
    (h : ∀ k : κ, l.filter (fun e => e.1 == k) = l'.filter fun e => e.1 == k) : l.Perm l' := by
  rw [List.perm_iff_count]
  intro e
  have hcount (m : List (κ × ν)) : m.count e = (m.filter fun e' => e'.1 == e.1).count e :=
    (List.count_filter (p := fun e' : κ × ν => e'.1 == e.1) (beq_self_eq_true e.1)).symm
  rw [hcount, hcount l', h e.1]

/-- **The order of different keys** does not matter: grouping is the same up to order. -/
theorem groupWith_perm [DecidableEq ν] {l' : List (κ × ν)}
    (h : ∀ k : κ, l.filter (fun e => e.1 == k) = l'.filter fun e => e.1 == k) :
    (groupWith c l).Perm (groupWith c l') := by
  refine perm_of_filter_eq fun k => ?_
  rw [← groupWith_filter (fun x => x == k), h k, groupWith_filter fun x => x == k]

variable [LawfulBEq κ'] in
/-- **Renaming the keys** commutes with grouping, if no two of them become equal. -/
theorem groupWith_map (f : κ → κ') (hf : ∀ a ∈ l, ∀ b ∈ l, f a.1 = f b.1 → a.1 = b.1) :
    groupWith c (l.map (Prod.map f id)) = (groupWith c l).map (Prod.map f id) := by
  induction l using List.reverseRecOn with
  | nil => rfl
  | append_singleton l e ih =>
      have hl : ∀ a ∈ l, a ∈ l ++ [e] := fun a ha => List.mem_append_left [e] ha
      rw [groupWith_append_singleton, map_insertWith, ← ih fun a ha b hb => hf a (hl a ha) b (hl b hb),
        List.map_append]
      · exact groupWith_append_singleton _ _
      · intro a ha heq
        obtain ⟨b, hb, hba⟩ := List.mem_map.mp
          (mem_keys_groupWith.mp (List.mem_map_of_mem (f := Prod.fst) ha))
        rw [← hba] at heq ⊢
        exact hf b (hl b hb) e (List.mem_append_right l (List.mem_singleton_self e)) heq

/-- A grouping whose renamed keys are still distinct had no two that became equal. -/
theorem injOn_of_nodup_keys {κ' : Type} (f : κ → κ')
    (h : (((groupWith c l).map (Prod.map f id)).map Prod.fst).Nodup) :
    ∀ a ∈ l, ∀ b ∈ l, f a.1 = f b.1 → a.1 = b.1 := by
  have hkeys : ((groupWith c l).map Prod.fst).map f =
      ((groupWith c l).map (Prod.map f id)).map Prod.fst := by
    rw [List.map_map, List.map_map]
    rfl
  rw [← hkeys] at h
  intro a ha b hb heq
  have hmem (e : κ × ν) (he : e ∈ l) : e.1 ∈ (groupWith c l).map Prod.fst :=
    mem_keys_groupWith.mpr (List.mem_map_of_mem he)
  exact List.inj_on_of_nodup_map h (hmem a ha) (hmem b hb) heq

end HttpGarden.Lib
