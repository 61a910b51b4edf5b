import Mathlib.Data.List.Nodup
import Mathlib.Data.List.Sort
import Mathlib.Logic.Function.Basic

/-!
# HttpGarden.Lib.Ledger

**Entries under keys**, each with the time at which it was made. One clock counts all of them.

`Records` says of which history a ledger is a record.

* `Records.add`, `Records.drop`: what the operations do to that history.
* `Records.merge`: by time, the entries under two keys are in the order in which they were made.
* `Records.handle`: a ledger from which some inputs drop their key is a record of what is
  `remaining` of the inputs.
-/

namespace HttpGarden.Lib

structure Ledger (κ α : Type) where
  clock : Nat
  entries : κ → Option (List (Nat × α))

namespace Ledger

variable {κ α : Type} [DecidableEq κ]

/-- A new entry, behind the others under its key. -/
def add (l : Ledger κ α) (k : κ) (a : α) : Ledger κ α where
  clock := l.clock + 1
  entries := Function.update l.entries k (some ((l.entries k).getD [] ++ [(l.clock, a)]))

/-- The key is forgotten, with its entries. -/
def drop (l : Ledger κ α) (k : κ) : Ledger κ α :=
  { l with entries := Function.update l.entries k none }

/-- The entries under two keys, by time. -/
def merge (l : Ledger κ α) (k k' : κ) : List (Nat × α) :=
  ((l.entries k).getD [] ++ (l.entries k').getD []).mergeSort fun a b => a.1 ≤ b.1

variable {l : Ledger κ α} {key : α → κ} {log : List (Nat × α)} {as : List α} {k k' : κ}

theorem entries_add_self (l : Ledger κ α) (k : κ) (a : α) :
    (l.add k a).entries k = some ((l.entries k).getD [] ++ [(l.clock, a)]) :=
  Function.update_self ..

theorem entries_add_of_ne (l : Ledger κ α) (h : k' ≠ k) (a : α) :
    (l.add k a).entries k' = l.entries k' :=
  Function.update_of_ne h ..

theorem entries_drop_self (l : Ledger κ α) (k : κ) : (l.drop k).entries k = none :=
  Function.update_self ..

theorem entries_drop_of_ne (l : Ledger κ α) (h : k' ≠ k) : (l.drop k).entries k' = l.entries k' :=
  Function.update_of_ne h ..

/-! ### The entries by time -/

/-- All entries together, by time, are `log`. -/
structure Holds (l : Ledger κ α) (key : α → κ) (log : List (Nat × α)) : Prop where
  sorted : log.Pairwise fun a b => a.1 < b.1
  past : ∀ e ∈ log, e.1 < l.clock
  entries : ∀ k, (l.entries k).getD [] = log.filter fun e => key e.2 = k
  known : ∀ k, l.entries k = none ↔ ∀ e ∈ log, key e.2 ≠ k

theorem Holds.add (h : l.Holds key log) (a : α) :
    (l.add (key a) a).Holds key (log ++ [(l.clock, a)]) where
  sorted := by
    refine List.pairwise_append.mpr ⟨h.sorted, List.pairwise_singleton _ _, fun e he e' he' => ?_⟩
    rw [List.mem_singleton.mp he']
    exact h.past e he
  past := by
    intro e he
    rcases List.mem_append.mp he with he | he
    · exact Nat.lt_succ_of_lt (h.past e he)
    · rw [List.mem_singleton.mp he]
      exact Nat.lt_succ_self l.clock
  entries := by
    intro k
    rw [List.filter_append, ← h.entries k]
    by_cases hk : k = key a
    · rw [hk, entries_add_self, List.filter_cons_of_pos (by simp)]
      rfl
    · rw [entries_add_of_ne l hk, List.filter_cons_of_neg (by simpa using Ne.symm hk)]
      exact (List.append_nil _).symm
  known := by
    intro k
    rw [List.forall_mem_append, List.forall_mem_singleton, ← h.known k]
    by_cases hk : k = key a
    · rw [hk, entries_add_self]
      exact ⟨nofun, fun hnone => absurd rfl hnone.2⟩
    · rw [entries_add_of_ne l hk]
      exact ⟨fun hnone => ⟨hnone, Ne.symm hk⟩, And.left⟩

theorem Holds.drop (h : l.Holds key log) (k : κ) :
    (l.drop k).Holds key (log.filter fun e => key e.2 ≠ k) where
  sorted := h.sorted.filter _
  past := fun e he => h.past e (List.mem_of_mem_filter he)
  entries := by
    intro k'
    rw [List.filter_filter]
    by_cases hk : k' = k
    · rw [hk, entries_drop_self]
      refine (List.filter_eq_nil_iff.mpr fun e _ => ?_).symm
      simp
    · rw [entries_drop_of_ne l hk, h.entries k']
      refine List.filter_congr fun e _ => ?_
      by_cases he : key e.2 = k'
      · simp [he, hk]
      · simp [he]
  known := by
    intro k'
    by_cases hk : k' = k
    · rw [hk, entries_drop_self]
      exact ⟨fun _ e he => of_decide_eq_true (List.mem_filter.mp he).2, fun _ => rfl⟩
    · rw [entries_drop_of_ne l hk, h.known k']
      refine ⟨fun hall e he => hall e (List.mem_of_mem_filter he), fun hall e he heq => ?_⟩
      exact hall e (List.mem_filter.mpr ⟨he, by simpa [heq] using hk⟩) heq

theorem Holds.mono (h : l.Holds key log) {clock : Nat} (hclock : l.clock ≤ clock) :
    Holds { l with clock } key log :=
  { h with past := fun e he => Nat.lt_of_lt_of_le (h.past e he) hclock }

/-- **Sorting by time** puts the entries under two keys back into one order. -/
theorem Holds.merge (h : l.Holds key log) (hk : k ≠ k') :
    l.merge k k' = log.filter fun e => key e.2 = k ∨ key e.2 = k' := by
  have hsorted : (log.filter fun e => key e.2 = k ∨ key e.2 = k').Pairwise fun a b => a.1 ≤ b.1 :=
    (h.sorted.filter _).imp le_of_lt
  -- no two entries are of the same time
  have htimes : (log.map (·.1)).Nodup := List.pairwise_map.mpr (h.sorted.imp ne_of_lt)
  have hperm : ((l.entries k).getD [] ++ (l.entries k').getD []).Perm
      (log.filter fun e => key e.2 = k ∨ key e.2 = k') := by
    have hsplit := List.filter_append_perm (fun e => key e.2 = k)
      (log.filter fun e => key e.2 = k ∨ key e.2 = k')
    rw [List.filter_filter, List.filter_filter] at hsplit
    rw [h.entries, h.entries]
    convert hsplit using 2
    · refine List.filter_congr fun e _ => ?_
      by_cases he : key e.2 = k <;> simp [he]
    · refine List.filter_congr fun e _ => ?_
      by_cases he : key e.2 = k
      · simp [he, hk]
      · simp [he]
  have hmerge : (l.merge k k').Perm (log.filter fun e => key e.2 = k ∨ key e.2 = k') :=
    (List.mergeSort_perm _ _).trans hperm
  refine List.Perm.eq_of_pairwise (fun a b ha hb hab hba => ?_) ?_ hsorted hmerge
  · exact List.inj_on_of_nodup_map htimes (List.mem_of_mem_filter (hmerge.mem_iff.mp ha))
      (List.mem_of_mem_filter hb) (le_antisymm hab hba)
  · have hpairwise := @List.pairwise_mergeSort (Nat × α) (fun a b => decide (a.1 ≤ b.1))
      (fun a b c hab hbc => by simpa using le_trans (of_decide_eq_true hab) (of_decide_eq_true hbc))
      (fun a b => by simpa using le_total a.1 b.1) ((l.entries k).getD [] ++ (l.entries k').getD [])
    exact hpairwise.imp of_decide_eq_true

/-! ### Histories -/

/-- The ledger is a record of `as`, which came in this order. -/
def Records (l : Ledger κ α) (key : α → κ) (as : List α) : Prop :=
  ∃ log, l.Holds key log ∧ log.map (·.2) = as

theorem records_nil (clock : Nat) : (⟨clock, fun _ => none⟩ : Ledger κ α).Records key [] :=
  ⟨[], ⟨.nil, nofun, fun _ => rfl, fun _ => ⟨fun _ => nofun, fun _ => rfl⟩⟩, rfl⟩

theorem Records.add (h : l.Records key as) (a : α) : (l.add (key a) a).Records key (as ++ [a]) := by
  obtain ⟨log, hlog, rfl⟩ := h
  exact ⟨_, hlog.add a, List.map_append⟩

theorem Records.drop (h : l.Records key as) (k : κ) :
    (l.drop k).Records key (as.filter fun a => key a ≠ k) := by
  obtain ⟨log, hlog, rfl⟩ := h
  refine ⟨_, hlog.drop k, ?_⟩
  rw [List.filter_map]
  rfl

/-- The clock may go on by itself. -/
theorem Records.mono (h : l.Records key as) {clock : Nat} (hclock : l.clock ≤ clock) :
    Records { l with clock } key as := by
  obtain ⟨log, hlog, rfl⟩ := h
  exact ⟨log, hlog.mono hclock, rfl⟩

/-- A key is unknown exactly if nothing is recorded under it. -/
theorem Records.entries_eq_none (h : l.Records key as) (k : κ) :
    l.entries k = none ↔ ∀ a ∈ as, key a ≠ k := by
  obtain ⟨log, hlog, rfl⟩ := h
  rw [hlog.known k, List.forall_mem_map]

theorem Records.merge (h : l.Records key as) (hk : k ≠ k') :
    (l.merge k k').map (·.2) = as.filter fun a => key a = k ∨ key a = k' := by
  obtain ⟨log, hlog, rfl⟩ := h
  rw [hlog.merge hk, List.filter_map]
  rfl

end Ledger

/-! ### What remains of a history -/

variable {α : Type}

/-- The elements that are kept, in view of those that came after them. -/
def keep (kept : α → List α → Prop) [∀ a as, Decidable (kept a as)] : List α → List α
  | [] => []
  | a :: as => if kept a as then a :: keep kept as else keep kept as

section

variable {kept kept' : α → List α → Prop} [∀ a as, Decidable (kept a as)]
  [∀ a as, Decidable (kept' a as)] {as : List α}

theorem keep_sublist : (keep kept as).Sublist as := by
  induction as with
  | nil => exact .slnil
  | cons a as ih =>
      rw [keep]
      split
      · exact ih.cons_cons a
      · exact ih.cons a

theorem filter_keep (p : α → Prop) [DecidablePred p] :
    (keep kept as).filter p = keep (fun a as => kept a as ∧ p a) as := by
  induction as with
  | nil => rfl
  | cons a as ih =>
      rw [keep, keep]
      by_cases hkept : kept a as
      · rw [if_pos hkept]
        by_cases hp : p a
        · rw [List.filter_cons_of_pos (by simpa using hp), if_pos ⟨hkept, hp⟩, ih]
        · rw [List.filter_cons_of_neg (by simpa using hp), if_neg (mt And.right hp), ih]
      · rw [if_neg hkept, if_neg (mt And.left hkept), ih]

theorem keep_congr (h : ∀ before a after, as = before ++ a :: after → (kept a after ↔ kept' a after)) :
    keep kept as = keep kept' as := by
  induction as with
  | nil => rfl
  | cons a as ih =>
      have hrest := ih fun before b after has =>
        h (a :: before) b after (congrArg (List.cons a) has)
      rw [keep, keep, hrest]
      exact if_congr (h [] a as rfl) rfl rfl

end

namespace Ledger

variable {κ : Type} [DecidableEq κ] {key : α → κ} {adds drops : α → Prop} [DecidablePred adds]
  [DecidablePred drops] {l : Ledger κ α} {as : List α}

/-- An input may be added under its key, and the key may be dropped after that. -/
def handle (key : α → κ) (adds drops : α → Prop) [DecidablePred adds] [DecidablePred drops]
    (l : Ledger κ α) (a : α) : Ledger κ α :=
  let l := if adds a then l.add (key a) a else l
  if drops a then l.drop (key a) else l

/-- What was added, and since when the key has not been dropped. -/
def remaining (key : α → κ) (adds drops : α → Prop) [DecidablePred adds] [DecidablePred drops] :
    List α → List α :=
  keep fun a later => adds a ∧ ∀ b ∈ a :: later, key b = key a → ¬ drops b

/-- One more input. -/
theorem remaining_append_singleton (as : List α) (a : α) :
    remaining key adds drops (as ++ [a]) =
      if drops a then (remaining key adds drops as).filter fun b => key b ≠ key a
      else remaining key adds drops as ++ if adds a then [a] else [] := by
  induction as with
  | nil =>
      by_cases hdrops : drops a
      · simp [remaining, keep, hdrops]
      · simp [remaining, keep, hdrops]
  | cons b as ih =>
      -- `a` is one more input that may drop the key of `b`
      have hlater : (∀ c ∈ b :: (as ++ [a]), key c = key b → ¬ drops c) ↔
          (∀ c ∈ b :: as, key c = key b → ¬ drops c) ∧ (key a = key b → ¬ drops a) := by
        rw [← List.cons_append, List.forall_mem_append, List.forall_mem_singleton]
      unfold remaining at ih ⊢
      rw [List.cons_append, keep, keep, ih]
      by_cases hb : adds b ∧ ∀ c ∈ b :: as, key c = key b → ¬ drops c
      · rw [if_pos hb]
        by_cases hdrops : drops a
        · rw [if_pos hdrops, if_pos hdrops]
          by_cases hkey : key a = key b
          · rw [if_neg fun h => (hlater.mp h.2).2 hkey hdrops, List.filter_cons_of_neg (by simp [hkey])]
          · rw [if_pos ⟨hb.1, hlater.mpr ⟨hb.2, fun h => absurd h hkey⟩⟩,
              List.filter_cons_of_pos (by simpa using Ne.symm hkey)]
        · rw [if_neg hdrops, if_neg hdrops, if_pos ⟨hb.1, hlater.mpr ⟨hb.2, fun _ => hdrops⟩⟩]
          rfl
      · rw [if_neg hb, if_neg fun h => hb ⟨h.1, (hlater.mp h.2).1⟩]

theorem Records.handle (h : l.Records key (remaining key adds drops as)) (a : α) :
    (l.handle key adds drops a).Records key (remaining key adds drops (as ++ [a])) := by
  have hadd : (if adds a then l.add (key a) a else l).Records key
      (remaining key adds drops as ++ if adds a then [a] else []) := by
    split
    · exact h.add a
    · rwa [List.append_nil]
  rw [remaining_append_singleton, Ledger.handle]
  by_cases hdrops : drops a
  · have hdrop := hadd.drop (key a)
    rw [if_pos hdrops, if_pos hdrops]
    rw [List.filter_append] at hdrop
    have hself : (if adds a then [a] else []).filter (fun b => key b ≠ key a) = [] := by
      split <;> simp
    rwa [hself, List.append_nil] at hdrop
  · rwa [if_neg hdrops, if_neg hdrops]

end Ledger

end HttpGarden.Lib
