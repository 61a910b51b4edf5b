import Mathlib.Tactic

/-!
# HttpGarden.Lib.FirstFit

**Grouping by first fit**: every element in turn goes to the first group that it fits, or becomes
a group of its own. Whether it fits is a computation on a state that the whole run threads.

`firstFit_spec` says what placing one element can do; the theorems about `groupFirstFit` follow by
induction on the elements. Nothing is lost, everything stays in order, and every element fitted
the members that were before it in its group (`groupFirstFit_spec`).
-/

namespace HttpGarden.Lib

variable {α σ : Type}

/-- Put `x` into the first group that it fits, or into a new one. -/
def firstFit (fits : List α → σ → Bool × σ) (x : α) : List (List α) → σ → List (List α) × σ
  | [], s => ([[x]], s)
  | g :: gs, s =>
    let m := fits g s
    if m.1 then ((g ++ [x]) :: gs, m.2)
    else
      let ms := firstFit fits x gs m.2
      (g :: ms.1, ms.2)

/-- One element after the other. -/
def groupFirstFit (fits : α → List α → σ → Bool × σ) (xs : List α) (s : σ) :
    List (List α) × σ :=
  xs.foldl (fun m x => firstFit (fits x) x m.1 m.2) ([], s)

/-- What placing `x` makes of the groups. -/
inductive Placed (Fitted : List α → Prop) (x : α) : List (List α) → List (List α) → Prop
  | into (pre : List (List α)) (g : List α) (post : List (List α)) (hfit : Fitted g) :
      Placed Fitted x (pre ++ g :: post) (pre ++ (g ++ [x]) :: post)
  | alone (gs : List (List α)) : Placed Fitted x gs (gs ++ [[x]])

theorem Placed.cons {Fitted : List α → Prop} {x : α} {gs gs' : List (List α)} (g : List α)
    (h : Placed Fitted x gs gs') : Placed Fitted x (g :: gs) (g :: gs') := by
  cases h with
  | into pre g' post hfit => exact .into (g :: pre) g' post hfit
  | alone => exact .alone (g :: gs)

theorem Placed.mono {P Q : List α → Prop} (hPQ : ∀ g, P g → Q g) {x : α} {gs gs' : List (List α)}
    (h : Placed P x gs gs') : Placed Q x gs gs' := by
  cases h with
  | into pre g post hfit => exact .into pre g post (hPQ g hfit)
  | alone => exact .alone gs

/-- **One element.** `I` is what all tests keep, and `F` what a test that succeeds establishes. -/
theorem firstFit_spec {fits : List α → σ → Bool × σ} {I : σ → Prop} {F : List α → σ → Prop}
    {gs : List (List α)} (hI : ∀ g ∈ gs, ∀ s, I s → I (fits g s).2)
    (hF : ∀ g ∈ gs, ∀ s, I s → (fits g s).1 = true → F g (fits g s).2) (x : α) {s : σ} (hs : I s) :
    I (firstFit fits x gs s).2 ∧
      Placed (fun g => F g (firstFit fits x gs s).2) x gs (firstFit fits x gs s).1 := by
  induction gs generalizing s with
  | nil => exact ⟨hs, .alone []⟩
  | cons g gs ih =>
      obtain ⟨hIg, hI⟩ := List.forall_mem_cons.mp hI
      obtain ⟨hFg, hF⟩ := List.forall_mem_cons.mp hF
      simp only [firstFit]
      split
      · next hfit => exact ⟨hIg s hs, .into [] g gs (hFg s hs hfit)⟩
      · obtain ⟨hI', hplaced⟩ := ih hI hF (hIg s hs)
        exact ⟨hI', hplaced.cons g⟩

/-! ### A whole run -/

/-- Every element of the group fitted the ones before it. -/
def Admitted (F : α → List α → Prop) (g : List α) : Prop :=
  ∀ pre x post, g = pre ++ x :: post → pre ≠ [] → F x pre

theorem admitted_singleton {F : α → List α → Prop} (x : α) : Admitted F [x] := by
  intro pre y post h hne
  cases pre with
  | nil => exact absurd rfl hne
  | cons z pre => simp at h

theorem Admitted.append {F : α → List α → Prop} {g : List α} {x : α} (h : Admitted F g)
    (hx : F x g) : Admitted F (g ++ [x]) := by
  intro pre y post heq hne
  rcases List.eq_nil_or_concat post with rfl | ⟨post, z, rfl⟩
  · obtain ⟨rfl, hxy⟩ := List.append_inj' heq rfl
    cases hxy
    exact hx
  · rw [List.concat_eq_append, ← List.cons_append, ← List.append_assoc] at heq
    exact h pre y post (List.append_inj' heq rfl).1 hne

/-- The groups of a run over `xs`: nothing is lost, members and groups are in the order of `xs`,
and every member fitted the ones before it. -/
structure FirstFitGroups (F : α → List α → Prop) (xs : List α) (gs : List (List α)) : Prop where
  perm : gs.flatten.Perm xs
  ne_nil : ∀ g ∈ gs, g ≠ []
  sublist : ∀ g ∈ gs, g.Sublist xs
  heads : (gs.filterMap List.head?).Sublist xs
  admitted : ∀ g ∈ gs, Admitted F g

theorem FirstFitGroups.mono {F F' : α → List α → Prop} (hF : ∀ x g, F x g → F' x g) {xs : List α}
    {gs : List (List α)} (h : FirstFitGroups F xs gs) : FirstFitGroups F' xs gs :=
  { h with admitted := fun g hg pre x post heq hne => hF x pre (h.admitted g hg pre x post heq hne) }

/-- Placing one more element. -/
theorem FirstFitGroups.place {F : α → List α → Prop} {xs : List α} {gs gs' : List (List α)} {x : α}
    (h : FirstFitGroups F xs gs) (hplaced : Placed (F x) x gs gs') :
    FirstFitGroups F (xs ++ [x]) gs' := by
  have hxs : xs.Sublist (xs ++ [x]) := List.sublist_append_left xs [x]
  cases hplaced with
  | alone =>
      refine ⟨?_, ?_, ?_, ?_, ?_⟩
      · rw [List.flatten_concat]
        exact h.perm.append_right [x]
      · exact List.forall_mem_append.mpr ⟨h.ne_nil, by simp⟩
      · exact List.forall_mem_append.mpr ⟨fun g hg => (h.sublist g hg).trans hxs, by simp⟩
      · rw [List.filterMap_append]
        exact h.heads.append (List.Sublist.refl [x])
      · refine List.forall_mem_append.mpr ⟨h.admitted, fun g hg => ?_⟩
        rw [List.mem_singleton.mp hg]
        exact admitted_singleton x
  | into pre g post hfit =>
      have hold : ∀ g' ∈ pre ++ post, g' ∈ pre ++ g :: post := by
        intro g' hg'
        exact (List.mem_append.mp hg').elim (List.mem_append_left _)
          fun hpost => List.mem_append_right _ (List.mem_cons_of_mem g hpost)
      have hg : g ∈ pre ++ g :: post := List.mem_append_right pre List.mem_cons_self
      have hcases {P : List α → Prop} (hrest : ∀ g' ∈ pre ++ post, P g') (hnew : P (g ++ [x])) :
          ∀ g' ∈ pre ++ (g ++ [x]) :: post, P g' := by
        intro g' hg'
        rcases List.mem_append.mp hg' with hpre | hmem
        · exact hrest g' (List.mem_append_left post hpre)
        · rcases List.mem_cons.mp hmem with rfl | hpost
          · exact hnew
          · exact hrest g' (List.mem_append_right pre hpost)
      refine ⟨?_, ?_, ?_, ?_, ?_⟩
      · have hmove : (pre ++ (g ++ [x]) :: post).flatten.Perm ((pre ++ g :: post).flatten ++ [x]) := by
          simp only [List.flatten_append, List.flatten_cons, List.append_assoc]
          exact (List.perm_append_comm.append_left g).append_left pre.flatten
        exact hmove.trans (h.perm.append_right [x])
      · exact hcases (fun g' hg' => h.ne_nil g' (hold g' hg')) (by simp)
      · exact hcases (fun g' hg' => (h.sublist g' (hold g' hg')).trans hxs)
          ((h.sublist g hg).append (List.Sublist.refl [x]))
      · have hhead : (g ++ [x]).head? = g.head? :=
          List.head?_append_of_ne_nil g (h.ne_nil g hg)
        have hheads := h.heads
        rw [List.filterMap_append, List.filterMap_cons] at hheads ⊢
        rw [hhead]
        exact hheads.trans hxs
      · exact hcases (fun g' hg' => h.admitted g' (hold g' hg')) ((h.admitted g hg).append hfit)

/-- **A whole run.** `I` is what the tests of elements of `xs` keep. A test of `x` against `g` that
succeeds establishes `F x g`, and no test undoes that. -/
theorem groupFirstFit_spec {fits : α → List α → σ → Bool × σ} {Q : α → Prop} {I : σ → Prop}
    {F : σ → α → List α → Prop}
    (hI : ∀ x g, Q x → (∀ y ∈ g, Q y) → ∀ s, I s → I (fits x g s).2)
    (hF : ∀ x g, Q x → (∀ y ∈ g, Q y) → ∀ s, I s → (fits x g s).1 = true → F (fits x g s).2 x g)
    (hkeep : ∀ x g s y g', F s y g' → F (fits x g s).2 y g') {xs : List α} (hxs : ∀ x ∈ xs, Q x)
    {s : σ} (hs : I s) :
    I (groupFirstFit fits xs s).2 ∧
      FirstFitGroups (F (groupFirstFit fits xs s).2) xs (groupFirstFit fits xs s).1 := by
  induction xs using List.reverseRecOn with
  | nil => exact ⟨hs, List.Perm.refl _, by simp [groupFirstFit], by simp [groupFirstFit],
      by simp [groupFirstFit], by simp [groupFirstFit]⟩
  | append_singleton xs x ih =>
      obtain ⟨hxs, hx⟩ := List.forall_mem_append.mp hxs
      have hx := hx x (List.mem_singleton_self x)
      obtain ⟨hI', hgroups⟩ := ih hxs
      have hmembers : ∀ g ∈ (groupFirstFit fits xs s).1, ∀ y ∈ g, Q y := fun g hg y hy =>
        hxs y ((hgroups.sublist g hg).subset hy)
      have hrun : groupFirstFit fits (xs ++ [x]) s =
          firstFit (fits x) x (groupFirstFit fits xs s).1 (groupFirstFit fits xs s).2 := by
        rw [groupFirstFit, List.foldl_append]
        rfl
      -- placing `x` keeps what is known of the elements placed before
      obtain ⟨⟨hI'', hkept⟩, hplaced⟩ := firstFit_spec
        (I := fun s' => I s' ∧ ∀ y g', F (groupFirstFit fits xs s).2 y g' → F s' y g')
        (F := fun g s' => F s' x g)
        (fun g hg s' h => ⟨hI x g hx (hmembers g hg) s' h.1,
          fun y g' hy => hkeep x g s' y g' (h.2 y g' hy)⟩)
        (fun g hg s' h hfit => hF x g hx (hmembers g hg) s' h.1 hfit) x
        ⟨hI', fun _ _ hy => hy⟩
      rw [hrun]
      exact ⟨hI'', (hgroups.mono hkept).place hplaced⟩

/-- Whatever the tests do, nothing is lost. -/
theorem groupFirstFit_perm (fits : α → List α → σ → Bool × σ) (xs : List α) (s : σ) :
    (groupFirstFit fits xs s).1.flatten.Perm xs := by
  have hspec : True ∧ FirstFitGroups (fun _ _ => True) xs (groupFirstFit fits xs s).1 :=
    groupFirstFit_spec (Q := fun _ => True) (I := fun _ => True) (F := fun _ _ _ => True)
      (fun _ _ _ _ _ _ => trivial) (fun _ _ _ _ _ _ _ => trivial) (fun _ _ _ _ _ _ => trivial)
      (fun _ _ => trivial) trivial
  exact hspec.2.perm

/-! ### Two runs in step -/

section

variable {β τ : Type} {R : α → β → Prop} {S : σ → τ → Prop}

theorem firstFit_in_step {fits : List α → σ → Bool × σ} {fits' : List β → τ → Bool × τ}
    (h : ∀ g g', List.Forall₂ R g g' → ∀ s t, S s t →
      (fits g s).1 = (fits' g' t).1 ∧ S (fits g s).2 (fits' g' t).2)
    {x : α} {y : β} (hxy : R x y) {gs : List (List α)} {gs' : List (List β)}
    (hgs : List.Forall₂ (List.Forall₂ R) gs gs') {s : σ} {t : τ} (hst : S s t) :
    List.Forall₂ (List.Forall₂ R) (firstFit fits x gs s).1 (firstFit fits' y gs' t).1 ∧
      S (firstFit fits x gs s).2 (firstFit fits' y gs' t).2 := by
  induction hgs generalizing s t with
  | nil => exact ⟨.cons (.cons hxy .nil) .nil, hst⟩
  | @cons g g' gs gs' hg hgs ih =>
      obtain ⟨htest, hst'⟩ := h g g' hg s t hst
      simp only [firstFit, htest]
      split
      · exact ⟨.cons (List.rel_append hg (.cons hxy .nil)) hgs, hst'⟩
      · obtain ⟨hrest, hend⟩ := ih hst'
        exact ⟨.cons hg hrest, hend⟩

/-- Runs over related elements, whose tests agree, make related groups. -/
theorem groupFirstFit_in_step {fits : α → List α → σ → Bool × σ} {fits' : β → List β → τ → Bool × τ}
    (h : ∀ x y, R x y → ∀ g g', List.Forall₂ R g g' → ∀ s t, S s t →
      (fits x g s).1 = (fits' y g' t).1 ∧ S (fits x g s).2 (fits' y g' t).2)
    {xs : List α} {ys : List β} (hxs : List.Forall₂ R xs ys) {s : σ} {t : τ} (hst : S s t) :
    List.Forall₂ (List.Forall₂ R) (groupFirstFit fits xs s).1 (groupFirstFit fits' ys t).1 ∧
      S (groupFirstFit fits xs s).2 (groupFirstFit fits' ys t).2 := by
  have hfold (m : List (List α) × σ) (m' : List (List β) × τ)
      (hgroups : List.Forall₂ (List.Forall₂ R) m.1 m'.1) (hstate : S m.2 m'.2) :
      List.Forall₂ (List.Forall₂ R) (xs.foldl (fun m x => firstFit (fits x) x m.1 m.2) m).1
          (ys.foldl (fun m y => firstFit (fits' y) y m.1 m.2) m').1 ∧
        S (xs.foldl (fun m x => firstFit (fits x) x m.1 m.2) m).2
          (ys.foldl (fun m y => firstFit (fits' y) y m.1 m.2) m').2 := by
    induction hxs generalizing m m' with
    | nil => exact ⟨hgroups, hstate⟩
    | @cons x y xs ys hxy _ ih =>
        obtain ⟨hgroups', hstate'⟩ := firstFit_in_step (h x y hxy) hxy hgroups hstate
        exact ih _ _ hgroups' hstate'
  exact hfold ([], s) ([], t) .nil hst

end

end HttpGarden.Lib
