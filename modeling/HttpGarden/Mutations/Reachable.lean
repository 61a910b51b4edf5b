import HttpGarden.Mutations.Mutate

/-!
# HttpGarden.Mutations.Reachable

**Which streams come from which**, by any number of calls of `mutate`.

No mutation puts a byte into a stream that has none: a byte is inserted in front of another one, and
nothing is parsed from an empty element. That is the only limit, together with the elements that
there always are: `mutatesInto_iff`. Elements are thrown away down to one byte, that byte is duplicated,
and each of the copies becomes an element of the new stream, from its last byte to its first.
-/

namespace HttpGarden

open Lib

variable (gunzip : Bytes → Except GzipError Bytes)

/-- Some call of `mutate` returns `t`. -/
def Mutates (s t : List Bytes) : Prop :=
  ∃ random : Random, random.ValidFor gunzip s ∧ mutate gunzip random s = .ok t

/-- Some number of calls. -/
def MutatesInto : List Bytes → List Bytes → Prop := Relation.ReflTransGen (Mutates gunzip)

variable {gunzip} {s t : List Bytes}

/-- **The order does not matter**: `mutate` returns what one of the mutations does. -/
theorem mutates_iff : Mutates gunzip s t ↔ ∃ (m : Mutation) (draws : Draws),
    m.CanBeDrawn gunzip draws s ∧ m.apply gunzip draws s = .ok t := by
  constructor
  · intro h
    obtain ⟨random, hrandom, hrun⟩ := h
    rcases mutateFrom_spec hrandom.choice s mutations with ⟨herror, -⟩ | ⟨failed, m, n, -, hm, -⟩
    · cases herror.symm.trans hrun
    · exact ⟨m, _, hrandom.draws n m, hm.symm.trans hrun⟩
  · intro h
    obtain ⟨m, draws, hdraws, hrun⟩ := h
    obtain ⟨i, hi, hm⟩ := List.getElem_of_mem m.mem_mutations
    -- the mutation is the choice of the first round, and the loop goes no further
    let random : Random := ⟨fun n => if n = mutations.length then i else 0,
      fun _ m' => if m' = m then draws else m'.firstDraws⟩
    have hfirst : random.choice mutations.length = i := by simp only [random, if_true]
    have hdraw : random.draws mutations.length m = draws := by simp only [random, if_true]
    refine ⟨random, ⟨fun n hn => ?_, fun _ m' => ?_⟩, ?_⟩
    · show (if n = mutations.length then i else 0) < n
      split
      · omega
      · exact hn
    · show m'.CanBeDrawn gunzip (if m' = m then draws else m'.firstDraws) s
      split
      · rename_i hm'
        rwa [hm']
      · exact m'.canBeDrawn_firstDraws s
    · have hchosen : mutations[random.choice mutations.length]? = some m := by
        rw [hfirst, List.getElem?_eq_getElem hi, hm]
      rw [mutate, (round_of_settled hchosen (by rw [hdraw, hrun]; intro h; cases h)).1, hdraw, hrun]

/-! ### Steps of a byte or of an element -/

/-- The scan finds the element that a position is drawn in. -/
theorem editFrom_append (edit : Bytes → Nat → Bytes) (result pre : List Bytes) {req : Bytes}
    {i : Nat} (hi : i < req.length) (post : List Bytes) (reqIdx : Nat) :
    editFrom edit result reqIdx (pre.flatten.length + i) (pre ++ req :: post) =
      .ok (result.set (reqIdx + pre.length) (edit req i)) := by
  induction pre generalizing reqIdx with
  | nil => rw [List.flatten_nil, List.length_nil, Nat.zero_add, List.nil_append, editFrom, if_pos hi]; rfl
  | cons r pre ih =>
      have hnot : ¬ r.length > (r :: pre).flatten.length + i := by
        rw [List.flatten_cons, List.length_append]
        omega
      have hidx : (r :: pre).flatten.length + i - r.length = pre.flatten.length + i := by
        rw [List.flatten_cons, List.length_append]
        omega
      rw [List.cons_append, editFrom, if_neg hnot, hidx, ih, List.length_cons, Nat.add_assoc,
        Nat.add_comm 1]

theorem editFrom_element (edit : Bytes → Nat → Bytes) (pre : List Bytes) {req : Bytes} {i : Nat}
    (hi : i < req.length) (post : List Bytes) :
    editFrom edit (pre ++ req :: post) 0 (pre.flatten.length + i) (pre ++ req :: post) =
      .ok (pre ++ edit req i :: post) := by
  rw [editFrom_append edit _ pre hi, Nat.zero_add, List.set_append_right _ _ le_rfl, Nat.sub_self,
    List.set_cons_zero]

theorem totalLen_element (pre : List Bytes) (req : Bytes) (post : List Bytes) :
    totalLen (pre ++ req :: post) = pre.flatten.length + (req.length + post.flatten.length) := by
  rw [totalLen_eq, List.flatten_append, List.flatten_cons, List.length_append, List.length_append]

theorem mutates_of_apply (m : Mutation) (draws : Draws) (h : m.CanBeDrawn gunzip draws s)
    (hrun : m.apply gunzip draws s = .ok t) : Mutates gunzip s t :=
  mutates_iff.mpr ⟨m, draws, h, hrun⟩

/-- The draws of a byte mutation, of which the others do not matter. -/
def byteDraws (idx : Nat) (byte : UInt8) : Draws :=
  { Mutation.deleteRandomByte.firstDraws with idx, byte }

variable (pre post : List Bytes)

theorem mutates_insert (c d : UInt8) (a : Bytes) :
    Mutates gunzip (pre ++ (d :: a) :: post) (pre ++ (c :: d :: a) :: post) := by
  refine mutates_of_apply .insertRandomByte (byteDraws (pre.flatten.length + 0) c)
    (fun _ => ?_) ?_
  · show pre.flatten.length + 0 ≤ totalLen _
    rw [totalLen_element]
    omega
  · rw [Mutation.apply, HttpGarden.insertRandomByte, if_neg (by simp)]
    exact editFrom_element _ pre (Nat.zero_lt_succ _) post

theorem mutates_replace (c d : UInt8) (a : Bytes) :
    Mutates gunzip (pre ++ (d :: a) :: post) (pre ++ (c :: a) :: post) := by
  have hlen := totalLen_element pre (d :: a) post
  rw [List.length_cons] at hlen
  refine mutates_of_apply .replaceRandomByte (byteDraws (pre.flatten.length + 0) c)
    (fun _ _ => ?_) ?_
  · show pre.flatten.length + 0 ≤ totalLen _ - 1
    omega
  · rw [Mutation.apply, HttpGarden.replaceRandomByte, if_neg (by simp), if_neg (by omega)]
    exact editFrom_element _ pre (Nat.zero_lt_succ _) post

theorem mutates_delete (d : UInt8) (a : Bytes) :
    Mutates gunzip (pre ++ (d :: a) :: post) (pre ++ a :: post) := by
  have hlen := totalLen_element pre (d :: a) post
  rw [List.length_cons] at hlen
  refine mutates_of_apply .deleteRandomByte (byteDraws (pre.flatten.length + 0) 0)
    (fun _ _ => ?_) ?_
  · show pre.flatten.length + 0 ≤ totalLen _ - 1
    omega
  · rw [Mutation.apply, HttpGarden.deleteRandomByte, if_neg (by simp), if_neg (by omega)]
    exact editFrom_element _ pre (Nat.zero_lt_succ _) post

theorem mutates_duplicate (a : Bytes) :
    Mutates gunzip (pre ++ a :: post) (pre ++ a :: a :: post) := by
  refine mutates_of_apply .duplicateRandomRequest (byteDraws pre.length 0)
    (fun _ => ?_) (duplicateRandomRequest_append pre a post)
  show pre.length ≤ (pre ++ a :: post).length - 1
  rw [List.length_append, List.length_cons]
  omega

theorem mutates_deleteRequest (pre : List Bytes) (a : Bytes) {post : List Bytes} (h : pre ++ post ≠ []) :
    Mutates gunzip (pre ++ a :: post) (pre ++ post) := by
  refine mutates_of_apply .deleteRandomRequest (byteDraws pre.length 0)
    (fun _ _ => ?_) (deleteRandomRequest_append h)
  show pre.length ≤ (pre ++ a :: post).length - 1
  rw [List.length_append, List.length_cons]
  omega

/-! ### Taking a stream apart -/

/-- All elements but one are thrown away. -/
theorem mutatesInto_singleton (pre : List Bytes) (a : Bytes) (post : List Bytes) :
    MutatesInto gunzip (pre ++ a :: post) [a] := by
  induction pre with
  | nil =>
      induction post with
      | nil => exact .refl
      | cons b post ih =>
          exact ih.head (mutates_deleteRequest [a] b (List.cons_ne_nil _ _))
  | cons b pre ih =>
      exact ih.head (mutates_deleteRequest [] b
        (List.append_ne_nil_of_right_ne_nil pre (List.cons_ne_nil a post)))

/-- All bytes but the last. -/
theorem mutatesInto_byte (a : Bytes) (c : UInt8) : MutatesInto gunzip [a.concat c] [[c]] := by
  induction a with
  | nil => exact .refl
  | cons d a ih => exact ih.head (mutates_delete [] [] d (a.concat c))

/-! ### Building a stream -/

theorem mutatesInto_replicate (a : Bytes) (n : Nat) :
    MutatesInto gunzip [a] (List.replicate (n + 1) a) := by
  induction n with
  | zero => exact .refl
  | succ n ih => exact ih.tail (mutates_duplicate [] (List.replicate n a) a)

/-- A byte becomes an element, from the last byte of that on. -/
theorem mutatesInto_element (c : UInt8) (a : Bytes) :
    MutatesInto gunzip (pre ++ [c] :: post) (pre ++ a :: post) := by
  rcases List.eq_nil_or_concat a with rfl | ⟨a, d, rfl⟩
  · exact .single (mutates_delete pre post c [])
  · induction a with
    | nil => exact .single (mutates_replace pre post d c [])
    | cons b a ih =>
        cases a with
        | nil => exact ih.tail (mutates_insert pre post b d [])
        | cons b' a => exact ih.tail (mutates_insert pre post b b' (a.concat d))

/-- Copies of a byte become any elements, one after the other. -/
theorem mutatesInto_elements (c : UInt8) (t : List Bytes) :
    MutatesInto gunzip (pre ++ List.replicate t.length [c]) (pre ++ t) := by
  induction t generalizing pre with
  | nil => exact .refl
  | cons a t ih =>
      have hrest := ih (pre ++ [a])
      rw [List.append_assoc, List.append_assoc] at hrest
      exact (mutatesInto_element pre (List.replicate t.length [c]) c a).trans hrest

/-! ### What is never reached -/

/-- Nothing is parsed from an empty element. -/
theorem rewriteRequest_of_empty {edit : HTTPRequest → Except PyError HTTPRequest}
    {draws : HeaderDraws} (h : ∀ a ∈ s, a = []) : rewriteRequest gunzip edit draws s ≠ .ok t := by
  intro hrun
  obtain ⟨edited, hedited, -⟩ := bind_eq_ok.mp hrun
  simp only [editedRequests, throw_eq_error, error_bind, ite_error_eq_ok, bind_eq_ok,
    listGet_eq_ok] at hedited
  obtain ⟨-, substream, hsubstream, ⟨requests, rest⟩, hparse, hpos, -⟩ := hedited
  rw [h substream (List.mem_of_getElem? hsubstream), parseRequestStream_nil] at hparse
  cases hparse
  exact absurd hpos (by simp)

theorem mutateHeaders_of_empty {minHeaders : Nat} {edit : Nat → List Header → List Header}
    {draws : HeaderDraws} (h : ∀ a ∈ s, a = []) :
    mutateHeaders gunzip minHeaders edit draws s ≠ .ok t :=
  rewriteRequest_of_empty h

theorem editFrom_of_empty {edit : Bytes → Nat → Bytes} {result : List Bytes} {reqIdx idx : Nat}
    (h : ∀ a ∈ s, a = []) : editFrom edit result reqIdx idx s ≠ .ok t := by
  rw [editFrom_of_ge (by rw [List.flatten_eq_nil_iff.mpr h]; exact Nat.zero_le _)]
  intro h
  cases h

/-- **No mutation makes a byte** where there is none. -/
theorem Mutation.apply_of_empty {m : Mutation} {draws : Draws} (h : ∀ a ∈ s, a = [])
    (hrun : m.apply gunzip draws s = .ok t) : ∀ a ∈ t, a = [] := by
  have hbyte {edit : Bytes → Nat → Bytes} (hedit : editFrom edit s 0 draws.idx s = .ok t) :
      ∀ a ∈ t, a = [] := absurd hedit (editFrom_of_empty h)
  cases m with
  | deleteRandomByte =>
      simp only [apply, HttpGarden.deleteRandomByte, throw_eq_error, error_bind,
        ite_error_eq_ok] at hrun
      exact hbyte hrun.2.2
  | replaceRandomByte =>
      simp only [apply, HttpGarden.replaceRandomByte, throw_eq_error, error_bind,
        ite_error_eq_ok] at hrun
      exact hbyte hrun.2.2
  | insertRandomByte =>
      simp only [apply, HttpGarden.insertRandomByte, throw_eq_error, error_bind,
        ite_error_eq_ok] at hrun
      exact hbyte hrun.2
  | insertRandomMeaningfulByte =>
      simp only [apply, HttpGarden.insertRandomMeaningfulByte, throw_eq_error, error_bind,
        ite_error_eq_ok] at hrun
      exact hbyte hrun.2
  | concatRandomRequests =>
      obtain ⟨pre, a, b, post, ⟨rfl, -⟩, rfl⟩ := concatRandomRequests_eq_ok hrun
      simp only [List.mem_append, List.mem_cons] at h ⊢
      intro x hx
      rcases hx with hx | rfl | hx
      · exact h x (.inl hx)
      · rw [h a (.inr (.inl rfl)), h b (.inr (.inr (.inl rfl))), List.append_nil]
      · exact h x (.inr (.inr (.inr hx)))
  | shiftRandomRequestBoundaries =>
      obtain ⟨pre, a, b, post, ⟨rfl, -⟩, rfl⟩ := shiftRandomRequestBoundaries_eq_ok hrun
      simp only [List.mem_append, List.mem_cons] at h ⊢
      have hab : a ++ b = [] := by
        rw [h a (.inr (.inl rfl)), h b (.inr (.inr (.inl rfl))), List.append_nil]
      intro x hx
      rcases hx with hx | rfl | rfl | hx
      · exact h x (.inl hx)
      · rw [hab, List.drop_nil]
      · rw [hab, List.take_nil]
      · exact h x (.inr (.inr (.inr hx)))
  | splitRandomRequest =>
      obtain ⟨pre, a, post, rfl, -, rfl⟩ := splitRandomRequest_eq_ok hrun
      simp only [List.mem_append, List.mem_cons] at h ⊢
      have ha : a = [] := h a (.inr (.inl rfl))
      intro x hx
      rcases hx with hx | rfl | rfl | hx
      · exact h x (.inl hx)
      · rw [ha, List.take_nil]
      · rw [ha, List.drop_nil]
      · exact h x (.inr (.inr hx))
  | deleteRandomHeader | insertRandomHeader | replaceRandomHeader =>
      exact absurd hrun (mutateHeaders_of_empty h)
  | replaceMethod => exact absurd hrun (rewriteRequest_of_empty h)
  | deleteRandomRequest =>
      simp only [apply, HttpGarden.deleteRandomRequest, throw_eq_error, error_bind, ite_error_eq_ok,
        bind_eq_ok, pure_eq_ok, Except.ok.injEq] at hrun
      obtain ⟨-, m, hpop, rfl⟩ := hrun
      obtain ⟨pre, post, rfl, -, hleft⟩ := exists_of_listPop hpop
      rw [hleft]
      simp only [List.mem_append, List.mem_cons] at h ⊢
      exact fun x hx => h x (hx.imp id .inr)
  | duplicateRandomRequest =>
      simp only [apply, HttpGarden.duplicateRandomRequest, throw_eq_error, error_bind,
        ite_error_eq_ok, bind_eq_ok, pure_eq_ok, Except.ok.injEq, listGet_eq_ok] at hrun
      obtain ⟨-, a, ha, rfl⟩ := hrun
      intro x hx
      rw [listInsert, List.mem_append, List.mem_cons] at hx
      rcases hx with hx | rfl | hx
      · exact h x (List.mem_of_mem_take hx)
      · exact h x (List.mem_of_getElem? ha)
      · exact h x (List.mem_of_mem_drop hx)

/-- What every call keeps. -/
theorem mutates_invariant (h : Mutates gunzip s t) :
    t ≠ [] ∧ ((∀ a ∈ s, a = []) → ∀ a ∈ t, a = []) := by
  obtain ⟨m, draws, hdraws, hrun⟩ := mutates_iff.mp h
  refine ⟨?_, fun hempty => m.apply_of_empty hempty hrun⟩
  have hs : s ≠ [] := by
    rintro rfl
    rw [m.apply_nil] at hrun
    cases hrun
  rcases m.apply_settles hs hdraws with hassert | ⟨t', ht', hedits⟩ | ⟨e, he, -⟩
  · cases hassert.symm.trans hrun
  · cases ht'.symm.trans hrun
    exact hedits.ne_nil
  · cases he.symm.trans hrun

theorem mutatesInto_invariant (hs : s ≠ []) (h : MutatesInto gunzip s t) :
    t ≠ [] ∧ ((∀ a ∈ s, a = []) → ∀ a ∈ t, a = []) := by
  induction h with
  | refl => exact ⟨hs, id⟩
  | tail _ hstep ih =>
      have hinv := mutates_invariant hstep
      exact ⟨hinv.1, fun hempty => hinv.2 (ih.2 hempty)⟩

/-- **Any stream is reached** from one that has a byte in it, and from one that has none all those
that have none either. -/
theorem mutatesInto_iff (hs : s ≠ []) :
    MutatesInto gunzip s t ↔ t ≠ [] ∧ (s.flatten = [] → t.flatten = []) := by
  rw [List.flatten_eq_nil_iff, List.flatten_eq_nil_iff]
  refine ⟨mutatesInto_invariant hs, fun h => ?_⟩
  obtain ⟨ht, hempty⟩ := h
  have hlen : t.length - 1 + 1 = t.length := Nat.sub_add_cancel (List.length_pos_iff.mpr ht)
  by_cases hall : ∀ a ∈ s, a = []
  · obtain ⟨a, ha⟩ := List.exists_mem_of_ne_nil s hs
    obtain ⟨pre, post, rfl⟩ := List.append_of_mem ha
    rw [hall a ha]
    have hcopies : MutatesInto gunzip (pre ++ [] :: post) (List.replicate (t.length - 1 + 1) []) :=
      (mutatesInto_singleton pre [] post).trans (mutatesInto_replicate [] (t.length - 1))
    rwa [hlen, ← List.eq_replicate_of_mem (hempty hall)] at hcopies
  · push Not at hall
    obtain ⟨a, ha, hne⟩ := hall
    obtain ⟨pre, post, rfl⟩ := List.append_of_mem ha
    rcases List.eq_nil_or_concat a with rfl | ⟨a, c, rfl⟩
    · exact absurd rfl hne
    · have hcopies : MutatesInto gunzip (pre ++ a.concat c :: post)
          (List.replicate (t.length - 1 + 1) [c]) :=
        ((mutatesInto_singleton pre (a.concat c) post).trans (mutatesInto_byte a c)).trans
          (mutatesInto_replicate [c] (t.length - 1))
      rw [hlen] at hcopies
      exact hcopies.trans (mutatesInto_elements [] c t)

/-- A request is reached from one byte, and nothing but elements without bytes from one of these. -/
theorem mutatesInto_iff_byte :
    MutatesInto (fun _ => .error .badGzipFile) [[0]] [bytes "GET / HTTP/1.1\r\n\r\n"] ↔
      [bytes "GET / HTTP/1.1\r\n\r\n"] ≠ [] ∧
        ([[0]].flatten = ([] : Bytes) → [bytes "GET / HTTP/1.1\r\n\r\n"].flatten = []) :=
  mutatesInto_iff (List.cons_ne_nil _ _)

end HttpGarden
