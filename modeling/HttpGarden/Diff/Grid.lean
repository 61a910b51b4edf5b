import HttpGarden.Diff.Effects

/-!
# HttpGarden.Diff.Grid

From one call of `categorize_discrepancy` to the whole grid: on which servers and
streams does `generate_grid` compare without disturbing what it compares?

The grid shares each stream's objects between all the cells of its row and
column, so a header list that one cell sorts is what a later cell sees; a server
that joins duplicate headers joins them in that order.
-/

namespace HttpGarden

open Lib Heap

/-! ### Streams of objects and their values -/

/-- The objects of a stream. -/
def streamRefs (pts : List Item) : List Ref := pts.flatMap Item.refs

theorem zipLongest_map {α β α' β' : Type} (f : α → α') (g : β → β') (as : List α) (bs : List β) :
    zipLongest (as.map f) (bs.map g) =
      (zipLongest as bs).map fun p => (p.1.map f, p.2.map g) := by
  induction as generalizing bs with
  | nil => simp [zipLongest]
  | cons a as ih =>
      cases bs with
      | nil => simpa [zipLongest] using ih []
      | cons b bs => simp [zipLongest, ih]

theorem positions_view (h : Heap) (pts1 pts2 : List Item) (s1 s2 : Server) :
    (positions pts1 pts2 s1 s2).map (viewPosition h) =
      positions (pts1.map (·.view h)) (pts2.map (·.view h)) s1 s2 := by
  have hc : ∀ pts : List Item, (consideredStream s1 s2 pts).map (·.view h) =
      consideredStream s1 s2 (pts.map (·.view h)) := by
    intro pts
    unfold consideredStream
    split <;> simp
  rw [positions, positions, ← hc pts1, ← hc pts2, zipLongest_map]
  rfl

/-- The objects at the positions of a zip are those of the two streams. -/
theorem perm_zipLongest (as bs : List Item) :
    ((zipLongest as bs).flatMap positionRefs).Perm (streamRefs as ++ streamRefs bs) := by
  induction as generalizing bs with
  | nil =>
      simp only [zipLongest, List.flatMap_map, streamRefs, List.flatMap_nil, List.nil_append]
      exact List.Perm.of_eq rfl
  | cons a as ih =>
      cases bs with
      | nil =>
          have h := (ih []).append_left a.refs
          simpa [zipLongest, positionRefs, streamRefs] using h
      | cons b bs =>
          have h := (ih bs).append_left (a.refs ++ b.refs)
          refine (List.Perm.of_eq ?_).trans (h.trans ?_)
          · simp [zipLongest, positionRefs]
          · simp only [streamRefs, List.flatMap_cons, List.append_assoc]
            refine List.Perm.append_left _ ?_
            exact List.perm_append_comm_assoc _ _ _

theorem sublist_considered (pts : List Item) (s1 s2 : Server) :
    (streamRefs (consideredStream s1 s2 pts)).Sublist (streamRefs pts) := by
  unfold consideredStream streamRefs
  split
  · exact (List.take_sublist 1 pts).flatMap _
  · exact List.Sublist.refl _

theorem refs_of_positions {pts1 pts2 : List Item} {s1 s2 : Server} {p r}
    (hp : p ∈ positions pts1 pts2 s1 s2) (hr : r ∈ positionRefs p) :
    r ∈ streamRefs pts1 ++ streamRefs pts2 := by
  have hmem := (perm_zipLongest _ _).mem_iff.mp (List.mem_flatMap.mpr ⟨p, hp, hr⟩)
  exact ((sublist_considered pts1 s1 s2).append (sublist_considered pts2 s1 s2)).subset hmem

theorem nodup_positions {pts1 pts2 : List Item} {s1 s2 : Server}
    (hd : (streamRefs pts1 ++ streamRefs pts2).Nodup) :
    ((positions pts1 pts2 s1 s2).flatMap positionRefs).Nodup :=
  (perm_zipLongest _ _).nodup_iff.mpr
    (hd.sublist ((sublist_considered pts1 s1 s2).append (sublist_considered pts2 s1 s2)))

/-! ### Calls -/

/-- The call leaves the header lists of its arguments as they were. -/
def Call.KeepsHeaders (c : Call) : Prop :=
  ∀ r ∈ c.args, (c.after.load r).headers = (c.before.load r).headers

instance (c : Call) : Decidable c.KeepsHeaders :=
  inferInstanceAs (Decidable (∀ r ∈ c.args, _))

/-- Every request that comparing two streams of values gets to compare stays put. -/
def StreamsStayPut (pts1 pts2 : List Parsed) (s1 s2 : Server) : Prop :=
  AllStayPut s1 s2 (positions pts1 pts2 s1 s2)

theorem categorizeDiscrepancyIn_spec {h : Heap} {pts1 pts2 : List Item} (s1 s2 : Server)
    (hv : ∀ r ∈ streamRefs pts1 ++ streamRefs pts2, r < h.length) :
    (StreamsStayPut (pts1.map (·.view h)) (pts2.map (·.view h)) s1 s2 →
      Keeps h (categorizeDiscrepancyIn h pts1 pts2 s1 s2).2 ∧
      (categorizeDiscrepancyIn h pts1 pts2 s1 s2).1 =
        categorizeDiscrepancy (pts1.map (·.view h)) (pts2.map (·.view h)) s1 s2) ∧
    (¬ StreamsStayPut (pts1.map (·.view h)) (pts2.map (·.view h)) s1 s2 →
      ∃ r ∈ streamRefs pts1 ++ streamRefs pts2,
        ((categorizeDiscrepancyIn h pts1 pts2 s1 s2).2.load r).headers ≠ (h.load r).headers) := by
  have hv' : ∀ p ∈ positions pts1 pts2 s1 s2, ∀ r ∈ positionRefs p, r < h.length :=
    fun p hp r hr => hv r (refs_of_positions hp hr)
  obtain ⟨hgood, hbad⟩ := comparePositionsIn_spec s1 s2 (positions pts1 pts2 s1 s2) hv'
  have hs := comparePositionsIn_sorts s1 s2 (positions pts1 pts2 s1 s2) hv'
  rw [positions_view] at hgood hbad
  refine ⟨hgood, fun hn => ?_⟩
  obtain ⟨p, hp, r, hr, hne⟩ := hbad hn
  refine ⟨r, refs_of_positions hp hr, fun heq => hne ?_⟩
  rcases hs.2 r (hv' p hp r hr) with e | e
  · exact e
  · -- sorted, with the same header list: nothing was changed
    rw [show (categorizeDiscrepancyIn h pts1 pts2 s1 s2).2 =
      (comparePositionsIn s1 s2 (positions pts1 pts2 s1 s2) h).2 from rfl, e] at heq
    rw [e]
    unfold sortRequest at heq ⊢
    simp only at heq
    rw [heq]

/-! ### Fresh copies -/

/-- A position with two different objects gets the verdict of the values, and
touches no other object. -/
theorem comparePositionIn_distinct {h : Heap} {r1 r2 : Option Item} (s1 s2 : Server)
    (hv : ∀ r ∈ positionRefs (r1, r2), r < h.length) (hd : (positionRefs (r1, r2)).Nodup) :
    (comparePositionIn h r1 r2 s1 s2).1 =
        comparePosition (r1.map (·.view h)) (r2.map (·.view h)) s1 s2 ∧
      ∀ i < h.length, i ∉ positionRefs (r1, r2) →
        (comparePositionIn h r1 r2 s1 s2).2.load i = h.load i := by
  cases hc : comparedPair s1 s2 (viewPosition h (r1, r2)) with
  | none =>
      rw [comparePositionIn_of_none hc]
      exact ⟨rfl, fun _ _ _ => rfl⟩
  | some q =>
      obtain ⟨a, b, rfl, rfl, rfl, ev, e⟩ := comparePositionIn_of_some hc
      simp only [positionRefs, Option.elim, Item.refs, List.cons_append, List.nil_append,
        List.mem_cons, List.not_mem_nil, or_false, forall_eq_or_imp, forall_eq, not_or,
        List.nodup_cons, not_false_eq_true, List.nodup_nil, and_true] at hv hd ⊢
      have n1 := normalizeRequestIn_spec hv.1 s1 s2
      have hb1 := lt_of_lt_of_le hv.2 n1.length_le
      have n2 := normalizeRequestIn_spec hb1 s2 s1
      -- the first result is not the object that the second call may sort
      have hne : (normalizeRequestIn h a s1 s2).1 ≠ b := by
        rcases n1.result_new with h1 | h1
        · rw [h1]; exact hd
        · exact Nat.ne_of_gt (lt_of_lt_of_le hv.2 h1)
      have l1 := (n2.frame _ n1.result_lt hne).trans n1.result_eq
      have l2 := n2.result_eq
      rw [n1.frame b hv.2 (Ne.symm hd)] at l2
      rw [ev, e]
      refine ⟨by simp only [l1, l2], fun i hi hni => ?_⟩
      exact (n2.frame i (lt_of_lt_of_le hi n1.length_le) hni.2).trans (n1.frame i hi hni.1)

theorem comparePositionsIn_distinct (s1 s2 : Server) (ps : List (Option Item × Option Item))
    {h : Heap} (hv : ∀ p ∈ ps, ∀ r ∈ positionRefs p, r < h.length)
    (hd : (ps.flatMap positionRefs).Nodup) :
    (comparePositionsIn s1 s2 ps h).1 = comparePositions s1 s2 (ps.map (viewPosition h)) := by
  induction ps generalizing h with
  | nil => rfl
  | cons p ps ih =>
      obtain ⟨r1, r2⟩ := p
      rw [List.flatMap_cons, List.nodup_append] at hd
      obtain ⟨hd1, hd2, hdis⟩ := hd
      have hv1 := hv (r1, r2) (by simp)
      obtain ⟨hverdict, hframe⟩ := comparePositionIn_distinct s1 s2 hv1 hd1
      have hlen := (comparePositionIn_sorts s1 s2 hv1).1
      have hkeep : ∀ p ∈ ps, ∀ r ∈ positionRefs p,
          (comparePositionIn h r1 r2 s1 s2).2.load r = h.load r := by
        intro p hp r hr
        refine hframe r (hv p (by simp [hp]) r hr) fun hmem => ?_
        exact hdis r hmem r (List.mem_flatMap.mpr ⟨p, hp, hr⟩) rfl
      have hviews : ps.map (viewPosition (comparePositionIn h r1 r2 s1 s2).2) =
          ps.map (viewPosition h) :=
        List.map_congr_left fun p hp => viewPosition_congr (hkeep p hp)
      have hrest := ih (h := (comparePositionIn h r1 r2 s1 s2).2)
        (fun p hp r hr => lt_of_lt_of_le (hv p (by simp [hp]) r hr) hlen) hd2
      rw [hviews] at hrest
      rw [comparePositionsIn, List.map_cons, viewPosition, comparePositions, ← hverdict]
      generalize comparePositionIn h r1 r2 s1 s2 = m at hrest ⊢
      obtain ⟨v, h'⟩ := m
      cases v with
      | «continue» => exact hrest
      | «break» => rfl
      | «return» e => rfl

/-- The objects allocated for a stream are new, distinct and hold its values. -/
theorem allocStream_spec (pts : List Parsed) (h : Heap) :
    Keeps h (allocStream pts h).2 ∧
      (∀ h', Keeps (allocStream pts h).2 h' → (allocStream pts h).1.map (·.view h') = pts) ∧
      (streamRefs (allocStream pts h).1).Nodup ∧
      ∀ r ∈ streamRefs (allocStream pts h).1, h.length ≤ r ∧ r < (allocStream pts h).2.length := by
  induction pts generalizing h with
  | nil => exact ⟨Keeps.refl h, fun _ _ => rfl, List.nodup_nil, fun r hr => by cases hr⟩
  | cons x pts ih =>
      cases x with
      | response x =>
          obtain ⟨hk, hview, hnd, hr⟩ := ih h
          refine ⟨hk, fun h' hk' => ?_, hnd, hr⟩
          show Parsed.response x :: (allocStream pts h).1.map (·.view h') = _
          rw [hview h' hk']
      | request x =>
          obtain ⟨hk, hview, hnd, hr⟩ := ih (h ++ [x])
          have hnew : h.length < (h ++ [x]).length := by simp
          refine ⟨⟨?_, ?_⟩, ?_, ?_, ?_⟩
          · exact hnew.le.trans hk.1
          · intro i hi
            exact (hk.2 i (hi.trans hnew)).trans (load_append_left [x] hi)
          · intro h' (hk' : Keeps (allocStream pts (h ++ [x])).2 h')
            show Parsed.request (h'.load h.length) :: (allocStream pts (h ++ [x])).1.map _ = _
            have hx : (h ++ [x]).load h.length = x := by simp [load, List.getD_eq_getElem?_getD]
            rw [hview h' hk', hk'.2 _ (lt_of_lt_of_le hnew hk.1), hk.2 _ hnew, hx]
          · show (h.length :: streamRefs (allocStream pts (h ++ [x])).1).Nodup
            refine List.nodup_cons.mpr ⟨fun hm => ?_, hnd⟩
            have := (hr _ hm).1
            omega
          · intro r hm
            rcases List.mem_cons.mp hm with rfl | hm
            · exact ⟨le_rfl, lt_of_lt_of_le hnew hk.1⟩
            · exact ⟨hnew.le.trans (hr r hm).1, (hr r hm).2⟩

/-- **Refinement**: on fresh copies, the comparison of objects computes the
comparison of values. -/
theorem categorizeFresh_eq (pts1 pts2 : List Parsed) (s1 s2 : Server) :
    categorizeFresh pts1 pts2 s1 s2 = categorizeDiscrepancy pts1 pts2 s1 s2 := by
  obtain ⟨-, hview1, hnd1, hr1⟩ := allocStream_spec pts1 []
  obtain ⟨hk2, hview2, hnd2, hr2⟩ := allocStream_spec pts2 (allocStream pts1 []).2
  have hv : ∀ r ∈ streamRefs (allocStream pts1 []).1 ++
      streamRefs (allocStream pts2 (allocStream pts1 []).2).1,
      r < (allocStream pts2 (allocStream pts1 []).2).2.length := by
    intro r hr
    rcases List.mem_append.mp hr with hr | hr
    · exact lt_of_lt_of_le (hr1 r hr).2 hk2.1
    · exact (hr2 r hr).2
  have hd : (streamRefs (allocStream pts1 []).1 ++
      streamRefs (allocStream pts2 (allocStream pts1 []).2).1).Nodup := by
    refine List.nodup_append.mpr ⟨hnd1, hnd2, fun a ha b hb hab => ?_⟩
    subst hab
    exact absurd (hr1 a ha).2 (Nat.not_lt.mpr (hr2 a hb).1)
  have hrun := comparePositionsIn_distinct s1 s2
    (positions (allocStream pts1 []).1 (allocStream pts2 (allocStream pts1 []).2).1 s1 s2)
    (fun p hp r hr => hv r (refs_of_positions hp hr)) (nodup_positions hd)
  rw [positions_view, hview1 _ hk2, hview2 _ (Keeps.refl _)] at hrun
  exact hrun

theorem allocStreams_spec (pts : List (List Parsed)) (h : Heap) :
    Keeps h (allocStreams pts h).2 ∧
      (∀ h', Keeps (allocStreams pts h).2 h' →
        (allocStreams pts h).1.map (fun items => items.map (·.view h')) = pts) ∧
      ∀ items ∈ (allocStreams pts h).1, ∀ r ∈ streamRefs items,
        r < (allocStreams pts h).2.length := by
  induction pts generalizing h with
  | nil => exact ⟨Keeps.refl h, fun _ _ => rfl, fun _ hi => by cases hi⟩
  | cons x pts ih =>
      obtain ⟨hk1, hview1, -, hr1⟩ := allocStream_spec x h
      obtain ⟨hk2, hview2, hr2⟩ := ih (allocStream x h).2
      refine ⟨hk1.trans hk2, fun h' hk' => ?_, ?_⟩
      · show (allocStream x h).1.map _ :: (allocStreams pts (allocStream x h).2).1.map _ = _
        rw [hview1 h' (hk2.trans hk'), hview2 h' hk']
      · intro items hi r hr
        rcases List.mem_cons.mp hi with rfl | hi
        · exact lt_of_lt_of_le (hr1 r hr).2 hk2.1
        · exact hr2 items hi r hr

/-! ### The grid -/

/-- `generate_grid` on new objects for the given streams. -/
def runGrid (pts : List (List Parsed)) (servers : List Server) : Grid × World :=
  let (items, h) := allocStreams pts []
  generateGridIn items servers ⟨h, []⟩

/-- Every call that `generate_grid` makes leaves the header lists of its arguments
as they were, and every cell is what the comparison gives on fresh copies. -/
def GridUndisturbed (pts : List (List Parsed)) (servers : List Server) : Prop :=
  (∀ c ∈ (runGrid pts servers).2.calls, c.KeepsHeaders) ∧
    (runGrid pts servers).1 = freshGrid pts servers

/-- In every cell that is filled in, every request that gets compared stays put. -/
def GridStaysPut (pts : List (List Parsed)) (servers : List Server) : Prop :=
  ∀ row ∈ gridRows pts servers, ∀ col ∈ gridRows pts servers, row.2 ≤ col.2 →
    StreamsStayPut row.1.2 col.1.2 row.1.1 col.1.1

/-- A row of objects as a row of values. -/
def viewRow (h : Heap) (row : GridRow Item) : GridRow Parsed :=
  ((row.1.1, row.1.2.map (·.view h)), row.2)

theorem gridRows_view (h : Heap) (items : List (List Item)) (servers : List Server) :
    gridRows (items.map fun pts => pts.map (·.view h)) servers =
      (gridRows items servers).map (viewRow h) := by
  rw [gridRows, gridRows, List.zip_map_right, List.zipIdx_map]
  rfl

/-- The cell of two rows of values, on fresh copies. -/
def freshCell (row col : GridRow Parsed) : Option ErrorType :=
  if col.2 < row.2 then none else some (categorizeFresh row.1.2 col.1.2 row.1.1 col.1.1)

/-- Nothing is disturbed so far. -/
def World.Intact (h : Heap) (w : World) : Prop :=
  Keeps h w.heap ∧ ∀ c ∈ w.calls, c.KeepsHeaders

/-- Some call has changed a header list. -/
def World.Spoiled (w : World) : Prop := ∃ c ∈ w.calls, ¬ c.KeepsHeaders

section

variable {h : Heap} {row col : GridRow Item} {w : World}

theorem view_of_keeps {h' : Heap} (hk : Keeps h h') {pts : List Item}
    (hv : ∀ r ∈ streamRefs pts, r < h.length) : pts.map (·.view h') = pts.map (·.view h) := by
  refine List.map_congr_left fun x hx => ?_
  cases x with
  | response x => rfl
  | request r =>
      have hr := hv r (List.mem_flatMap.mpr ⟨_, hx, by simp [Item.refs]⟩)
      simp only [Item.view, hk.2 r hr]

theorem gridCell_good (hi : w.Intact h) (hrow : ∀ r ∈ streamRefs row.1.2, r < h.length)
    (hcol : ∀ r ∈ streamRefs col.1.2, r < h.length)
    (hp : row.2 ≤ col.2 → StreamsStayPut (viewRow h row).1.2 (viewRow h col).1.2 row.1.1 col.1.1) :
    (gridCell World.compare row col w).1 = freshCell (viewRow h row) (viewRow h col) ∧
      (gridCell World.compare row col w).2.Intact h := by
  unfold gridCell World.compare freshCell viewRow
  by_cases hlt : col.2 < row.2
  · rw [if_pos hlt, if_pos hlt]
    exact ⟨rfl, hi⟩
  rw [if_neg hlt, if_neg hlt]
  have hv : ∀ r ∈ streamRefs row.1.2 ++ streamRefs col.1.2, r < w.heap.length := by
    intro r hr
    rcases List.mem_append.mp hr with hr | hr
    · exact lt_of_lt_of_le (hrow r hr) hi.1.1
    · exact lt_of_lt_of_le (hcol r hr) hi.1.1
  obtain ⟨hspec, -⟩ := categorizeDiscrepancyIn_spec row.1.1 col.1.1 hv
  rw [view_of_keeps hi.1 hrow, view_of_keeps hi.1 hcol] at hspec
  obtain ⟨hk, he⟩ := hspec (hp (Nat.le_of_not_lt hlt))
  refine ⟨?_, hi.1.trans hk, fun c hc => ?_⟩
  · rw [categorizeFresh_eq]
    exact congrArg some he
  · rcases List.mem_append.mp hc with hc | hc
    · exact hi.2 c hc
    · rw [List.mem_singleton.mp hc]
      intro r hr
      exact congrArg HTTPRequest.headers (hk.2 r (hv r hr))

theorem gridCell_bad (hi : w.Intact h) (hrow : ∀ r ∈ streamRefs row.1.2, r < h.length)
    (hcol : ∀ r ∈ streamRefs col.1.2, r < h.length)
    (hp : ¬ (row.2 ≤ col.2 →
      StreamsStayPut (viewRow h row).1.2 (viewRow h col).1.2 row.1.1 col.1.1)) :
    (gridCell World.compare row col w).2.Spoiled := by
  rw [Classical.not_imp] at hp
  obtain ⟨hle, hp⟩ := hp
  unfold gridCell World.compare
  rw [if_neg (Nat.not_lt.mpr hle)]
  have hv : ∀ r ∈ streamRefs row.1.2 ++ streamRefs col.1.2, r < w.heap.length := by
    intro r hr
    rcases List.mem_append.mp hr with hr | hr
    · exact lt_of_lt_of_le (hrow r hr) hi.1.1
    · exact lt_of_lt_of_le (hcol r hr) hi.1.1
  obtain ⟨-, hspec⟩ := categorizeDiscrepancyIn_spec row.1.1 col.1.1 hv
  rw [view_of_keeps hi.1 hrow, view_of_keeps hi.1 hcol] at hspec
  obtain ⟨r, hr, hne⟩ := hspec hp
  exact ⟨_, List.mem_append_right _ (List.mem_singleton.mpr rfl), fun hkeep => hne (hkeep r hr)⟩

theorem gridCell_stable (hs : w.Spoiled) : (gridCell World.compare row col w).2.Spoiled := by
  unfold gridCell World.compare
  split
  · exact hs
  · obtain ⟨c, hc, hne⟩ := hs
    exact ⟨c, List.mem_append_left _ hc, hne⟩

end

/-- **When the grid is undisturbed**: exactly when every request that gets compared
in a cell is copied before it is sorted, for that pair of servers, or has its
headers in order already. -/
theorem gridUndisturbed_iff (pts : List (List Parsed)) (servers : List Server) :
    GridUndisturbed pts servers ↔ GridStaysPut pts servers := by
  obtain ⟨-, hview, hrefs⟩ := allocStreams_spec pts []
  obtain ⟨items, h, halloc⟩ : ∃ items h, allocStreams pts [] = (items, h) := ⟨_, _, rfl⟩
  rw [halloc] at hview hrefs
  have hpts := hview h (Keeps.refl h)
  have hrow : ∀ row ∈ gridRows items servers, ∀ r ∈ streamRefs row.1.2, r < h.length := by
    intro row hr
    have hz : row.1 ∈ servers.zip items := by
      obtain ⟨-, hlt, heq⟩ := List.mem_zipIdx hr
      rw [heq]
      exact List.getElem_mem _
    exact hrefs row.1.2 (List.of_mem_zip hz).2
  have hstart : World.Intact h ⟨h, []⟩ := ⟨Keeps.refl h, fun _ hc => by cases hc⟩
  -- one row, then all rows
  have hcells := fun row (hr : row ∈ gridRows items servers) w (hw : World.Intact h w) =>
    collect_spec (f := gridCell World.compare row) (S := World.Spoiled)
      (g := fun col => freshCell (viewRow h row) (viewRow h col))
      (P := fun col => row.2 ≤ col.2 →
        StreamsStayPut (viewRow h row).1.2 (viewRow h col).1.2 row.1.1 col.1.1)
      (fun col hc w hw => gridCell_good hw (hrow row hr) (hrow col hc))
      (fun col hc w hw => gridCell_bad hw (hrow row hr) (hrow col hc))
      (fun _ _ => gridCell_stable) hw
  have hrows := collect_spec (f := fun row => collect (gridCell World.compare row) (gridRows items servers))
    (g := fun row => (gridRows items servers).map fun col =>
      freshCell (viewRow h row) (viewRow h col))
    (I := World.Intact h) (S := World.Spoiled)
    (P := fun row => ∀ col ∈ gridRows items servers, row.2 ≤ col.2 →
      StreamsStayPut (viewRow h row).1.2 (viewRow h col).1.2 row.1.1 col.1.1)
    (fun row hr w hw => (hcells row hr w hw).1) (fun row hr w hw => (hcells row hr w hw).2)
    (fun row w hs => collect_stable (fun _ _ => gridCell_stable) _ hs) hstart
  have hput : GridStaysPut pts servers ↔ ∀ row ∈ gridRows items servers,
      ∀ col ∈ gridRows items servers, row.2 ≤ col.2 →
        StreamsStayPut (viewRow h row).1.2 (viewRow h col).1.2 row.1.1 col.1.1 := by
    rw [GridStaysPut, ← hpts, gridRows_view]
    simp only [List.mem_map, forall_exists_index, and_imp, forall_apply_eq_imp_iff₂]
    rfl
  have hfresh : freshGrid pts servers = (gridRows items servers).map fun row =>
      (gridRows items servers).map fun col => freshCell (viewRow h row) (viewRow h col) := by
    rw [freshGrid, ← hpts, gridRows_view]
    simp only [List.map_map]
    rfl
  rw [GridUndisturbed, hput, hfresh, runGrid, halloc]
  constructor
  · intro ⟨hcalls, _⟩
    by_contra hnot
    obtain ⟨c, hc, hne⟩ := hrows.2 hnot
    exact hne (hcalls c hc)
  · intro hall
    obtain ⟨hgrid, hintact⟩ := hrows.1 hall
    exact ⟨hintact.2, hgrid⟩

/-- A request with two values of one header, in an order that sorting reverses,
and what a server that joins duplicate headers makes of it. -/
def repeatedHeader : List (List Parsed) :=
  [[.request ⟨bytes "GET", bytes "/", [(bytes "x", bytes "2"), (bytes "x", bytes "1")], [],
      bytes "1.1"⟩],
    [.request ⟨bytes "GET", bytes "/", [(bytes "x", bytes "2, 1")], [], bytes "1.1"⟩]]

/-- Comparing the plain server with itself sorts its request; the comparison with
the joining server then joins the values the other way round. -/
theorem not_gridUndisturbed : ¬ ∀ pts servers, GridUndisturbed pts servers := by
  intro h
  have hgrid := (h repeatedHeader [plainServer,
    { plainServer with joinsDuplicateHeaders := true, duplicateHeaderJoiner := bytes ", " }]).2
  revert hgrid
  decide

end HttpGarden
