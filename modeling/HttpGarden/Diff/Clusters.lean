import HttpGarden.Diff.Grid

/-!
# HttpGarden.Diff.Clusters

**What the clusters mean.** `generate_clusters` puts every server into the first cluster to all of
whose members it compares as OK, or to all of whose members it compares as INVALID.

A comparison is INVALID as soon as it reaches an invalid request on *either* side, and it reaches
only what the quirks of the two servers leave to compare. So a cluster is not all valid or all
invalid (`not_unmixed`); `generateClustersIn_wellClustered` is what does hold of the clusters of
every run.
-/

namespace HttpGarden

open Lib Heap

/-! ### The clusters -/

/-- A call of `categorize_discrepancy`: the servers with their streams, and the objects before. -/
structure Comparison where
  row : GridRow Item
  col : GridRow Item
  before : Heap
  deriving DecidableEq

/-- What the call returned. -/
def Comparison.category (c : Comparison) : ErrorType :=
  (categorizeDiscrepancyIn c.before c.row.1.2 c.col.1.2 c.row.1.1 c.col.1.1).1

/-- The heap, and a record of the calls made so far, which only the model keeps. -/
structure ClusterWorld where
  heap : Heap
  calls : List Comparison
  deriving DecidableEq

/-- `categorize_discrepancy(pt, pt2, s, s2)`. -/
def compareRows (row row2 : GridRow Item) (w : ClusterWorld) : ErrorType × ClusterWorld :=
  let m := categorizeDiscrepancyIn w.heap row.1.2 row2.1.2 row.1.1 row2.1.1
  (m.1, ⟨m.2, w.calls ++ [⟨row, row2, w.heap⟩]⟩)

/-- `generate_clusters`, with the position of every server in the lists. -/
def generateClustersIn (pts : List (List Item)) (servers : List Server) (w : ClusterWorld) :
    List (List (GridRow Item)) × ClusterWorld :=
  generateClusters compareRows (gridRows pts servers) w

/-! ### What a comparison reaches -/

/-- The element is an invalid request. -/
def Item.isInvalid (h : Heap) (x : Item) : Bool := isRequest (!·.isValid) (some (x.view h))

/-- There is an invalid request in the stream. -/
def hasInvalid (h : Heap) (pts : List Item) : Bool := pts.any (Item.isInvalid h)

/-- The loop of `categorize_discrepancy` gets to an invalid request. -/
def reachesInvalid (s1 s2 : Server) : List (Option Item × Option Item) → Heap → Bool
  | [], _ => false
  | (r1, r2) :: ps, h =>
    someInvalid (r1.map (·.view h)) (r2.map (·.view h)) ||
      match comparePositionIn h r1 r2 s1 s2 with
      | (.continue, h) => reachesInvalid s1 s2 ps h
      | _ => false

/-- The call gets to an invalid request. -/
def Comparison.reachesInvalid (c : Comparison) : Bool :=
  HttpGarden.reachesInvalid c.row.1.1 c.col.1.1
    (positions c.row.1.2 c.col.1.2 c.row.1.1 c.col.1.1) c.before

theorem compareSameType_ne_invalid (r1 r2 : Option Parsed) (s1 s2 : Server) :
    compareSameType r1 r2 s1 s2 ≠ .return .invalid := by
  unfold compareSameType
  split
  · split <;> decide
  · split <;> decide
  · decide

theorem comparePosition_eq_invalid_iff (r1 r2 : Option Parsed) (s1 s2 : Server) :
    comparePosition r1 r2 s1 s2 = .return .invalid ↔ someInvalid r1 r2 = true := by
  have hsame := compareSameType_ne_invalid r1 r2 s1 s2
  unfold comparePosition earlyVerdict
  by_cases hinvalid : someInvalid r1 r2 = true
  · rw [if_pos hinvalid]
    exact iff_of_true rfl hinvalid
  · rw [if_neg hinvalid]
    refine iff_of_false ?_ hinvalid
    split
    · simp
    · split
      · simp
      · split
        · split <;> simp
        · exact hsame

variable {h : Heap} {r1 r2 : Option Item} {s1 s2 : Server}

/-- The objects are compared like values where validity is concerned. -/
theorem comparePositionIn_eq_invalid_iff :
    (comparePositionIn h r1 r2 s1 s2).1 = .return .invalid ↔
      someInvalid (r1.map (·.view h)) (r2.map (·.view h)) = true := by
  rw [← comparePosition_eq_invalid_iff _ _ s1 s2]
  cases hc : comparedPair s1 s2 (viewPosition h (r1, r2)) with
  | none => rw [comparePositionIn_of_none hc]
  | some q =>
      obtain ⟨a, b, rfl, rfl, rfl, hvalues, hobjects⟩ := comparePositionIn_of_some hc
      rw [hvalues, hobjects]
      refine iff_of_false ?_ ?_
      · dsimp only
        split <;> decide
      · split <;> decide

/-- **INVALID** is what a comparison returns if it gets to an invalid request, and only then. -/
theorem comparePositionsIn_eq_invalid_iff (ps : List (Option Item × Option Item)) :
    (comparePositionsIn s1 s2 ps h).1 = .invalid ↔ reachesInvalid s1 s2 ps h = true := by
  induction ps generalizing h with
  | nil => exact ⟨nofun, nofun⟩
  | cons p ps ih =>
      obtain ⟨r1, r2⟩ := p
      have hhere : (comparePositionIn h r1 r2 s1 s2).1 = .return .invalid ↔
          someInvalid (r1.map (·.view h)) (r2.map (·.view h)) = true :=
        comparePositionIn_eq_invalid_iff
      rw [comparePositionsIn, reachesInvalid, Bool.or_eq_true, ← hhere]
      cases hm : comparePositionIn h r1 r2 s1 s2 with
      | mk v h' =>
          cases v with
          | «continue» => simpa using ih
          | «break» => simp
          | «return» e => simp

theorem Comparison.category_eq_invalid_iff (c : Comparison) :
    c.category = .invalid ↔ c.reachesInvalid = true :=
  comparePositionsIn_eq_invalid_iff _

/-! ### Sorting keeps validity -/

theorem isValid_sortRequest (r : HTTPRequest) : (sortRequest r).isValid = r.isValid := by
  have hperm : (sortHeaders r.headers).Perm r.headers := List.perm_insertionSort headerLE r.headers
  rw [HTTPRequest.isValid, HTTPRequest.isValid, sortRequest, hperm.all_eq, hperm.all_eq]

theorem isInvalid_of_sorts {h h' : Heap} (hs : Sorts h h') {x : Item} (hv : ∀ r ∈ x.refs, r < h.length) :
    x.isInvalid h' = x.isInvalid h := by
  cases x with
  | response r => rfl
  | request r =>
      rw [Item.isInvalid, Item.isInvalid, Item.view, Item.view, isRequest, isRequest]
      rcases hs.2 r (hv r (List.mem_singleton_self r)) with heq | heq
      · rw [heq]
      · rw [heq, isValid_sortRequest]

/-- The element of a position. -/
def positionItems (p : Option Item × Option Item) : List Item := p.1.toList ++ p.2.toList

theorem someInvalid_view (h : Heap) (r1 r2 : Option Item) :
    someInvalid (r1.map (·.view h)) (r2.map (·.view h)) =
      (positionItems (r1, r2)).any (Item.isInvalid h) := by
  rcases r1 with _ | a <;> rcases r2 with _ | b <;>
    simp [someInvalid, positionItems, Item.isInvalid, isRequest]

theorem refs_subset_positionRefs {p : Option Item × Option Item} {x : Item}
    (hx : x ∈ positionItems p) {r : Ref} (hr : r ∈ x.refs) : r ∈ positionRefs p := by
  obtain ⟨r1, r2⟩ := p
  rcases List.mem_append.mp hx with hx | hx
  · rw [Option.mem_toList] at hx
    cases hx
    exact List.mem_append_left _ hr
  · rw [Option.mem_toList] at hx
    cases hx
    exact List.mem_append_right _ hr

theorem mem_of_mem_zipLongest {as bs : List Item} {p : Option Item × Option Item}
    (hp : p ∈ zipLongest as bs) {x : Item} (hx : x ∈ positionItems p) : x ∈ as ∨ x ∈ bs := by
  induction as generalizing bs with
  | nil =>
      obtain ⟨b, hb, rfl⟩ := List.mem_map.mp hp
      rw [List.mem_singleton.mp hx]
      exact .inr hb
  | cons a as ih =>
      cases bs with
      | nil =>
          rcases List.mem_cons.mp hp with rfl | hp
          · rw [List.mem_singleton.mp hx]
            exact .inl List.mem_cons_self
          · exact (ih hp).imp_left (List.mem_cons_of_mem a)
      | cons b bs =>
          rcases List.mem_cons.mp hp with rfl | hp
          · rcases List.mem_cons.mp hx with rfl | hx
            · exact .inl List.mem_cons_self
            · rw [List.mem_singleton.mp hx]
              exact .inr List.mem_cons_self
          · exact (ih hp).imp (List.mem_cons_of_mem a) (List.mem_cons_of_mem b)

/-- What a comparison gets to was in the streams from the start. -/
theorem exists_invalid_of_reaches {h0 : Heap} (ps : List (Option Item × Option Item))
    (hv : ∀ p ∈ ps, ∀ r ∈ positionRefs p, r < h0.length) (hs : Sorts h0 h)
    (hreach : reachesInvalid s1 s2 ps h = true) :
    ∃ p ∈ ps, ∃ x ∈ positionItems p, x.isInvalid h0 = true := by
  induction ps generalizing h with
  | nil => cases hreach
  | cons p ps ih =>
      obtain ⟨r1, r2⟩ := p
      obtain ⟨hv1, hv⟩ := List.forall_mem_cons.mp hv
      rw [reachesInvalid, Bool.or_eq_true] at hreach
      rcases hreach with hhere | hlater
      · rw [someInvalid_view, List.any_eq_true] at hhere
        obtain ⟨x, hx, hinvalid⟩ := hhere
        refine ⟨(r1, r2), List.mem_cons_self, x, hx, ?_⟩
        rwa [← isInvalid_of_sorts hs fun r hr => hv1 r (refs_subset_positionRefs hx hr)]
      · have hstep := comparePositionIn_sorts (h := h) s1 s2
          fun r hr => lt_of_lt_of_le (hv1 r hr) hs.1
        cases hm : comparePositionIn h r1 r2 s1 s2 with
        | mk v h' =>
            rw [hm] at hlater hstep
            cases v with
            | «continue» =>
                obtain ⟨p, hp, hx⟩ := ih hv (hs.trans hstep) hlater
                exact ⟨p, List.mem_cons_of_mem _ hp, hx⟩
            | «break» => cases hlater
            | «return» e => cases hlater

/-! ### Runs -/

/-- Result streams, with the request objects that they refer to. -/
structure StoredStreams where
  heap : Heap
  pts : List (List Item)
  valid : ∀ items ∈ pts, ∀ r ∈ streamRefs items, r < heap.length

variable (st : StoredStreams)

/-- Before the streams are compared, the part of `row`'s stream that is compared with `col` has an
invalid request. -/
def StoredStreams.considersInvalid (row col : GridRow Item) : Bool :=
  hasInvalid st.heap (consideredStream row.1.1 col.1.1 row.1.2)

/-- A member compared as `e` against all that were before it in its cluster. -/
def ComparedAs (calls : List Comparison) (e : ErrorType) (row : GridRow Item)
    (earlier : List (GridRow Item)) : Prop :=
  ∀ col ∈ earlier, ∃ c ∈ calls, c.row = row ∧ c.col = col ∧ c.category = e

/-- A member fitted the ones before it. -/
def Fitted (calls : List Comparison) (row : GridRow Item) (earlier : List (GridRow Item)) : Prop :=
  ComparedAs calls .ok row earlier ∨ ComparedAs calls .invalid row earlier

/-- What holds of a comparison in a run. -/
structure Comparison.Sound (c : Comparison) : Prop where
  invalid : c.category = .invalid →
    st.considersInvalid c.row c.col = true ∨ st.considersInvalid c.col c.row = true
  ok : c.category = .ok → c.reachesInvalid = false

/-- What every run keeps. -/
structure ClusterWorld.Inv (w : ClusterWorld) : Prop where
  sorts : Sorts st.heap w.heap
  sound : ∀ c ∈ w.calls, c.Sound st

/-- The row's stream is stored. -/
def StoredStreams.Stores (row : GridRow Item) : Prop :=
  ∀ r ∈ streamRefs row.1.2, r < st.heap.length

section

variable {st} {row col : GridRow Item} {w : ClusterWorld} {e : ErrorType}

/-- A comparison that is not valid has an invalid request in one of the two streams. -/
theorem considersInvalid_of_invalid (hrow : st.Stores row) (hcol : st.Stores col)
    (hs : Sorts st.heap h) (hinvalid : (⟨row, col, h⟩ : Comparison).category = .invalid) :
    st.considersInvalid row col = true ∨ st.considersInvalid col row = true := by
  rw [Comparison.category_eq_invalid_iff] at hinvalid
  have hv : ∀ p ∈ positions row.1.2 col.1.2 row.1.1 col.1.1, ∀ r ∈ positionRefs p,
      r < st.heap.length := by
    intro p hp r hr
    exact (List.mem_append.mp (refs_of_positions hp hr)).elim (hrow r) (hcol r)
  obtain ⟨p, hp, x, hx, hitem⟩ := exists_invalid_of_reaches _ hv hs hinvalid
  refine (mem_of_mem_zipLongest hp hx).imp (fun hmem => ?_) fun hmem => ?_
  · exact List.any_eq_true.mpr ⟨x, hmem, hitem⟩
  · rw [consideredStream, Bool.or_comm] at hmem
    exact List.any_eq_true.mpr ⟨x, hmem, hitem⟩

/-- **One call** keeps the invariant. -/
theorem compareRows_inv (hrow : st.Stores row) (hcol : st.Stores col) (hw : w.Inv st) :
    (compareRows row col w).2.Inv st := by
  have hrefs : ∀ p ∈ positions row.1.2 col.1.2 row.1.1 col.1.1, ∀ r ∈ positionRefs p,
      r < w.heap.length := by
    intro p hp r hr
    exact lt_of_lt_of_le
      ((List.mem_append.mp (refs_of_positions hp hr)).elim (hrow r) (hcol r)) hw.sorts.1
  refine ⟨hw.sorts.trans (comparePositionsIn_sorts _ _ _ hrefs), ?_⟩
  refine List.forall_mem_append.mpr ⟨hw.sound, List.forall_mem_singleton.mpr ⟨?_, fun hok => ?_⟩⟩
  · exact considersInvalid_of_invalid hrow hcol hw.sorts
  · rw [← Bool.not_eq_true, ← Comparison.category_eq_invalid_iff, hok]
    exact nofun

theorem mem_calls_compareRows {c : Comparison} (hc : c ∈ w.calls) :
    c ∈ (compareRows row col w).2.calls := List.mem_append_left _ hc

theorem allCategorized_calls {c : Comparison} (group : List (GridRow Item)) (hc : c ∈ w.calls) :
    c ∈ (allCategorized compareRows e row group w).2.calls := by
  induction group generalizing w with
  | nil => exact hc
  | cons col group ih =>
      simp only [allCategorized]
      split
      · exact ih (mem_calls_compareRows hc)
      · exact mem_calls_compareRows hc

theorem allCategorized_inv (hrow : st.Stores row) {group : List (GridRow Item)}
    (hgroup : ∀ col ∈ group, st.Stores col) (hw : w.Inv st) :
    (allCategorized compareRows e row group w).2.Inv st := by
  induction group generalizing w with
  | nil => exact hw
  | cons col group ih =>
      obtain ⟨hcol, hgroup⟩ := List.forall_mem_cons.mp hgroup
      have hstep := compareRows_inv hrow hcol hw
      simp only [allCategorized]
      split
      · exact ih hgroup hstep
      · exact hstep

/-- If all are as asked for, each of them has been compared. -/
theorem comparedAs_of_allCategorized {group : List (GridRow Item)}
    (hall : (allCategorized compareRows e row group w).1 = true) :
    ComparedAs (allCategorized compareRows e row group w).2.calls e row group := by
  induction group generalizing w with
  | nil => exact List.forall_mem_nil _
  | cons col group ih =>
      simp only [allCategorized] at hall ⊢
      split at hall
      · next he =>
          rw [if_pos he]
          refine List.forall_mem_cons.mpr ⟨⟨⟨row, col, w.heap⟩, ?_, rfl, rfl, he⟩, ih hall⟩
          exact allCategorized_calls group (List.mem_append_right _ (List.mem_singleton_self _))
      · cases hall

theorem ComparedAs.mono {calls calls' : List Comparison} (hcalls : ∀ c ∈ calls, c ∈ calls')
    {earlier : List (GridRow Item)} (h : ComparedAs calls e row earlier) :
    ComparedAs calls' e row earlier := by
  intro col hcol
  obtain ⟨c, hc, hrest⟩ := h col hcol
  exact ⟨c, hcalls c hc, hrest⟩

theorem fitsGroup_calls {c : Comparison} (group : List (GridRow Item)) (hc : c ∈ w.calls) :
    c ∈ (fitsGroup compareRows row group w).2.calls := by
  have hok : c ∈ (allCategorized compareRows .ok row group w).2.calls := allCategorized_calls group hc
  simp only [fitsGroup]
  split
  · exact hok
  · exact allCategorized_calls group hok

theorem fitsGroup_inv (hrow : st.Stores row) {group : List (GridRow Item)}
    (hgroup : ∀ col ∈ group, st.Stores col) (hw : w.Inv st) :
    (fitsGroup compareRows row group w).2.Inv st := by
  have hok := allCategorized_inv (e := .ok) hrow hgroup hw
  simp only [fitsGroup]
  split
  · exact hok
  · exact allCategorized_inv hrow hgroup hok

theorem fitted_of_fitsGroup {group : List (GridRow Item)}
    (hfit : (fitsGroup compareRows row group w).1 = true) :
    Fitted (fitsGroup compareRows row group w).2.calls row group := by
  simp only [fitsGroup] at hfit ⊢
  split at hfit
  · next hok =>
      rw [if_pos hok]
      exact .inl (comparedAs_of_allCategorized hok)
  · next hok =>
      rw [if_neg hok]
      exact .inr (comparedAs_of_allCategorized hfit)

/-- Two valid streams do not compare as INVALID, so a test that included them was one for OK. -/
theorem Fitted.comparedAs_ok {calls : List Comparison} {earlier : List (GridRow Item)}
    (h : Fitted calls row earlier) (hsound : ∀ c ∈ calls, c.Sound st) (hcol : col ∈ earlier)
    (hvalid : st.considersInvalid row col = false) (hvalid' : st.considersInvalid col row = false) :
    ComparedAs calls .ok row earlier := by
  refine h.resolve_right fun hinv => ?_
  obtain ⟨c, hc, rfl, rfl, hcategory⟩ := hinv col hcol
  rcases (hsound c hc).invalid hcategory with htrue | htrue
  · rw [hvalid] at htrue
    cases htrue
  · rw [hvalid'] at htrue
    cases htrue

end

/-! ### Whole runs -/

/-- What the clusters of a run are. -/
structure WellClustered (servers : List Server) (clusters : List (List (GridRow Item)))
    (calls : List Comparison) : Prop where
  /-- Every position is in exactly one cluster. -/
  partition : clusters.flatten.Perm (gridRows st.pts servers)
  ne_nil : ∀ cluster ∈ clusters, cluster ≠ []
  /-- Members keep arrival order. -/
  members : ∀ cluster ∈ clusters, cluster.Sublist (gridRows st.pts servers)
  /-- Clusters keep the arrival order of their first members. -/
  firsts : (clusters.filterMap List.head?).Sublist (gridRows st.pts servers)
  /-- Every member compared as OK with all the earlier ones, or as INVALID with all of them. -/
  admitted : ∀ cluster ∈ clusters, Admitted (Fitted calls) cluster
  sound : ∀ c ∈ calls, c.Sound st
  /-- Two members whose considered streams are valid are OK, and so is the later one with all that
  were before it. -/
  valid : ∀ cluster ∈ clusters, ∀ pre row post, cluster = pre ++ row :: post → ∀ col ∈ pre,
    st.considersInvalid row col = false → st.considersInvalid col row = false →
      ComparedAs calls .ok row pre

theorem stores_of_mem_gridRows {servers : List Server} {row : GridRow Item}
    (hrow : row ∈ gridRows st.pts servers) : st.Stores row := by
  have hzip : row.1 ∈ servers.zip st.pts := List.fst_mem_of_mem_zipIdx hrow
  exact st.valid row.1.2 (List.of_mem_zip hzip).2

/-- **The clusters of every run.** -/
theorem generateClustersIn_wellClustered (servers : List Server) :
    WellClustered st servers (generateClustersIn st.pts servers ⟨st.heap, []⟩).1
      (generateClustersIn st.pts servers ⟨st.heap, []⟩).2.calls := by
  obtain ⟨hinv, hgroups⟩ := groupFirstFit_spec (Q := st.Stores)
    (I := ClusterWorld.Inv st) (F := fun w => Fitted w.calls)
    (fun row group hrow hgroup w => fitsGroup_inv hrow hgroup)
    (fun row group _ _ w _ => fitted_of_fitsGroup)
    (fun row group w row' earlier h => h.imp (.mono fun c => fitsGroup_calls group)
      (.mono fun c => fitsGroup_calls group))
    (fun row (hrow : row ∈ gridRows st.pts servers) => stores_of_mem_gridRows st hrow)
    (s := ⟨st.heap, []⟩) ⟨(Keeps.refl st.heap).sorts, List.forall_mem_nil _⟩
  refine ⟨hgroups.perm, hgroups.ne_nil, hgroups.sublist, hgroups.heads, hgroups.admitted,
    hinv.sound, fun cluster hcluster pre row post heq col hcol => ?_⟩
  have hfitted : Fitted _ row pre :=
    hgroups.admitted cluster hcluster pre row post heq (List.ne_nil_of_mem hcol)
  exact hfitted.comparedAs_ok hinv.sound hcol

/-! ### Clusters that are mixed -/

/-- A request with this method. -/
def methodRequest (method : String) : HTTPRequest := ⟨bytes method, bytes "/", [], [], bytes "1.1"⟩

/-- A request, and from another server the same request followed by an invalid one. -/
def followedByInvalid : StoredStreams where
  heap := [methodRequest "GET", methodRequest "GET", methodRequest "G T"]
  pts := [[.request 0], [.request 1, .request 2]]
  valid := by decide

/-- A request, and from another server an invalid one. -/
def validAndInvalid : StoredStreams where
  heap := [methodRequest "GET", methodRequest "G T"]
  pts := [[.request 0], [.request 1]]
  valid := by decide

/-- Where one of two servers does not support persistent connections, nothing after the first
request is compared, so a stream with an invalid request is OK with one that has none. And a
request and an invalid one compare as INVALID, so that the two are in one cluster. -/
theorem not_unmixed :
    (¬ ∀ (st : StoredStreams) (servers : List Server), servers.length = st.pts.length →
      ∀ cluster ∈ (generateClustersIn st.pts servers ⟨st.heap, []⟩).1, ∀ row ∈ cluster,
        ∀ col ∈ cluster, hasInvalid st.heap row.1.2 = hasInvalid st.heap col.1.2) ∧
    ¬ ∀ (st : StoredStreams) (servers : List Server), servers.length = st.pts.length →
      ∀ cluster ∈ (generateClustersIn st.pts servers ⟨st.heap, []⟩).1,
        Admitted (ComparedAs (generateClustersIn st.pts servers ⟨st.heap, []⟩).2.calls .ok) cluster ∨
          ∀ row ∈ cluster, ∀ col ∈ cluster, st.considersInvalid row col = true := by
  refine ⟨fun h => ?_, fun h => ?_⟩
  · have hmixed := h followedByInvalid
      [{ plainServer with doesntSupportPersistence := true }, plainServer] rfl
    revert hmixed
    decide
  · have hone : (generateClustersIn validAndInvalid.pts [plainServer, plainServer]
        ⟨validAndInvalid.heap, []⟩).1 =
        [[((plainServer, [.request 0]), 0), ((plainServer, [.request 1]), 1)]] := by
      decide
    have hcalls : ∀ c ∈ (generateClustersIn validAndInvalid.pts [plainServer, plainServer]
        ⟨validAndInvalid.heap, []⟩).2.calls, c.category ≠ .ok := by
      decide
    rcases h validAndInvalid [plainServer, plainServer] rfl _
        (by rw [hone]; exact List.mem_singleton_self _) with hok | hinvalid
    · obtain ⟨c, hc, -, -, hcategory⟩ := hok [((plainServer, [.request 0]), 0)]
        ((plainServer, [.request 1]), 1) [] rfl (by simp) _ (List.mem_singleton_self _)
      exact hcalls c hc hcategory
    · revert hinvalid
      decide

end HttpGarden
