import HttpGarden.Diff.Clusters
import HttpGarden.Repl.Labels

/-!
# HttpGarden.Repl.Reports

**What the `grid` and `cluster` commands report** is what `generate_grid` and `generate_clusters`
return for the same streams.

The commands log their comparisons with the names of the servers; `generateGridIn` and
`generateClustersIn` keep records of other kinds. The loops are the same, and they run in step
over calls that do (`generateGrid_in_step`, `generateClusters_in_step`).
-/

namespace HttpGarden.Repl

open Lib

variable {ε : Type}

/-! ### The same loops over calls that run in step -/

section

variable {ρ ρ' σ τ : Type} {R : ρ → ρ' → Prop} {S : σ → τ → Prop}

/-- Two ways to make the calls of `categorize_discrepancy`: on related rows they return the same. -/
def CallsInStep (R : ρ → ρ' → Prop) (S : σ → τ → Prop) (compare : ρ → ρ → σ → ErrorType × σ)
    (compare' : ρ' → ρ' → τ → ErrorType × τ) : Prop :=
  ∀ row row', R row row' → ∀ col col', R col col' → ∀ s t, S s t →
    (compare row col s).1 = (compare' row' col' t).1 ∧
      S (compare row col s).2 (compare' row' col' t).2

variable {compare : ρ → ρ → σ → ErrorType × σ} {compare' : ρ' → ρ' → τ → ErrorType × τ}
  {rows : List ρ} {rows' : List ρ'} {s : σ} {t : τ}

theorem forall₂_zipIdx (h : List.Forall₂ R rows rows') (i : Nat) :
    List.Forall₂ (fun x y => R x.1 y.1 ∧ x.2 = y.2) (rows.zipIdx i) (rows'.zipIdx i) := by
  induction h generalizing i with
  | nil => exact .nil
  | cons hrow _ ih => exact .cons ⟨hrow, rfl⟩ (ih (i + 1))

theorem generateGrid_in_step (h : CallsInStep R S compare compare')
    (hrows : List.Forall₂ R rows rows') (hst : S s t) :
    (generateGrid compare rows s).1 = (generateGrid compare' rows' t).1 := by
  have hindexed := forall₂_zipIdx hrows 0
  refine (collect_in_step (S := S) (fun row row' hrow s t hst => ?_) hindexed hst).1
  refine collect_in_step (S := S) (fun col col' hcol s t hst => ?_) hindexed hst
  unfold gridCell
  rw [hrow.2, hcol.2]
  split
  · exact ⟨rfl, hst⟩
  · obtain ⟨hcategory, hst'⟩ := h row.1 row'.1 hrow.1 col.1 col'.1 hcol.1 s t hst
    exact ⟨congrArg some hcategory, hst'⟩

theorem allCategorized_in_step (h : CallsInStep R S compare compare') (e : ErrorType) {row : ρ}
    {row' : ρ'} (hrow : R row row') {group : List ρ} {group' : List ρ'}
    (hgroup : List.Forall₂ R group group') (hst : S s t) :
    (allCategorized compare e row group s).1 = (allCategorized compare' e row' group' t).1 ∧
      S (allCategorized compare e row group s).2 (allCategorized compare' e row' group' t).2 := by
  induction hgroup generalizing s t with
  | nil => exact ⟨rfl, hst⟩
  | @cons col col' group group' hcol _ ih =>
      obtain ⟨hcategory, hst'⟩ := h row row' hrow col col' hcol s t hst
      simp only [allCategorized, hcategory]
      split
      · exact ih hst'
      · exact ⟨rfl, hst'⟩

theorem fitsGroup_in_step (h : CallsInStep R S compare compare') {row : ρ} {row' : ρ'}
    (hrow : R row row') {group : List ρ} {group' : List ρ'}
    (hgroup : List.Forall₂ R group group') (hst : S s t) :
    (fitsGroup compare row group s).1 = (fitsGroup compare' row' group' t).1 ∧
      S (fitsGroup compare row group s).2 (fitsGroup compare' row' group' t).2 := by
  obtain ⟨hok, hst'⟩ := allCategorized_in_step h .ok hrow hgroup hst
  simp only [fitsGroup, hok]
  split
  · exact ⟨rfl, hst'⟩
  · exact allCategorized_in_step h .invalid hrow hgroup hst'

theorem generateClusters_in_step (h : CallsInStep R S compare compare')
    (hrows : List.Forall₂ R rows rows') (hst : S s t) :
    List.Forall₂ (List.Forall₂ R) (generateClusters compare rows s).1
      (generateClusters compare' rows' t).1 := by
  have hfits (row : ρ) (row' : ρ') (hrow : R row row') (group : List ρ) (group' : List ρ')
      (hgroup : List.Forall₂ R group group') (s : σ) (t : τ) (hst : S s t) :=
    fitsGroup_in_step h hrow hgroup hst
  exact (groupFirstFit_in_step hfits hrows hst).1

end

/-! ### The commands -/

/-- The server and the stream of a row, without their names. -/
def Row.entry (row : Row ε) : Server × List Item := (row.1.toServer, row.2.pts)

theorem map_entry (pts : List Result) (servers : List (Origin ε)) :
    (servers.map (·.toServer)).zip (pts.map (·.pts)) = (servers.zip pts).map Row.entry := by
  rw [List.zip_map]
  rfl

theorem compare_in_step : CallsInStep (fun (row : Row ε) entry => entry = row.entry)
    (fun (log : Log) (w : World) => log.heap = w.heap) Log.compare World.compare := by
  intro row entry hrow col entry' hcol log w hheap
  rw [hrow, hcol]
  unfold Log.compare World.compare Row.entry
  rw [hheap]
  exact ⟨rfl, rfl⟩

/-- **The grid** of the command is that of `generate_grid`. -/
theorem generateGrid_eq (pts : List Result) (servers : List (Origin ε)) (log : Log) :
    (generateGrid Log.compare (servers.zip pts) log).1 =
      (generateGridIn (pts.map (·.pts)) (servers.map (·.toServer)) ⟨log.heap, []⟩).1 := by
  refine generateGrid_in_step compare_in_step ?_ rfl
  rw [map_entry, List.forall₂_map_right_iff]
  exact List.forall₂_same.mpr fun row _ => rfl

/-- The row has the server and the stream of a member of a cluster. -/
def SameRow (row : Row ε) (row' : GridRow Item) : Prop := row'.1 = row.entry

theorem compareRows_in_step : CallsInStep (SameRow (ε := ε))
    (fun (log : Log) (w : ClusterWorld) => log.heap = w.heap) Log.compare compareRows := by
  intro row row' hrow col col' hcol log w hheap
  unfold Log.compare compareRows
  rw [hrow, hcol, hheap]
  exact ⟨rfl, rfl⟩

/-- **The clusters** of the command are those of `generate_clusters`. -/
theorem generateClusters_same (pts : List Result) (servers : List (Origin ε)) (log : Log) :
    List.Forall₂ (List.Forall₂ SameRow) (generateClusters Log.compare (servers.zip pts) log).1
      (generateClustersIn (pts.map (·.pts)) (servers.map (·.toServer)) ⟨log.heap, []⟩).1 := by
  refine generateClusters_in_step compareRows_in_step ?_ rfl
  refine (List.forall₂_map_right_iff (R := fun (row : Row ε) entry => entry = row.entry)).mp ?_
  rw [gridRows, List.zipIdx_map_fst, map_entry, List.forall₂_map_right_iff]
  exact List.forall₂_same.mpr fun row _ => rfl

end HttpGarden.Repl
