import HttpGarden.Diff.NormalForm

/-!
# HttpGarden.Diff.Joining

What `join_duplicate_headers` computes, in closed form, and that the fixed order in which
`normalize_request` joins and removes headers does not matter.
-/

namespace HttpGarden

open Lib

/-! ### Values of one name -/

theorem intercalate_cons_append (J v w : Bytes) (values : List Bytes) :
    J.intercalate ((v ++ w) :: values) = v ++ J.intercalate (w :: values) := by
  cases values <;> simp [List.intercalate]

/-- Joining one value after the other. -/
theorem foldl_joinWith (J v : Bytes) (values : List Bytes) :
    values.foldl (joinWith J) v = J.intercalate (v :: values) := by
  induction values generalizing v with
  | nil => simp [List.intercalate]
  | cons w values ih =>
      rw [List.foldl_cons, ih, joinWith, intercalate_cons_append, intercalate_cons_append]
      simp [List.intercalate]

/-! ### All headers -/

/-- The names under which headers are joined, in the order of their first occurrence. -/
def joinedNames (hs : List Header) : List Bytes := (hs.map fun h => lower h.1).eraseDups

theorem map_fst_lowerName (hs : List Header) :
    (hs.map lowerName).map Prod.fst = hs.map fun h => lower h.1 := List.map_map

/-- For each name, in the order of first occurrence, its values with the joiner between them. -/
theorem headers_joinDuplicateHeaders (req : HTTPRequest) (joiner : Bytes) :
    (joinDuplicateHeaders req joiner).headers = (joinedNames req.headers).map fun name =>
      (name, joiner.intercalate (valuesOf name req.headers)) := by
  rw [joinDuplicateHeaders_eq, joinedNames, ← map_fst_lowerName]
  refine groupWith_eq_map _ fun name v vs hfilter => ?_
  rw [filter_map_lowerName] at hfilter
  have hvalues := congrArg (List.map Prod.snd) hfilter
  rw [List.map_map, List.map_cons] at hvalues
  have hid : valuesOf name req.headers = v :: vs.map Prod.snd := (List.map_id _).symm.trans hvalues
  rw [hid, foldl_joinWith]

theorem names_joinDuplicateHeaders (req : HTTPRequest) (joiner : Bytes) :
    (joinDuplicateHeaders req joiner).headers.map Prod.fst = joinedNames req.headers := by
  rw [joinDuplicateHeaders_eq, joinedNames, ← map_fst_lowerName]
  exact keys_groupWith

theorem nodup_joinDuplicateHeaders (req : HTTPRequest) (joiner : Bytes) :
    ((joinDuplicateHeaders req joiner).headers.map Prod.fst).Nodup := by
  rw [joinDuplicateHeaders_eq]
  exact nodup_keys_groupWith

theorem lower_joinedNames {hs : List Header} {name : Bytes} (h : name ∈ joinedNames hs) :
    lower name = name := by
  obtain ⟨h', -, rfl⟩ := List.mem_map.mp (List.mem_eraseDups.mp h)
  exact lower_lower h'.1

/-- What is joined already is left as it is, with any joiner. -/
theorem joinDuplicateHeaders_joinDuplicateHeaders (req : HTTPRequest) (joiner joiner' : Bytes) :
    joinDuplicateHeaders (joinDuplicateHeaders req joiner) joiner' =
      joinDuplicateHeaders req joiner := by
  have hlower : (joinDuplicateHeaders req joiner).headers.map lowerName =
      (joinDuplicateHeaders req joiner).headers := by
    refine (List.map_congr_left fun h hh => ?_).trans (List.map_id _)
    have hname := List.mem_map_of_mem (f := Prod.fst) hh
    rw [names_joinDuplicateHeaders] at hname
    exact Prod.ext (lower_joinedNames hname) rfl
  rw [joinDuplicateHeaders_eq (joinDuplicateHeaders req joiner), hlower,
    groupWith_of_nodup (nodup_joinDuplicateHeaders req joiner)]

/-- Joining and removing commute. -/
theorem foldl_removeRequestHeader_joinDuplicateHeaders (req : HTTPRequest) (joiner : Bytes)
    (names : List Bytes) :
    names.foldl removeRequestHeader (joinDuplicateHeaders req joiner) =
      joinDuplicateHeaders (names.foldl removeRequestHeader req) joiner := by
  have hfilter : (req.headers.filter fun h => !(names.map lower).contains (lower h.1)).map lowerName =
      (req.headers.map lowerName).filter fun h => !(names.map lower).contains (lower h.1) := by
    rw [List.filter_map]
    refine congrArg (List.map lowerName) (List.filter_congr fun h _ => ?_)
    rw [Function.comp_apply, lowerName, lower_lower]
  rw [foldl_removeRequestHeader, foldl_removeRequestHeader, joinDuplicateHeaders_eq,
    joinDuplicateHeaders_eq, hfilter,
    groupWith_filter fun name => !(names.map lower).contains (lower name)]

/-- **Joining duplicate headers**: each name is there once, in lower case and in the order of first
occurrence, with its values in order and the joiner between them. Joining again changes nothing,
and it does not matter whether headers are removed before or after. -/
theorem joinDuplicateHeaders_spec (req : HTTPRequest) (joiner : Bytes) :
    joinDuplicateHeaders req joiner =
        { req with headers := (joinedNames req.headers).map fun name =>
            (name, joiner.intercalate (valuesOf name req.headers)) } ∧
      ((joinDuplicateHeaders req joiner).headers.map Prod.fst).Nodup ∧
      (∀ h ∈ (joinDuplicateHeaders req joiner).headers, lower h.1 = h.1) ∧
      joinDuplicateHeaders (joinDuplicateHeaders req joiner) joiner =
        joinDuplicateHeaders req joiner ∧
      ∀ names : List Bytes,
        (names.foldl removeRequestHeader (joinDuplicateHeaders req joiner)).headers =
          (joinDuplicateHeaders (names.foldl removeRequestHeader req) joiner).headers := by
  have hall : joinDuplicateHeaders req joiner =
      { req with headers := (joinDuplicateHeaders req joiner).headers } := rfl
  refine ⟨?_, nodup_joinDuplicateHeaders req joiner, fun h hh => ?_,
    joinDuplicateHeaders_joinDuplicateHeaders req joiner joiner, fun names => ?_⟩
  · rw [hall, headers_joinDuplicateHeaders]
  · have hname := List.mem_map_of_mem (f := Prod.fst) hh
    rw [names_joinDuplicateHeaders] at hname
    exact lower_joinedNames hname
  · rw [foldl_removeRequestHeader_joinDuplicateHeaders]

end HttpGarden
