import HttpGarden.Lib.Grouping
import HttpGarden.Diff.Categorize

/-!
# HttpGarden.Diff.NormalForm

**What normalizing a request leaves of its headers.** Two requests are equal when their visible
headers are the same up to order, so the sorting, the headers that are removed and the framing
headers can all be accounted for before anything is joined or renamed.

`perm_visible_normalizeRequest` is the one fact about `normalize_request` that the results about
quirks use: the headers whose names are kept are joined, and then translated.
-/

namespace HttpGarden

open Lib

/-! ### Names -/

/-- What `bytes.lower` does to one byte. -/
def lowerByte (c : UInt8) : UInt8 := if 65 ≤ c ∧ c ≤ 90 then c + 32 else c

theorem lower_eq_map (s : Bytes) : lower s = s.map lowerByte := rfl

theorem lowerByte_lowerByte (c : UInt8) : lowerByte (lowerByte c) = lowerByte c :=
  forall_byte (P := fun c => lowerByte (lowerByte c) = lowerByte c) (by decide +kernel) c

theorem lower_lower (s : Bytes) : lower (lower s) = lower s := by
  rw [lower_eq_map, lower_eq_map, List.map_map]
  exact List.map_congr_left fun c _ => lowerByte_lowerByte c

/-- What the translation of `-` to `_` does to one byte. -/
def dashByte (c : UInt8) : UInt8 := if c = 45 then 95 else c

/-- The translation of `-` to `_`. -/
def dashTranslation : List (Bytes × Bytes) := [(bytes "-", bytes "_")]

theorem replaceFrom_dash (s : Bytes) : replaceFrom (bytes "-") (bytes "_") 0 s = s.map dashByte := by
  induction s with
  | nil => rfl
  | cons c s ih =>
      have hdash : bytes "-" <+: c :: s ↔ c = 45 := by
        rw [show bytes "-" = [45] by decide, List.cons_prefix_cons]
        exact ⟨fun h => h.1.symm, fun h => ⟨h.symm, List.nil_prefix⟩⟩
      rw [replaceFrom, List.map_cons, dashByte, ← ih]
      by_cases hc : c = 45
      · rw [if_pos (hdash.mpr hc), if_pos hc]
        rfl
      · rw [if_neg fun h => hc (hdash.mp h), if_neg hc]

theorem translate_dash (s : Bytes) : translate s dashTranslation = s.map dashByte := by
  have hne : bytes "-" ≠ [] := by decide
  rw [translate, dashTranslation, List.foldl_cons, List.foldl_nil, replace, if_neg hne]
  exact replaceFrom_dash s

theorem lowerByte_dashByte (c : UInt8) : lowerByte (dashByte c) = dashByte (lowerByte c) :=
  forall_byte (P := fun c => lowerByte (dashByte c) = dashByte (lowerByte c)) (by decide +kernel) c

/-- The two header name translations that servers are known for. -/
def IsDashTranslation (tr : List (Bytes × Bytes)) : Prop := tr = [] ∨ tr = dashTranslation

variable {tr : List (Bytes × Bytes)}

/-- Translating a name and lowering its case are independent of each other. -/
theorem lower_translate (htr : IsDashTranslation tr) (s : Bytes) :
    lower (translate s tr) = translate (lower s) tr := by
  rcases htr with rfl | rfl
  · rfl
  · rw [translate_dash, translate_dash, lower_eq_map, lower_eq_map, List.map_map, List.map_map]
    exact List.map_congr_left fun c _ => lowerByte_dashByte c

/-- A word without `-` and `_` is a translation of itself alone. -/
theorem map_dashByte_eq_iff {s w : Bytes} (hw : ∀ c ∈ w, c ≠ 45 ∧ c ≠ 95) :
    s.map dashByte = w ↔ s = w := by
  have hbyte (c t : UInt8) (ht : t ≠ 45 ∧ t ≠ 95) : dashByte c = t ↔ c = t := by
    unfold dashByte
    split
    · next h => exact ⟨fun h' => absurd h'.symm ht.2, fun h' => absurd (h'.symm.trans h) ht.1⟩
    · exact Iff.rfl
  induction s generalizing w with
  | nil => exact Iff.rfl
  | cons c s ih =>
      cases w with
      | nil => exact ⟨nofun, nofun⟩
      | cons t w =>
          obtain ⟨ht, hw⟩ := List.forall_mem_cons.mp hw
          rw [List.map_cons, List.cons.injEq, List.cons.injEq]
          exact and_congr (hbyte c t ht) (ih hw)

/-- Two words around one `_` are a translation of the two around `-` or around `_`. -/
theorem map_dashByte_eq_around {s v w : Bytes} (hv : ∀ c ∈ v, c ≠ 45 ∧ c ≠ 95)
    (hw : ∀ c ∈ w, c ≠ 45 ∧ c ≠ 95) :
    s.map dashByte = v ++ 95 :: w ↔ s = v ++ 45 :: w ∨ s = v ++ 95 :: w := by
  refine ⟨fun h => ?_, fun h => ?_⟩
  · obtain ⟨v', rest, rfl, hv', hrest⟩ := List.map_eq_append_iff.mp h
    obtain ⟨c, w', rfl, hc, hw'⟩ := List.map_eq_cons_iff.mp hrest
    rw [(map_dashByte_eq_iff hv).mp hv', (map_dashByte_eq_iff hw).mp hw']
    unfold dashByte at hc
    split at hc
    · next h45 => exact .inl (by rw [h45])
    · exact .inr (by rw [hc])
  · have hv' := (map_dashByte_eq_iff hv).mpr rfl
    have hw' := (map_dashByte_eq_iff hw).mpr rfl
    rcases h with rfl | rfl
    · rw [List.map_append, List.map_cons, hv', hw']
      rfl
    · rw [List.map_append, List.map_cons, hv', hw']
      rfl

theorem framingHeaders_eq : framingHeaders =
    [bytes "content" ++ 45 :: bytes "length", bytes "content" ++ 95 :: bytes "length",
      bytes "transfer" ++ 45 :: bytes "encoding", bytes "transfer" ++ 95 :: bytes "encoding"] := by
  decide

/-- Translating does not make a framing header of another one, or the other way round. -/
theorem mem_framingHeaders_translate (htr : IsDashTranslation tr) (s : Bytes) :
    translate s tr ∈ framingHeaders ↔ s ∈ framingHeaders := by
  rcases htr with rfl | rfl
  · exact Iff.rfl
  · have hcontent := map_dashByte_eq_around (s := s) (v := bytes "content") (w := bytes "length")
      (by decide +kernel) (by decide +kernel)
    have htransfer := map_dashByte_eq_around (s := s) (v := bytes "transfer")
      (w := bytes "encoding") (by decide +kernel) (by decide +kernel)
    -- nothing that is translated has a `-` left
    have hnever (v w : Bytes) : s.map dashByte ≠ v ++ 45 :: w := by
      intro h
      have hmem : (45 : UInt8) ∈ s.map dashByte := by
        rw [h]
        exact List.mem_append_right v List.mem_cons_self
      obtain ⟨c, -, hc⟩ := List.mem_map.mp hmem
      exact forall_byte (P := fun c => dashByte c ≠ 45) (by decide +kernel) c hc
    rw [translate_dash, framingHeaders_eq]
    simp only [List.mem_cons, List.not_mem_nil, or_false, hcontent, htransfer, hnever, false_or,
      or_assoc]

/-! ### Visible headers -/

instance : Std.Antisymm headerLE where
  antisymm h k hhk hkh := by
    rcases hhk with h1 | ⟨h1, h2⟩
    · rcases hkh with k1 | ⟨k1, -⟩
      · exact absurd (Std.lt_trans h1 k1) (Std.lt_irrefl)
      · exact absurd (k1 ▸ h1) Std.lt_irrefl
    · rcases hkh with k1 | ⟨-, k2⟩
      · exact absurd (h1 ▸ k1) Std.lt_irrefl
      · exact Prod.ext h1 (Std.le_antisymm h2 k2)

theorem sortHeaders_eq_iff {hs ks : List Header} : sortHeaders hs = sortHeaders ks ↔ hs.Perm ks := by
  refine ⟨fun h => ?_, fun h => ?_⟩
  · have hperm : (sortHeaders hs).Perm ks := by
      rw [h]
      exact List.perm_insertionSort headerLE ks
    exact (List.perm_insertionSort headerLE hs).symm.trans hperm
  · exact (((List.perm_insertionSort headerLE hs).trans h).trans
      (List.perm_insertionSort headerLE ks).symm).eq_of_pairwise'
        (List.pairwise_insertionSort headerLE hs) (List.pairwise_insertionSort headerLE ks)

/-- The headers that equality of requests looks at. -/
def visible (hs : List Header) : List Header :=
  (hs.filter fun h => !framingHeaders.contains (lower h.1)).map fun h => (lower h.1, h.2)

theorem perm_visible {hs ks : List Header} (h : hs.Perm ks) : (visible hs).Perm (visible ks) :=
  (h.filter _).map _

/-- The fields besides the headers that equality of requests looks at. -/
def SameBut (r s : HTTPRequest) : Prop :=
  r.method = s.method ∧ r.uri = s.uri ∧ r.body = s.body ∧
    (r.version = s.version ∨ s.version = [] ∨ r.version = [])

theorem eqv_iff (r s : HTTPRequest) :
    r.eqv s = true ↔ SameBut r s ∧ (visible r.headers).Perm (visible s.headers) := by
  rw [← sortHeaders_eq_iff]
  simp only [HTTPRequest.eqv, Bool.and_eq_true, Bool.or_eq_true, beq_iff_eq, SameBut]
  tauto

/-! ### The edits -/

/-- A header under its name in lower case. -/
def lowerName (h : Header) : Header := (lower h.1, h.2)

/-- Two values with the joiner between them. -/
def joinWith (joiner v w : Bytes) : Bytes := v ++ (joiner ++ w)

/-- The values of the headers of this name, ignoring case, in order. -/
def valuesOf (name : Bytes) (hs : List Header) : List Bytes :=
  (hs.filter fun h => lower h.1 == name).map (·.2)

/-- The headers of a name, under their names in lower case, are their values. -/
theorem filter_map_lowerName (name : Bytes) (hs : List Header) :
    (hs.map lowerName).filter (fun h => h.1 == name) = (valuesOf name hs).map (name, ·) := by
  rw [List.filter_map, valuesOf, List.map_map]
  exact List.map_congr_left fun h hh => congrArg (·, h.2) (eq_of_beq (List.mem_filter.mp hh).2)

/-- Grouping keeps the names in lower case. -/
theorem map_lowerName_groupWith {c : Bytes → Bytes → Bytes} {l : List Header}
    (hl : ∀ h ∈ l, lower h.1 = h.1) : (groupWith c l).map lowerName = groupWith c l := by
  refine (List.map_congr_left fun h hh => ?_).trans (List.map_id _)
  obtain ⟨h', hh', hname⟩ := List.mem_map.mp
    (mem_keys_groupWith.mp (List.mem_map_of_mem (f := Prod.fst) hh))
  have hlower : lower h.1 = h.1 := by
    rw [← hname]
    exact hl h' hh'
  exact Prod.ext hlower rfl

/-- `join_duplicate_headers` groups the values by the name in lower case. -/
theorem joinDuplicateHeaders_eq (r : HTTPRequest) (joiner : Bytes) :
    joinDuplicateHeaders r joiner =
      { r with headers := groupWith (joinWith joiner) (r.headers.map lowerName) } := by
  rw [groupWith, List.foldl_map]
  rfl

/-- One removal after the other. -/
theorem foldl_removeRequestHeader (names : List Bytes) (r : HTTPRequest) :
    names.foldl removeRequestHeader r =
      { r with headers := r.headers.filter fun h => !(names.map lower).contains (lower h.1) } := by
  induction names generalizing r with
  | nil =>
      exact congrArg (fun hs => { r with headers := hs })
        (List.filter_eq_self.mpr fun _ _ => rfl).symm
  | cons name names ih =>
      rw [List.foldl_cons, ih, removeRequestHeader, List.filter_filter]
      refine congrArg (fun hs => { r with headers := hs }) (List.filter_congr fun h _ => ?_)
      rw [List.map_cons, List.contains_cons, Bool.not_or, Bool.and_comm]
      rfl

/-- The headers of this name take part in the comparison: no edit removes them, and equality does
not leave them out. -/
def kept (s1 s2 : Server) (name : Bytes) : Bool :=
  !((removedNames s1 s2).map lower).contains (lower name) && !framingHeaders.contains (lower name)

theorem kept_lower (s1 s2 : Server) (name : Bytes) : kept s1 s2 (lower name) = kept s1 s2 name := by
  rw [kept, kept, lower_lower]

/-- The values of equal names, joined if the server is known to do so. -/
def joined (s2 : Server) (hs : List Header) : List Header :=
  if s2.joinsDuplicateHeaders then groupWith (joinWith s2.duplicateHeaderJoiner) hs else hs

theorem joined_filter (s2 : Server) (p : Bytes → Bool) (hs : List Header) :
    joined s2 (hs.filter fun h => p h.1) = (joined s2 hs).filter fun h => p h.1 := by
  unfold joined
  split
  · exact groupWith_filter p
  · rfl

/-- The visible headers of `normalize_request(r, s1, s2)`, up to order. -/
def normalForm (r : HTTPRequest) (s1 s2 : Server) : List Header :=
  (joined s2 ((r.headers.filter fun h => kept s1 s2 h.1).map lowerName)).map
    (Prod.map (translate · s2.headerNameTranslation) id)

/-- What `normalize_request` does to the headers, as one expression. -/
theorem normalizeRequest_eq_with (r : HTTPRequest) (s1 s2 : Server) :
    normalizeRequest r s1 s2 =
      { r with
        headers := sortHeaders
          (((if s2.joinsDuplicateHeaders then
              (joinDuplicateHeaders r s2.duplicateHeaderJoiner).headers
            else r.headers).filter fun h =>
              !((removedNames s1 s2).map lower).contains (lower h.1)).map
            (Prod.map (translate · s2.headerNameTranslation) id)) } := by
  -- an empty translation, which the source skips, would change nothing
  have htranslate (r' : HTTPRequest) :
      (if s2.headerNameTranslation.length > 0 then
        translateRequestHeaderNames r' s2.headerNameTranslation else r') =
        translateRequestHeaderNames r' s2.headerNameTranslation := by
    split
    · rfl
    · next h =>
        rw [List.length_eq_zero_iff.mp (Nat.eq_zero_of_not_pos h), translateRequestHeaderNames]
        refine congrArg (fun hs => { r' with headers := hs }) ?_
        exact (List.map_id _).symm
  simp only [normalizeRequest, foldl_removeRequestHeader, htranslate]
  split <;> rfl

/-- **What normalizing leaves** of the headers. -/
theorem perm_visible_normalizeRequest (r : HTTPRequest) {s1 s2 : Server}
    (htr : IsDashTranslation s2.headerNameTranslation) :
    (visible (normalizeRequest r s1 s2).headers).Perm (normalForm r s1 s2) := by
  -- the framing headers may be left out before names are translated
  have hframing (hs : List Header) :
      visible (hs.map (Prod.map (translate · s2.headerNameTranslation) id)) =
        (visible hs).map (Prod.map (translate · s2.headerNameTranslation) id) := by
    simp only [visible, List.filter_map, List.map_map]
    have hfilter : (fun h : Header => !framingHeaders.contains (lower h.1)) ∘
        Prod.map (translate · s2.headerNameTranslation) id =
          fun h => !framingHeaders.contains (lower h.1) := by
      funext h
      simp only [Function.comp_apply, Prod.map_fst, lower_translate htr, List.contains_eq_mem,
        mem_framingHeaders_translate htr]
    rw [hfilter]
    exact List.map_congr_left fun h _ => congrArg (·, h.2) (lower_translate htr h.1)
  have hkept (hs : List Header) : visible (hs.filter fun h =>
      !((removedNames s1 s2).map lower).contains (lower h.1)) =
        (hs.filter fun h => kept s1 s2 h.1).map lowerName := by
    rw [visible, List.filter_filter]
    refine congrArg (List.map lowerName) (List.filter_congr fun h _ => ?_)
    rw [kept, Bool.and_comm]
  rw [normalizeRequest_eq_with]
  refine (perm_visible (List.perm_insertionSort headerLE _)).trans (List.Perm.of_eq ?_)
  rw [hframing, hkept, normalForm]
  refine congrArg (List.map _) ?_
  have hlower : (r.headers.map lowerName).filter (fun h => kept s1 s2 h.1) =
      (r.headers.filter fun h => kept s1 s2 h.1).map lowerName := by
    rw [List.filter_map]
    exact congrArg (List.map lowerName) (List.filter_congr fun h _ => kept_lower s1 s2 h.1)
  rw [← hlower, joined_filter, joined]
  split
  · -- the names are in lower case after joining
    rw [joinDuplicateHeaders_eq, ← groupWith_filter fun name => kept s1 s2 name]
    refine map_lowerName_groupWith fun h hh => ?_
    obtain ⟨h', -, rfl⟩ := List.mem_map.mp (List.mem_filter.mp hh).1
    exact lower_lower h'.1
  · exact hlower.symm

/-! ### Comparing two requests -/

theorem normalized_eqv_iff (r1 r2 : HTTPRequest) {s1 s2 : Server}
    (h1 : IsDashTranslation s1.headerNameTranslation)
    (h2 : IsDashTranslation s2.headerNameTranslation) :
    (normalizeRequest r1 s1 s2).eqv (normalizeRequest r2 s2 s1) = true ↔
      SameBut r1 r2 ∧ (normalForm r1 s1 s2).Perm (normalForm r2 s2 s1) := by
  rw [eqv_iff, (perm_visible_normalizeRequest r1 h2).congr_left,
    (perm_visible_normalizeRequest r2 h1).congr_right, normalizeRequest_eq_with,
    normalizeRequest_eq_with]
  exact Iff.rfl

/-- Two valid requests at one position. -/
theorem comparePosition_requests {r1 r2 : HTTPRequest} (hv1 : r1.isValid = true)
    (hv2 : r2.isValid = true) (s1 s2 : Server) :
    comparePosition (some (.request r1)) (some (.request r2)) s1 s2 =
      if (normalizeRequest r1 s1 s2).eqv (normalizeRequest r2 s2 s1) then .continue
      else .return .requestDiscrepancy := by
  have hvalid : someInvalid (some (.request r1)) (some (.request r2)) = false := by
    rw [someInvalid, isRequest, isRequest, hv1, hv2]
    rfl
  rw [comparePosition, earlyVerdict, hvalid]
  rfl

/-- Two streams of one valid request each. -/
theorem categorizeDiscrepancy_requests {r1 r2 : HTTPRequest} (hv1 : r1.isValid = true)
    (hv2 : r2.isValid = true) (s1 s2 : Server) :
    categorizeDiscrepancy [.request r1] [.request r2] s1 s2 =
      if (normalizeRequest r1 s1 s2).eqv (normalizeRequest r2 s2 s1) then .ok
      else .requestDiscrepancy := by
  have hpositions : positions [Parsed.request r1] [.request r2] s1 s2 =
      [(some (.request r1), some (.request r2))] := by
    unfold positions consideredStream
    split <;> rfl
  rw [categorizeDiscrepancy, hpositions, comparePositions, comparePosition_requests hv1 hv2]
  cases (normalizeRequest r1 s1 s2).eqv (normalizeRequest r2 s2 s1) <;> rfl

end HttpGarden
