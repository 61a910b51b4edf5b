import HttpGarden.Diff.NormalForm

/-!
# HttpGarden.Diff.JoinTranslate

A server that **translates header names and then joins** duplicates, against one without quirks.

Normalizing takes the two steps in the other order: it joins, and then it translates. The two
orders commute as long as no two names become equal only by the translation, and
`categorizeDiscrepancy_translated_iff` says that this is exactly when the server is not reported.
-/

namespace HttpGarden

open Lib

/-- No quirk of the server changes the headers. -/
structure KeepsHeaders (s : Server) : Prop where
  added : s.addedHeaders = []
  removed : s.removedHeaders = []
  trashed : s.trashedHeaders = []
  translation : s.headerNameTranslation = []
  joins : s.joinsDuplicateHeaders = false

/-- The server translates `-` to `_` in header names and joins duplicates; no other quirk changes
the headers. -/
structure TranslatesAndJoins (s : Server) (joiner : Bytes) : Prop where
  added : s.addedHeaders = []
  removed : s.removedHeaders = []
  trashed : s.trashedHeaders = []
  translation : s.headerNameTranslation = dashTranslation
  joins : s.joinsDuplicateHeaders = true
  joiner : s.duplicateHeaderJoiner = joiner

/-- What such a server reports for a request. -/
def translateAndJoin (r : HTTPRequest) (joiner : Bytes) : HTTPRequest :=
  joinDuplicateHeaders (translateRequestHeaderNames r dashTranslation) joiner

/-- Header names, other than the framing ones, that are equal after the translation are equal
before it, ignoring case. -/
def MergesNoNames (r : HTTPRequest) : Prop :=
  ∀ h ∈ r.headers, ∀ h' ∈ r.headers, lower h.1 ∉ framingHeaders → lower h'.1 ∉ framingHeaders →
    lower (translate h.1 dashTranslation) = lower (translate h'.1 dashTranslation) →
    lower h.1 = lower h'.1

/-! ### What the server reports is valid -/

/-- The table, byte by byte. -/
theorem tchars_eq : tchars =
    [33, 35, 36, 37, 38, 39, 42, 43, 45, 46, 94, 95, 96, 124, 126, 97, 98, 99, 100, 101, 102, 103,
      104, 105, 106, 107, 108, 109, 110, 111, 112, 113, 114, 115, 116, 117, 118, 119, 120, 121,
      122, 65, 66, 67, 68, 69, 70, 71, 72, 73, 74, 75, 76, 77, 78, 79, 80, 81, 82, 83, 84, 85, 86,
      87, 88, 89, 90, 48, 49, 50, 51, 52, 53, 54, 55, 56, 57] := by
  simp [tchars, bytes]

/-- Translated and in lower case, a token byte is one still, and not `A`. -/
theorem forall_tchars :
    ∀ c ∈ tchars, tchars.contains (lowerByte (dashByte c)) = true ∧ lowerByte (dashByte c) ≠ 65 := by
  rw [tchars_eq]
  decide +kernel

theorem forall_tchars_lower :
    ∀ c ∈ tchars, tchars.contains (lowerByte c) = true ∧ lowerByte c ≠ 65 := by
  rw [tchars_eq]
  decide +kernel

theorem properTchars_map {f : UInt8 → UInt8}
    (hf : ∀ c ∈ tchars, tchars.contains (f c) = true ∧ f c ≠ 65) {s : Bytes}
    (h : HTTPRequest.properTchars s = true) : HTTPRequest.properTchars (s.map f) = true := by
  have hbyte (c : UInt8) (hc : c ∈ s) := hf c
    (List.contains_iff_mem.mp (List.all_eq_true.mp (Bool.and_eq_true_iff.mp h).1 c hc))
  rw [HTTPRequest.properTchars, Bool.and_eq_true_iff]
  constructor
  · rw [List.all_map, List.all_eq_true]
    exact fun c hc => (hbyte c hc).1
  · rw [Bool.not_eq_true', Bool.eq_false_iff]
    intro hevery
    -- a name that has all of them is not proper, but `A` is missing
    have hA := List.all_eq_true.mp hevery 65 (by simp [tchars_eq])
    obtain ⟨c, hc, hc65⟩ := List.mem_map.mp (List.contains_iff_mem.mp hA)
    exact (hbyte c hc).2 hc65

theorem properTchars_lower_translate {tr : List (Bytes × Bytes)} (htr : IsDashTranslation tr)
    {s : Bytes} (h : HTTPRequest.properTchars s = true) :
    HTTPRequest.properTchars (lower (translate s tr)) = true := by
  rcases htr with rfl | rfl
  · exact properTchars_map forall_tchars_lower h
  · rw [translate_dash, lower_eq_map, List.map_map]
    exact properTchars_map forall_tchars h

theorem headers_translateAndJoin (r : HTTPRequest) (joiner : Bytes) :
    (translateAndJoin r joiner).headers = groupWith (joinWith joiner)
      (r.headers.map fun h => (lower (translate h.1 dashTranslation), h.2)) := by
  rw [translateAndJoin, joinDuplicateHeaders_eq, translateRequestHeaderNames]
  exact congrArg (groupWith _) List.map_map

theorem isValid_translateAndJoin {r : HTTPRequest} {joiner : Bytes} (hr : r.isValid = true)
    (hj : ∀ c ∈ joiner, c ∉ invalidHeaderValueBytes) :
    (translateAndJoin r joiner).isValid = true := by
  simp only [HTTPRequest.isValid, Bool.and_eq_true, List.all_eq_true] at hr ⊢
  obtain ⟨⟨hnames, hvalues⟩, hmethod⟩ := hr
  refine ⟨⟨?_, ?_⟩, hmethod⟩
  · intro h hh
    rw [headers_translateAndJoin] at hh
    have hkey := mem_keys_groupWith.mp (List.mem_map_of_mem (f := Prod.fst) hh)
    rw [List.map_map] at hkey
    obtain ⟨h', hh', heq⟩ := List.mem_map.mp hkey
    rw [← heq]
    exact properTchars_lower_translate (.inr rfl) (hnames h' hh')
  · rw [headers_translateAndJoin]
    refine forall_groupWith (P := fun v : Bytes => (!v.any (invalidHeaderValueBytes.contains ·)) = true)
      (fun v w hv hw => ?_) (List.forall_mem_map.mpr hvalues)
    simp only [Bool.not_eq_true', List.any_eq_false, List.contains_iff_mem] at hv hw ⊢
    exact List.forall_mem_append.mpr ⟨hv, List.forall_mem_append.mpr ⟨hj, hw⟩⟩

/-! ### Two orders of the same steps -/

theorem mergesNoNames_iff (r : HTTPRequest) : MergesNoNames r ↔
    ∀ a ∈ visible r.headers, ∀ b ∈ visible r.headers,
      translate a.1 dashTranslation = translate b.1 dashTranslation → a.1 = b.1 := by
  simp only [visible, List.forall_mem_map, List.mem_filter, Bool.not_eq_true',
    Bool.eq_false_iff, ne_eq, List.contains_iff_mem, MergesNoNames,
    lower_translate (.inr rfl)]
  exact ⟨fun h a ha b hb => h a ha.1 b hb.1 ha.2 hb.2,
    fun h a ha b hb hfa hfb => h a ⟨ha, hfa⟩ b ⟨hb, hfb⟩⟩

variable {s1 s2 : Server} {joiner : Bytes}

theorem kept_eq (h1 : KeepsHeaders s1) (h2 : TranslatesAndJoins s2 joiner) (name : Bytes) :
    kept s1 s2 name = !framingHeaders.contains (lower name) ∧
      kept s2 s1 name = !framingHeaders.contains (lower name) := by
  simp [kept, removedNames, h1.added, h1.removed, h1.trashed, h2.added, h2.removed, h2.trashed]

/-- Normalizing joins, and translates what it has joined. -/
theorem normalForm_joined (h1 : KeepsHeaders s1) (h2 : TranslatesAndJoins s2 joiner)
    (r : HTTPRequest) :
    normalForm r s1 s2 = (groupWith (joinWith joiner) (visible r.headers)).map
      (Prod.map (translate · dashTranslation) id) := by
  simp only [normalForm, joined, h2.joins, h2.joiner, h2.translation, kept_eq h1 h2, if_true]
  rfl

/-- The server translates, and joins what it has translated. -/
theorem normalForm_translateAndJoin (h1 : KeepsHeaders s1) (h2 : TranslatesAndJoins s2 joiner)
    (r : HTTPRequest) :
    normalForm (translateAndJoin r joiner) s2 s1 = groupWith (joinWith joiner)
      ((visible r.headers).map (Prod.map (translate · dashTranslation) id)) := by
  have hreported : (r.headers.map fun h => (lower (translate h.1 dashTranslation), h.2)) =
      (r.headers.map lowerName).map (Prod.map (translate · dashTranslation) id) := by
    rw [List.map_map]
    exact List.map_congr_left fun h _ => congrArg (·, h.2) (lower_translate (.inr rfl) h.1)
  have hfilter : (r.headers.map fun h => (lower (translate h.1 dashTranslation), h.2)).filter
      (fun h => !framingHeaders.contains (lower h.1)) =
        (visible r.headers).map (Prod.map (translate · dashTranslation) id) := by
    rw [hreported, List.filter_map, List.filter_map, visible]
    refine congrArg (List.map _) (congrArg (List.map _) (List.filter_congr fun h _ => ?_))
    simp only [Function.comp_apply, lowerName, Prod.map_fst, lower_translate (.inr rfl),
      lower_lower, List.contains_eq_mem, mem_framingHeaders_translate (.inr rfl)]
  have hlower : ∀ h ∈ (visible r.headers).map (Prod.map (translate · dashTranslation) id),
      lower h.1 = h.1 := by
    intro h hh
    obtain ⟨h', hh', rfl⟩ := List.mem_map.mp hh
    obtain ⟨h'', -, rfl⟩ := List.mem_map.mp hh'
    rw [Prod.map_fst, lower_translate (.inr rfl), lower_lower]
  simp only [normalForm, joined, h1.joins, h1.translation, kept_eq h1 h2,
    headers_translateAndJoin]
  rw [← groupWith_filter fun name => !framingHeaders.contains (lower name), hfilter]
  exact (List.map_id _).trans (map_lowerName_groupWith hlower)

/-- **Translating and then joining** is not reported exactly if no two names become equal only
by the translation. -/
theorem categorizeDiscrepancy_translated_iff (h1 : KeepsHeaders s1)
    (h2 : TranslatesAndJoins s2 joiner) {r : HTTPRequest} (hr : r.isValid = true)
    (hj : ∀ c ∈ joiner, c ∉ invalidHeaderValueBytes) :
    categorizeDiscrepancy [.request r] [.request (translateAndJoin r joiner)] s1 s2 = .ok ↔
      MergesNoNames r := by
  have hsame : SameBut r (translateAndJoin r joiner) := ⟨rfl, rfl, rfl, .inl rfl⟩
  rw [categorizeDiscrepancy_requests hr (isValid_translateAndJoin hr hj), mergesNoNames_iff]
  have heqv : (normalizeRequest r s1 s2).eqv (normalizeRequest (translateAndJoin r joiner) s2 s1) =
      true ↔ _ := normalized_eqv_iff r _ (.inl h1.translation) (.inr h2.translation)
  rw [normalForm_joined h1 h2, normalForm_translateAndJoin h1 h2] at heqv
  have hverdict (b : Bool) : (if b then ErrorType.ok else .requestDiscrepancy) = .ok ↔ b = true := by
    cases b <;> decide
  rw [hverdict, heqv]
  constructor
  · -- what the server reports has every name once
    intro h
    refine injOn_of_nodup_keys (c := joinWith joiner) _ ?_
    exact (h.2.map Prod.fst).nodup_iff.mpr nodup_keys_groupWith
  · intro h
    exact ⟨hsame, List.Perm.of_eq (groupWith_map _ h).symm⟩

/-- A server with these two quirks. -/
def joiningServer : Server :=
  { plainServer with
    headerNameTranslation := dashTranslation
    joinsDuplicateHeaders := true
    duplicateHeaderJoiner := bytes ", " }

def requestWith (headers : List Header) : HTTPRequest :=
  ⟨bytes "GET", bytes "/", headers, [], bytes "1.1"⟩

theorem categorizeDiscrepancy_translated_iff_duplicate :
    categorizeDiscrepancy
      [.request (requestWith [(bytes "A-B", bytes "1"), (bytes "a-b", bytes "2")])]
      [.request (translateAndJoin
        (requestWith [(bytes "A-B", bytes "1"), (bytes "a-b", bytes "2")]) (bytes ", "))]
      plainServer joiningServer = .ok := by
  refine (categorizeDiscrepancy_translated_iff ⟨rfl, rfl, rfl, rfl, rfl⟩
    ⟨rfl, rfl, rfl, rfl, rfl, rfl⟩ (by decide +kernel) (by decide +kernel)).mpr ?_
  unfold MergesNoNames
  decide

/-- The server joins `a-b` and `a_b`; the oracle has already joined when it translates. -/
theorem not_categorizeDiscrepancy_translated :
    (requestWith [(bytes "a-b", bytes "1"), (bytes "a_b", bytes "2")]).isValid = true ∧
      categorizeDiscrepancy
        [.request (requestWith [(bytes "a-b", bytes "1"), (bytes "a_b", bytes "2")])]
        [.request (translateAndJoin
          (requestWith [(bytes "a-b", bytes "1"), (bytes "a_b", bytes "2")]) (bytes ", "))]
        plainServer joiningServer = .requestDiscrepancy := by
  constructor <;> decide

end HttpGarden
