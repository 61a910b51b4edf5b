import HttpGarden.Diff.JoinTranslate
import HttpGarden.Diff.Symmetry

/-!
# HttpGarden.Diff.Declared

**What the quirks of a server declare.** Every quirk in the record of a server says which of its
requests it may refuse, or in what the headers that it reports may differ from those that were sent.
Two servers that keep to their quirks may then do different things with one stream of requests; none
of these differences is to be reported.

`categorizeDiscrepancy_declared`: the comparison excuses all of them, except that two servers may
refuse the same request with different codes.
-/

namespace HttpGarden

open Lib

/-! ### The quirks, one by one -/

/-- A Content-Length or Transfer-Encoding header is there. -/
def HTTPRequest.hasLength (r : HTTPRequest) : Bool :=
  r.hasHeader (bytes "content-length") none || r.hasHeader (bytes "transfer-encoding") none

namespace Server

/-- The quirks of the server name a reason to refuse the request. -/
inductive Refuses (s : Server) (r : HTTPRequest) (resp : HTTPResponse) : Prop
  | host (h : s.allowsMissingHostHeader = false) (hhost : r.hasHeader (bytes "host") none = false)
      (hcode : resp.code = bytes "400")
  | length (h : s.requiresLengthInPost = true) (hmethod : r.method = bytes "POST")
      (hlength : r.hasLength = false) (hcode : resp.code = bytes "411")
  | method {methods : List Bytes} (h : s.methodWhitelist = some methods)
      (hmethod : r.method ∉ methods)
  | character {c : UInt8} (h : c ∈ s.methodCharacterBlacklist) (hmethod : c ∈ r.method)

/-- The headers that the server passes on: some are removed, names are translated, and duplicates
are joined. -/
def passesOn (s : Server) (r : HTTPRequest) : List Header :=
  joined s (((r.headers.map lowerName).filter fun h => !(s.removedHeaders.map lower).contains h.1).map
    (Prod.map (translate · s.headerNameTranslation) id))

/-- The server neither adds headers of this name nor overwrites them, and they are not among those
that equality leaves out. -/
def LeavesAlone (s : Server) (name : Bytes) : Prop :=
  name ∉ framingHeaders ∧ name ∉ (s.addedHeaders ++ s.trashedHeaders).map lower

/-- The server accepts the request, and reports it as its quirks say. -/
structure Accepts (s : Server) (r r' : HTTPRequest) : Prop where
  hostGiven : s.allowsMissingHostHeader = true ∨ r.hasHeader (bytes "host") none = true
  lengthGiven : s.requiresLengthInPost = true → r.method = bytes "POST" → r.hasLength = true
  method : r'.method = r.method
  uri : r'.uri = r.uri
  body : r'.body = r.body
  version : r'.version = r.version ∨ r'.version = []
  values : ∀ name, s.LeavesAlone name → valuesOf name r'.headers = valuesOf name (s.passesOn r)
  noOtherHost : r'.hasHeader (bytes "host") none = true → r.hasHeader (bytes "host") none = true
  valid : r'.isValid = true

end Server

/-- What comes back for a stream of requests: a report of each, until one is refused. -/
inductive Answered (accepts : HTTPRequest → HTTPRequest → Prop)
    (refuses : HTTPRequest → HTTPResponse → Prop) : List HTTPRequest → List Parsed → Prop
  | nil : Answered accepts refuses [] []
  | accepted {r r' : HTTPRequest} {rs : List HTTPRequest} {pts : List Parsed} (h : accepts r r')
      (hrest : Answered accepts refuses rs pts) :
      Answered accepts refuses (r :: rs) (.request r' :: pts)
  | refused {r : HTTPRequest} {rs : List HTTPRequest} {resp : HTTPResponse} (h : refuses r resp) :
      Answered accepts refuses (r :: rs) [.response resp]

/-- The requests that the server gets to on one connection. -/
def Server.reads (s : Server) (rs : List HTTPRequest) : List HTTPRequest :=
  if s.doesntSupportPersistence then rs.take 1 else rs

/-- The server keeps to its quirks. -/
def Server.Serves (s : Server) (rs : List HTTPRequest) (pts : List Parsed) : Prop :=
  Answered s.Accepts s.Refuses (s.reads rs) pts

/-! ### Names -/

/-- No name of the request becomes equal to another one, or to one that the servers do something
about, only by this translation. The framing headers, which equality leaves out, do not matter. -/
structure UnmixedBy (tr : List (Bytes × Bytes)) (s1 s2 : Server) (r : HTTPRequest) : Prop where
  names : ∀ h ∈ visible r.headers, ∀ h' ∈ visible r.headers,
    translate h.1 tr = translate h'.1 tr → h.1 = h'.1
  removed : ∀ h ∈ visible r.headers, ∀ k ∈ s1.removedHeaders ++ s2.removedHeaders,
    translate h.1 tr = translate (lower k) tr → h.1 = lower k
  replaced : ∀ h ∈ visible r.headers, ∀ k ∈ (s1.addedHeaders ++ s1.trashedHeaders) ++
      (s2.addedHeaders ++ s2.trashedHeaders),
    translate h.1 tr = translate (lower k) tr → h.1 = lower k ∧ translate (lower k) tr = lower k

/-- The quirks of the two servers can be told apart in the headers of the request. -/
structure Comparable (s1 s2 : Server) (r : HTTPRequest) : Prop where
  joiner : s1.joinsDuplicateHeaders = true → s2.joinsDuplicateHeaders = true →
    s1.duplicateHeaderJoiner = s2.duplicateHeaderJoiner
  dash1 : IsDashTranslation s1.headerNameTranslation
  dash2 : IsDashTranslation s2.headerNameTranslation
  unmixed1 : UnmixedBy s1.headerNameTranslation s1 s2 r
  unmixed2 : UnmixedBy s2.headerNameTranslation s1 s2 r

variable {s1 s2 : Server} {r r1 r2 : HTTPRequest} {tr : List (Bytes × Bytes)}

theorem Comparable.symm (h : Comparable s1 s2 r) : Comparable s2 s1 r := by
  have hswap {tr : List (Bytes × Bytes)} (h : UnmixedBy tr s1 s2 r) : UnmixedBy tr s2 s1 r := by
    refine ⟨h.names, fun a ha k hk => h.removed a ha k ?_, fun a ha k hk => h.replaced a ha k ?_⟩
    · exact List.mem_append.mpr (List.mem_append.mp hk).symm
    · exact List.mem_append.mpr (List.mem_append.mp hk).symm
  exact ⟨fun h2 h1 => (h.joiner h1 h2).symm, h.dash2, h.dash1, hswap h.unmixed2, hswap h.unmixed1⟩

/-- Translating twice is translating once. -/
theorem translate_translate (htr : IsDashTranslation tr) (s : Bytes) :
    translate (translate s tr) tr = translate s tr := by
  rcases htr with rfl | rfl
  · rfl
  · rw [translate_dash, translate_dash, List.map_map]
    refine List.map_congr_left fun c _ => ?_
    show dashByte (dashByte c) = dashByte c
    unfold dashByte
    split <;> simp_all

theorem translate_comm {tr' : List (Bytes × Bytes)} (htr : IsDashTranslation tr)
    (htr' : IsDashTranslation tr') (s : Bytes) :
    translate (translate s tr) tr' = translate (translate s tr') tr := by
  rcases htr with rfl | rfl
  · rfl
  · rcases htr' with rfl | rfl <;> rfl

/-- The names that one of the servers does something about. -/
def editedNames (s1 s2 : Server) : List Bytes :=
  ((s1.removedHeaders ++ s2.removedHeaders) ++ ((s1.addedHeaders ++ s1.trashedHeaders) ++
    (s2.addedHeaders ++ s2.trashedHeaders))).map lower

theorem mem_editedNames {name : Bytes} : name ∈ editedNames s1 s2 ↔
    (∃ k ∈ s1.removedHeaders ++ s2.removedHeaders, lower k = name) ∨
      ∃ k ∈ (s1.addedHeaders ++ s1.trashedHeaders) ++ (s2.addedHeaders ++ s2.trashedHeaders),
        lower k = name := by
  rw [editedNames, List.map_append, List.mem_append, List.mem_map, List.mem_map]

theorem visible_eq (hs : List Header) :
    visible hs = (hs.map lowerName).filter fun h => !framingHeaders.contains h.1 := by
  rw [List.filter_map, visible]
  rfl

theorem lower_of_visible {hs : List Header} {h : Header} (hh : h ∈ visible hs) :
    lower h.1 = h.1 ∧ h.1 ∉ framingHeaders := by
  rw [visible_eq, List.mem_filter] at hh
  obtain ⟨hmap, hframing⟩ := hh
  obtain ⟨h', -, rfl⟩ := List.mem_map.mp hmap
  refine ⟨lower_lower h'.1, fun hmem => ?_⟩
  rw [Bool.not_eq_true', Bool.eq_false_iff] at hframing
  exact hframing (List.contains_iff_mem.mpr hmem)

/-- **The names that are compared** on one side: neither server does something about them. -/
theorem kept_translate_iff (h : Comparable s1 s2 r) {a : Header} (ha : a ∈ visible r.headers) :
    a.1 ∉ s1.removedHeaders.map lower ∧ kept s1 s2 (translate a.1 s1.headerNameTranslation) = true ↔
      a.1 ∉ editedNames s1 s2 := by
  obtain ⟨hlower, hframing⟩ := lower_of_visible ha
  have hlower' : lower (translate a.1 s1.headerNameTranslation) =
      translate a.1 s1.headerNameTranslation := by
    rw [lower_translate h.dash1, hlower]
  have hkept : kept s1 s2 (translate a.1 s1.headerNameTranslation) = true ↔
      translate a.1 s1.headerNameTranslation ∉ (removedNames s1 s2).map lower := by
    rw [kept, hlower', Bool.and_eq_true, Bool.not_eq_true', Bool.not_eq_true', Bool.eq_false_iff,
      Bool.eq_false_iff, ne_eq, ne_eq, List.contains_iff_mem, List.contains_iff_mem,
      mem_framingHeaders_translate h.dash1]
    exact and_iff_left hframing
  have hremoved {k : Bytes} (hk : k ∈ s1.removedHeaders ++ s2.removedHeaders)
      (heq : translate (lower k) s1.headerNameTranslation =
        translate a.1 s1.headerNameTranslation) : lower k = a.1 :=
    (h.unmixed1.removed a ha k hk heq.symm).symm
  have hreplaced {k : Bytes} (hk : k ∈ (s1.addedHeaders ++ s1.trashedHeaders) ++
      (s2.addedHeaders ++ s2.trashedHeaders)) (heq : translate (lower k) s1.headerNameTranslation =
        translate a.1 s1.headerNameTranslation) : lower k = a.1 :=
    (h.unmixed1.replaced a ha k hk heq.symm).1.symm
  -- what the first server does, it does to the names as it reports them
  have hreported {k : Bytes} (heq : lower k = translate a.1 s1.headerNameTranslation) :
      translate (lower k) s1.headerNameTranslation = translate a.1 s1.headerNameTranslation := by
    rw [heq, translate_translate h.dash1]
  have hstays {k : Bytes} (hk : k ∈ s1.addedHeaders ++ s1.trashedHeaders) (heq : lower k = a.1) :
      lower k = translate a.1 s1.headerNameTranslation := by
    rw [← heq, (h.unmixed1.replaced a ha k (List.mem_append_left _ hk) (by rw [heq])).2]
  rw [hkept, ← not_or, not_iff_not, mem_editedNames]
  simp only [removedNames, List.map_append, List.map_map, List.mem_append, List.mem_map,
    Function.comp_apply, lower_translate h.dash1]
  constructor
  · rintro (⟨k, hk, heq⟩ | ((⟨k, hk, heq⟩ | ⟨k, hk, heq⟩) |
      (((⟨k, hk, heq⟩ | ⟨k, hk, heq⟩) | ⟨k, hk, heq⟩) | ⟨k, hk, heq⟩)))
    · exact .inl ⟨k, .inl hk, heq⟩
    · exact .inr ⟨k, .inl (.inl hk), hreplaced (by simp [hk]) (hreported heq)⟩
    · exact .inr ⟨k, .inr (.inl hk), hreplaced (by simp [hk]) heq⟩
    · exact .inl ⟨k, .inr hk, hremoved (by simp [hk]) heq⟩
    · exact .inr ⟨k, .inr (.inr hk), hreplaced (by simp [hk]) heq⟩
    · exact .inr ⟨k, .inl (.inr hk), hreplaced (by simp [hk]) (hreported heq)⟩
    · exact .inl ⟨k, .inl hk, hremoved (by simp [hk]) (hreported heq)⟩
  · rintro (⟨k, hk | hk, heq⟩ | ⟨k, (hk | hk) | (hk | hk), heq⟩)
    · exact .inl ⟨k, hk, heq⟩
    · exact .inr (.inr (.inl (.inl (.inl ⟨k, hk, by rw [heq]⟩))))
    · exact .inr (.inl (.inl ⟨k, hk, hstays (by simp [hk]) heq⟩))
    · exact .inr (.inr (.inl (.inr ⟨k, hk, hstays (by simp [hk]) heq⟩)))
    · exact .inr (.inl (.inr ⟨k, hk, by rw [heq]⟩))
    · exact .inr (.inr (.inl (.inl (.inr ⟨k, hk, by rw [heq]⟩))))

/-! ### Headers -/

theorem joined_map (s : Server) {f : Bytes → Bytes} {hs : List Header}
    (hf : ∀ a ∈ hs, ∀ b ∈ hs, f a.1 = f b.1 → a.1 = b.1) :
    joined s (hs.map (Prod.map f id)) = (joined s hs).map (Prod.map f id) := by
  unfold joined
  split
  · exact groupWith_map f hf
  · rfl

theorem mem_keys_joined {s : Server} {hs : List Header} {name : Bytes} :
    name ∈ (joined s hs).map Prod.fst ↔ name ∈ hs.map Prod.fst := by
  unfold joined
  split
  · exact mem_keys_groupWith
  · rfl

/-- Two servers that join with the same joiner, or only one that joins. -/
theorem joined_comm (h : s1.joinsDuplicateHeaders = true → s2.joinsDuplicateHeaders = true →
    s1.duplicateHeaderJoiner = s2.duplicateHeaderJoiner) (hs : List Header) :
    joined s2 (joined s1 hs) = joined s1 (joined s2 hs) := by
  unfold joined
  cases h1 : s1.joinsDuplicateHeaders <;> cases h2 : s2.joinsDuplicateHeaders
  · rfl
  · rfl
  · rfl
  · simp only [if_true, h h1 h2, groupWith_of_nodup nodup_keys_groupWith]

/-- The headers that a server passes on and that are compared. -/
theorem passesOn_filter_kept (h : Comparable s1 s2 r) :
    (s1.passesOn r).filter (fun a => kept s1 s2 a.1) =
      (joined s1 ((visible r.headers).filter fun a => !(editedNames s1 s2).contains a.1)).map
        (Prod.map (translate · s1.headerNameTranslation) id) := by
  have hnames : ∀ a ∈ (visible r.headers).filter fun a => !(editedNames s1 s2).contains a.1,
      ∀ b ∈ (visible r.headers).filter fun a => !(editedNames s1 s2).contains a.1,
      translate a.1 s1.headerNameTranslation = translate b.1 s1.headerNameTranslation → a.1 = b.1 :=
    fun a ha b hb => h.unmixed1.names a (List.mem_filter.mp ha).1 b (List.mem_filter.mp hb).1
  rw [Server.passesOn, ← joined_filter s1 fun name => kept s1 s2 name, ← joined_map s1 hnames,
    List.filter_map, List.filter_filter, visible_eq, List.filter_filter]
  refine congrArg (joined s1) (congrArg (List.map _) (List.filter_congr fun a ha => ?_))
  by_cases hframing : a.1 ∈ framingHeaders
  · have hkept : kept s1 s2 (translate a.1 s1.headerNameTranslation) = false := by
      obtain ⟨a', -, rfl⟩ := List.mem_map.mp ha
      have hmem : lower (translate (lower a'.1) s1.headerNameTranslation) ∈ framingHeaders := by
        rw [lower_translate h.dash1, lower_lower]
        exact (mem_framingHeaders_translate h.dash1 _).mpr hframing
      rw [kept, lowerName, List.contains_iff_mem.mpr hmem, Bool.not_true, Bool.and_false]
    simp [hkept, hframing]
  · have ha' : a ∈ visible r.headers := by
      rw [visible_eq, List.mem_filter]
      exact ⟨ha, by simpa using hframing⟩
    have hiff := kept_translate_iff h ha'
    rw [Bool.eq_iff_iff]
    simp only [Function.comp_apply, Prod.map_fst, Bool.and_eq_true, Bool.not_eq_true',
      List.contains_eq_mem, decide_eq_false_iff_not, hframing, not_false_eq_true, and_true]
    rw [and_comm]
    exact hiff

theorem lower_passesOn (htr : IsDashTranslation s1.headerNameTranslation) {a : Header}
    (ha : a ∈ s1.passesOn r) : lower a.1 = a.1 := by
  obtain ⟨b, hb, hname⟩ := List.mem_map.mp
    (mem_keys_joined.mp (List.mem_map_of_mem (f := Prod.fst) ha))
  obtain ⟨c, hc, rfl⟩ := List.mem_map.mp hb
  obtain ⟨d, -, rfl⟩ := List.mem_map.mp (List.mem_filter.mp hc).1
  rw [← hname, Prod.map_fst, lower_translate htr, lowerName, lower_lower]

/-- The headers of a name that are compared are those that the server leaves alone. -/
theorem leavesAlone_of_kept {name : Bytes} (hlower : lower name = name)
    (h : kept s1 s2 name = true) : s1.LeavesAlone name := by
  rw [kept, hlower, Bool.and_eq_true, Bool.not_eq_true', Bool.not_eq_true', Bool.eq_false_iff,
    Bool.eq_false_iff, ne_eq, ne_eq, List.contains_iff_mem, List.contains_iff_mem] at h
  refine ⟨h.2, fun hmem => h.1 ?_⟩
  obtain ⟨k, hk, rfl⟩ := List.mem_map.mp hmem
  refine List.mem_map_of_mem ?_
  simp only [removedNames, List.mem_append] at hk ⊢
  tauto

/-- Headers are looked up by their names in lower case. -/
theorem valuesOf_of_not_lower {name : Bytes} (h : lower name ≠ name) (hs : List Header) :
    valuesOf name hs = [] := by
  rw [valuesOf, List.map_eq_nil_iff, List.filter_eq_nil_iff]
  intro a _ heq
  rw [← eq_of_beq heq, lower_lower] at h
  exact h rfl

/-- What a server has reported, as far as it is compared, is what it passes on, name by name. -/
theorem filter_reported (h : Comparable s1 s2 r) (h1 : s1.Accepts r r1) (name : Bytes) :
    ((r1.headers.filter fun a => kept s1 s2 a.1).map lowerName).filter (fun a => a.1 == name) =
      ((s1.passesOn r).filter fun a => kept s1 s2 a.1).filter fun a => a.1 == name := by
  have hpasses : (s1.passesOn r).map lowerName = s1.passesOn r :=
    (List.map_congr_left (f := lowerName) (g := id) fun a ha =>
      Prod.ext (lower_passesOn h.dash1 ha) rfl).trans
      (List.map_id _)
  have hvalues (hs : List Header) : ((hs.map lowerName).filter fun a => kept s1 s2 a.1).filter
      (fun a => a.1 == name) =
        if kept s1 s2 name then (valuesOf name hs).map (name, ·) else [] := by
    have hname : ((hs.map lowerName).filter fun a => kept s1 s2 a.1).filter (fun a => a.1 == name) =
        ((hs.map lowerName).filter fun a => a.1 == name).filter fun _ => kept s1 s2 name := by
      rw [List.filter_filter, List.filter_filter]
      refine List.filter_congr fun a _ => ?_
      by_cases heq : a.1 = name
      · rw [heq, Bool.and_comm]
      · rw [beq_false_of_ne heq, Bool.false_and, Bool.and_false]
    rw [hname, filter_map_lowerName]
    cases kept s1 s2 name <;> simp
  have hmap : (r1.headers.filter fun a => kept s1 s2 a.1).map lowerName =
      (r1.headers.map lowerName).filter fun a => kept s1 s2 a.1 := by
    rw [List.filter_map]
    exact congrArg (List.map lowerName) (List.filter_congr fun a _ => (kept_lower s1 s2 a.1).symm)
  rw [hmap, ← hpasses, hvalues, hvalues]
  by_cases hkept : kept s1 s2 name = true
  · by_cases hlower : lower name = name
    · rw [if_pos hkept, if_pos hkept, h1.values name (leavesAlone_of_kept hlower hkept)]
    · rw [valuesOf_of_not_lower hlower, valuesOf_of_not_lower hlower]
  · rw [if_neg hkept, if_neg hkept]

/-- **One side of the comparison**: what either of the servers passes on, as both would. -/
theorem normalForm_perm (h : Comparable s1 s2 r) (h1 : s1.Accepts r r1) :
    (normalForm r1 s1 s2).Perm
      ((joined s2 (joined s1 ((visible r.headers).filter fun a =>
        !(editedNames s1 s2).contains a.1))).map
          (Prod.map (fun name => translate (translate name s1.headerNameTranslation)
            s2.headerNameTranslation) id)) := by
  have hreported : (joined s2 ((r1.headers.filter fun a => kept s1 s2 a.1).map lowerName)).Perm
      (joined s2 ((s1.passesOn r).filter fun a => kept s1 s2 a.1)) := by
    unfold joined
    split
    · exact groupWith_perm (filter_reported h h1)
    · exact perm_of_filter_eq (filter_reported h h1)
  have hnames : ∀ a ∈ joined s1 ((visible r.headers).filter fun a =>
      !(editedNames s1 s2).contains a.1), ∃ b ∈ visible r.headers, b.1 = a.1 := by
    intro a ha
    obtain ⟨b, hb, hname⟩ := List.mem_map.mp
      (mem_keys_joined.mp (List.mem_map_of_mem (f := Prod.fst) ha))
    exact ⟨b, (List.mem_filter.mp hb).1, hname⟩
  refine (hreported.map _).trans (List.Perm.of_eq ?_)
  rw [passesOn_filter_kept h, joined_map, List.map_map]
  · rfl
  · intro a ha b hb heq
    obtain ⟨a', ha', hname⟩ := hnames a ha
    obtain ⟨b', hb', hname'⟩ := hnames b hb
    rw [← hname, ← hname'] at heq ⊢
    exact h.unmixed1.names a' ha' b' hb' heq

/-- **Two reports of one request** are equal after normalizing. -/
theorem normalized_eqv (h : Comparable s1 s2 r) (h1 : s1.Accepts r r1) (h2 : s2.Accepts r r2) :
    (normalizeRequest r1 s1 s2).eqv (normalizeRequest r2 s2 s1) = true := by
  refine (normalized_eqv_iff r1 r2 h.dash1 h.dash2).mpr ⟨?_, ?_⟩
  · refine ⟨h1.method.trans h2.method.symm, h1.uri.trans h2.uri.symm, h1.body.trans h2.body.symm, ?_⟩
    rcases h1.version with hv1 | hv1
    · rcases h2.version with hv2 | hv2
      · exact .inl (hv1.trans hv2.symm)
      · exact .inr (.inl hv2)
    · exact .inr (.inr hv1)
  · refine (normalForm_perm h h1).trans (List.Perm.trans (List.Perm.of_eq ?_)
      (normalForm_perm h.symm h2).symm)
    have hedited : (fun a : Header => !(editedNames s1 s2).contains a.1) =
        fun a => !(editedNames s2 s1).contains a.1 := by
      funext a
      rw [Bool.eq_iff_iff]
      simp only [editedNames, List.contains_eq_mem, List.mem_map, List.mem_append,
        Bool.not_eq_true', decide_eq_false_iff_not]
      exact not_congr (exists_congr fun k => and_congr_left fun _ => by tauto)
    rw [joined_comm h.joiner, hedited]
    simp only [translate_comm h.dash1 h.dash2]

/-! ### Refusals -/

theorem Answered.take {accepts : HTTPRequest → HTTPRequest → Prop}
    {refuses : HTTPRequest → HTTPResponse → Prop} {rs : List HTTPRequest} {pts : List Parsed}
    (h : Answered accepts refuses rs pts) : Answered accepts refuses (rs.take 1) (pts.take 1) := by
  cases h with
  | nil => exact .nil
  | accepted h hrest => exact .accepted h .nil
  | refused h => exact .refused h

/-- The report in which all quirks show. -/
def Server.report (s : Server) (r : HTTPRequest) : HTTPRequest :=
  { r with
    headers := ((s.passesOn r).filter fun h =>
        !((s.addedHeaders ++ s.trashedHeaders).map lower).contains (lower h.1)) ++
      s.addedHeaders.map fun k => (k, bytes "added") }

end HttpGarden
