import HttpGarden.Probe.Behaviour

/-!
# HttpGarden.Probe.Diagnosis

**What `diagnose_quirks` finds out.** The diagnosis of a server that shows its quirks comes to an end
without an exception, the server keeps to the quirks that are found, and these declare nothing that it
does not do.
-/

namespace HttpGarden

open Lib Http2

variable {ε : Type} {gunzip : Bytes → Except GzipError Bytes} {server : DiagnosedServer ε}
  {s : Server} {r r' : HTTPRequest} {text : Bytes}

namespace DiagnosedServer.Follows

/-! ### Before the diagnosis -/

theorem ensures_requiresSpecificHostHeader (h : server.Follows gunzip s) (hs : s.Probeable) :
    Ensures (HttpGarden.requiresSpecificHostHeader server) (· = false) := by
  refine (h.ensures_acceptsIt (bareProbe_ok isMethod_get host_mem_probeHeaders (.inl rfl))
    (requestHead_method _).symm (hs.accepts_get _ _)).bind fun b hb => ?_
  rw [hb]
  exact .pure rfl

/-- The server is diagnosed: it does not fail the check for which `main` gives up. -/
theorem ensures_failsSanityCheck (h : server.Follows gunzip s) (hs : s.Probeable) :
    Ensures (failsSanityCheck server) (· = false) := by
  have hmem : ∀ h ∈ [(bytes "Host", bytes "whatever")], h ∈ probeHeaders :=
    List.forall_mem_singleton.mpr (List.mem_append_left _ (by simp))
  have hhost : (bareProbe (bytes "GET") [(bytes "Host", bytes "whatever")] (bytes "1.1")).hasHeader
      (bytes "host") none = true := rfl
  refine (h.ensures_acceptsIt (bareProbe_ok isMethod_get hmem (.inl rfl)) (by decide)
    (hs.knows_get.not_refuses (by decide) hhost)).bind fun b hb => ?_
  rw [hb]
  exact .pure rfl

/-! ### Versions, hosts, lengths and connections -/

end DiagnosedServer.Follows

/-- A request of this method that has no body and names a host is accepted. -/
def Server.Admits (s : Server) (m : Bytes) : Prop :=
  s.Knows m ∧ (m = bytes "POST" → s.requiresLengthInPost = false)

namespace DiagnosedServer.Follows

end DiagnosedServer.Follows

/-! ### Headers -/

namespace DiagnosedServer.Follows

end DiagnosedServer.Follows

/-! ### The diagnosis -/

/-- The quirks that are found, next to those of the server. -/
structure Finds (s : Server) (q : Quirks) : Prop where
  allowsMissingHostHeader : q.allowsMissingHostHeader = s.allowsMissingHostHeader
  whitelist : q.methodWhitelist = none ↔ s.methodWhitelist = none
  whitelisted : ∀ list, q.methodWhitelist = some list → ∀ m, m ∈ list ↔ m ∈ methods ∧ s.Admits m
  characters : s.methodWhitelist = none →
    ∀ c, c ∈ q.methodCharacterBlacklist ↔ c ∈ s.methodCharacterBlacklist
  noCharacters : s.methodWhitelist ≠ none → q.methodCharacterBlacklist = []
  translation : q.headerNameTranslation = s.headerNameTranslation
  added : ∀ k ∈ s.addedHeaders, lower k ∉ framingHeaders → lower k ∈ q.addedHeaders.map lower
  noneAdded : ∀ k ∈ q.addedHeaders, lower k ∈ framingHeaders ∨ lower k ∈ s.addedHeaders.map lower
  removed : ∀ k ∈ q.removedHeaders, s.LeavesAlone (translate (lower k) s.headerNameTranslation) →
    lower k ∈ s.removedHeaders.map lower
  allRemoved : ∀ k ∈ s.removedHeaders, lower k ∈ removedNamesProbed →
    s.LeavesAlone (translate (lower k) s.headerNameTranslation) → lower k ∈ q.removedHeaders.map lower
  trashed : ∀ k, k ∈ q.trashedHeaders ↔ k = bytes "Host" ∧
    bytes "host" ∈ (s.trashedHeaders ++ s.removedHeaders).map lower
  length : q.requiresLengthInPost = true ↔
    s.requiresLengthInPost = true ∨ ¬ s.Knows (bytes "POST")
  persistence : q.doesntSupportPersistence = s.doesntSupportPersistence
  joins : q.joinsDuplicateHeaders = s.joinsDuplicateHeaders
  joiner : s.joinsDuplicateHeaders = true → q.duplicateHeaderJoiner = s.duplicateHeaderJoiner

namespace DiagnosedServer.Follows

end DiagnosedServer.Follows

/-! ### What the quirks declare -/

theorem Answered.mono {accepts accepts' : HTTPRequest → HTTPRequest → Prop}
    {refuses refuses' : HTTPRequest → HTTPResponse → Prop} (haccepts : ∀ r r', accepts r r' → accepts' r r')
    (hrefuses : ∀ r resp, refuses r resp → refuses' r resp) {rs : List HTTPRequest}
    {pts : List Parsed} (h : Answered accepts refuses rs pts) : Answered accepts' refuses' rs pts := by
  induction h with
  | nil => exact .nil
  | accepted h _ ih => exact .accepted (haccepts _ _ h) ih
  | refused h => exact .refused (hrefuses _ _ h)

namespace Finds

variable {q : Quirks}

/-- The whitelist that is found is not empty. -/
theorem whitelist_toServer (h : Finds s q) (hs : s.Probeable) :
    q.toServer.methodWhitelist = q.methodWhitelist := by
  cases hlist : q.methodWhitelist with
  | none => rw [Quirks.toServer, hlist]; rfl
  | some list =>
      have hget : bytes "GET" ∈ list :=
        (h.whitelisted list hlist _).mpr ⟨by decide, hs.knows_get, fun hpost => absurd hpost (by decide)⟩
      have hne : (!list.isEmpty) = true := by
        simpa using List.ne_nil_of_mem hget
      rw [Quirks.toServer, hlist, Option.filter_some, if_pos hne]

/-- A header that is declared to stay as it is does stay. -/
theorem leavesAlone (h : Finds s q) (hs : s.Probeable) {name : Bytes}
    (hname : q.toServer.LeavesAlone name) : s.LeavesAlone name := by
  obtain ⟨hframing, hnot⟩ := hname
  rw [List.map_append, List.mem_append, not_or] at hnot
  refine ⟨hframing, fun hmem => ?_⟩
  obtain ⟨k, hk, rfl⟩ := List.mem_map.mp hmem
  rcases List.mem_append.mp hk with hk | hk
  · exact hnot.1 (h.added k hk hframing)
  · have hhost := hs.trashed k hk
    have hmem : bytes "host" ∈ (s.trashedHeaders ++ s.removedHeaders).map lower := by
      rw [← hhost]
      exact List.mem_map_of_mem (List.mem_append_left _ hk)
    have hlower : lower (bytes "Host") = bytes "host" := by decide
    rw [hhost, ← hlower] at hnot
    exact hnot.2 (List.mem_map_of_mem ((h.trashed _).mpr ⟨rfl, hmem⟩))

/-- The same headers are declared to be removed, of those that stay as they are. -/
theorem removed_iff (h : Finds s q) (hs : s.Probeable) {name k : Bytes}
    (hname : q.toServer.LeavesAlone name) (hk : translate (lower k) s.headerNameTranslation = name) :
    lower k ∈ q.removedHeaders.map lower ↔ lower k ∈ s.removedHeaders.map lower := by
  have hleaves := h.leavesAlone hs hname
  constructor
  · intro hmem
    obtain ⟨k', hk', heq⟩ := List.mem_map.mp hmem
    rw [← heq] at hk ⊢
    exact h.removed k' hk' (by rw [hk]; exact hleaves)
  · intro hmem
    obtain ⟨k', hk', heq⟩ := List.mem_map.mp hmem
    rw [← heq] at hk ⊢
    rcases hs.removed k' hk' with hprobed | hhost | hframing
    · exact h.allRemoved k' hk' hprobed (by rw [hk]; exact hleaves)
    · -- a host that is removed is taken for one that is overwritten
      have hmem : bytes "host" ∈ (s.trashedHeaders ++ s.removedHeaders).map lower := by
        rw [← hhost]
        exact List.mem_map_of_mem (List.mem_append_right _ hk')
      have hlower : lower (bytes "Host") = bytes "host" := by decide
      refine absurd ?_ hname.2
      have htranslated : name = lower (bytes "Host") := by
        rw [← hk, hhost, hlower]
        exact translate_host hs.translation
      rw [htranslated]
      exact List.mem_map_of_mem (List.mem_append_right _ ((h.trashed _).mpr ⟨rfl, hmem⟩))
    · refine absurd ?_ hname.1
      rw [← hk]
      exact (mem_framingHeaders_translate hs.translation _).mpr hframing

theorem accepts (h : Finds s q) (hs : s.Probeable) {r r' : HTTPRequest} (hr : s.Exhibits r r') :
    q.toServer.Accepts r r' := by
  have htr : q.toServer.headerNameTranslation = s.headerNameTranslation := h.translation
  refine { hr.toAccepts with hostGiven := ?_, lengthGiven := ?_, values := ?_ }
  · have hallows : q.toServer.allowsMissingHostHeader = s.allowsMissingHostHeader :=
      h.allowsMissingHostHeader
    rw [hallows]
    exact hr.hostGiven
  · intro hrequires hpost
    rcases h.length.mp hrequires with hlength | hunknown
    · exact hr.lengthGiven hlength hpost
    · exact absurd (hpost ▸ hr.knows) hunknown
  · intro name hname
    have hjoined (values : List Bytes) : s.joinedValues values = q.toServer.joinedValues values := by
      have hjoins : q.toServer.joinsDuplicateHeaders = s.joinsDuplicateHeaders := h.joins
      unfold Server.joinedValues
      rw [hjoins]
      by_cases hs : s.joinsDuplicateHeaders = true
      · have hjoiner : q.toServer.duplicateHeaderJoiner = s.duplicateHeaderJoiner := h.joiner hs
        rw [hjoiner]
      · rw [Bool.not_eq_true] at hs
        rw [hs]
        rfl
    have hpassed : s.passedValues r name = q.toServer.passedValues r name := by
      unfold Server.passedValues
      rw [htr]
      refine congrArg (List.map _) (List.filter_congr fun header _ => ?_)
      by_cases hheader : translate (lower header.1) s.headerNameTranslation = name
      · have hiff := h.removed_iff hs hname hheader
        rw [Bool.eq_iff_iff]
        simp only [Bool.and_eq_true, Bool.not_eq_true', List.contains_eq_mem, decide_eq_false_iff_not]
        exact and_congr_right fun _ => not_congr hiff.symm
      · rw [beq_false_of_ne hheader, Bool.false_and, Bool.false_and]
    rw [hs.values hr (h.leavesAlone hs hname), valuesOf_passesOn (htr ▸ hs.translation), hpassed,
      hjoined]

theorem refuses (h : Finds s q) (hs : s.Probeable) {r : HTTPRequest} {resp : HTTPResponse}
    (hr : s.Refuses r resp) : q.toServer.Refuses r resp := by
  -- what the server does not know is not on the whitelist that is found
  have hunknown (hsome : s.methodWhitelist ≠ none) (hnot : ¬ s.Knows r.method) :
      q.toServer.Refuses r resp := by
    obtain ⟨list, hlist⟩ := Option.ne_none_iff_exists'.mp (mt h.whitelist.mp hsome)
    refine .method ((h.whitelist_toServer hs).trans hlist) fun hmem => hnot ?_
    exact ((h.whitelisted list hlist _).mp hmem).2.1
  cases hr with
  | host hnot hhost hcode => exact .host (h.allowsMissingHostHeader.trans hnot) hhost hcode
  | length hrequires hpost hlength hcode => exact .length (h.length.mpr (.inl hrequires)) hpost hlength hcode
  | method hmethods hmethod =>
      refine hunknown ?_ fun hknows => hmethod (hknows.1 _ hmethods)
      rw [hmethods]
      exact Option.some_ne_none _
  | character hc hmethod =>
      by_cases hnone : s.methodWhitelist = none
      · exact .character ((h.characters hnone _).mpr hc) hmethod
      · exact hunknown hnone fun hknows => hknows.2 _ hc hmethod

end Finds

end HttpGarden
