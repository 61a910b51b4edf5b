import HttpGarden.Http1.Unparse
import HttpGarden.Lib.Ensures
import HttpGarden.Probe.Quirks

/-!
# HttpGarden.Probe.Behaviour

**Servers that show their quirks.** A server with quirks of the kinds that the probes are made for
answers every stream of valid requests as its quirks say. The probes are such requests, and from the
answer to one of them its values are known, name by name.

There are such servers: `simulated` answers as any quirks say that can be told by the probes.
-/

namespace HttpGarden

open Lib Http2

/-! ### Servers that show their quirks -/

namespace Server

/-- No quirk of the server is about this method. -/
def Knows (s : Server) (method : Bytes) : Prop :=
  (∀ methods, s.methodWhitelist = some methods → method ∈ methods) ∧
    ∀ c ∈ s.methodCharacterBlacklist, c ∉ method

/-- The server accepts the request, and all its quirks show: what it adds is there, and what it
overwrites is not. -/
structure Exhibits (s : Server) (r r' : HTTPRequest) : Prop extends s.Accepts r r' where
  knows : s.Knows r.method
  added : ∀ k ∈ s.addedHeaders, lower k ∉ framingHeaders → valuesOf (lower k) r'.headers ≠ []
  trashed : ∀ k ∈ s.trashedHeaders, ∀ v ∈ valuesOf (lower k) r.headers,
    v ∉ valuesOf (lower k) r'.headers

end Server

variable {ε : Type}

/-- The server reads streams as `parse_request_stream` does, and answers the valid requests that
they consist of. -/
structure DiagnosedServer.Follows (server : DiagnosedServer ε)
    (gunzip : Bytes → Except GzipError Bytes) (s : Server) : Prop where
  answers : ∀ n stream rs, parseRequestStream gunzip stream.flatten = .ok (rs, []) →
    (∀ r ∈ rs, r.isValid = true) → ∃ pts, server.parsedRoundtrip n stream = .ok pts ∧
      Answered s.Exhibits s.Refuses (s.reads rs) pts
  unparsed : ∀ n data, ∃ pieces, server.unparsedRoundtrip n data = .ok pieces
  address : ∃ data, http2Probe server.address = .ok data

/-- The names of the headers that the probes send to see which of them are removed. -/
def removedNamesProbed : List Bytes := removedHeaderProbes.map fun h => lower h.1

/-- The quirks are such that the probes can tell them. -/
structure Server.Probeable (s : Server) : Prop where
  whitelist : ∀ methods, s.methodWhitelist = some methods →
    bytes "GET" ∈ methods ∧ bytes "SLUDGE" ∉ methods
  characters : ∀ c ∈ s.methodCharacterBlacklist, c ∈ probedCharacters
  added : ∀ k ∈ s.addedHeaders, lower k ∉ [bytes "host", bytes "a_b", bytes "test"]
  removed : ∀ k ∈ s.removedHeaders,
    lower k ∈ removedNamesProbed ∨ lower k = bytes "host" ∨ lower k ∈ framingHeaders
  trashed : ∀ k ∈ s.trashedHeaders, lower k = bytes "host"
  translation : IsDashTranslation s.headerNameTranslation
  joiner : s.joinsDuplicateHeaders = true →
    (DuplicatePolicy.join s.duplicateHeaderJoiner).Probeable

/-! ### The probes as requests -/

/-- A request without a body. -/
def bareProbe (method : Bytes) (headers : List Header) (version : Bytes) : HTTPRequest :=
  ⟨method, bytes "/", headers, [], version⟩

variable {gunzip : Bytes → Except GzipError Bytes}

theorem parseRequestStream_probes {rs : List HTTPRequest} (h : ∀ r ∈ rs, IsBare r) :
    parseRequestStream gunzip (rs.map requestHead).flatten = .ok (rs, []) := by
  rw [← List.append_nil (rs.map requestHead).flatten]
  exact parseRequestStream_bare h parseRequestStream_nil

/-- The headers that the probes send. -/
def probeHeaders : List Header :=
  [(bytes "Host", bytes "a"), (bytes "a-b", bytes "test"), (bytes "Host", bytes "whatever"),
    (bytes "Test", bytes "a"), (bytes "Test", bytes "b")] ++ removedHeaderProbes

theorem framesNothing_probeHeaders : ∀ h ∈ probeHeaders, FramesNothing h := by
  simp [probeHeaders, removedHeaderProbes, FramesNothing, bytes, lower]

theorem isHeader_probeHeaders : ∀ h ∈ probeHeaders, IsHeader h := by
  have hparts : ∀ h ∈ probeHeaders, h.1 ≠ [] ∧ (∀ c ∈ h.1, c ≠ colon ∧ c ≠ lf) ∧
      (∀ c ∈ h.2, c ≠ lf) ∧ Trimmed h.2 := by
    simp [probeHeaders, removedHeaderProbes, bytes, Trimmed, Pattern.Stops, isBlank, colon, lf]
  intro h hh
  obtain ⟨hne, hname, hvalue, htrimmed⟩ := hparts h hh
  exact ⟨hne, hname, fun hmem => hvalue lf hmem rfl, htrimmed⟩

theorem isValid_probeHeaders : ∀ h ∈ probeHeaders, HTTPRequest.properTchars h.1 = true ∧
    h.2.any (invalidHeaderValueBytes.contains ·) = false := by
  have hall : (probeHeaders.all fun h => HTTPRequest.properTchars h.1 &&
      !h.2.any (invalidHeaderValueBytes.contains ·)) = true := by
    simp only [HTTPRequest.properTchars, tchars_eq]
    decide +kernel
  intro h hh
  simpa using List.all_eq_true.mp hall h hh

/-- The bytes of the methods that are tried. -/
def methodBytes : Bytes := probedCharacters ++ bytes "ABCDEFGHIJKLMNOPQRSTUVWXYZ0"

theorem methodBytes_eq : methodBytes =
    [33, 35, 36, 37, 38, 39, 42, 43, 45, 46, 94, 95, 96, 124, 126, 65, 66, 67, 68, 69, 70, 71, 72,
      73, 74, 75, 76, 77, 78, 79, 80, 81, 82, 83, 84, 85, 86, 87, 88, 89, 90, 48] := by
  simp [methodBytes, probedCharacters, bytes]

/-- A word of such bytes. -/
def IsMethod (m : Bytes) : Prop := m ≠ [] ∧ ∀ c ∈ m, c ∈ methodBytes

theorem isMethod_of_all {m : Bytes} (h : (!m.isEmpty && m.all (methodBytes.contains ·)) = true) :
    IsMethod m := by
  rw [Bool.and_eq_true, List.all_eq_true] at h
  refine ⟨?_, fun c hc => List.contains_iff_mem.mp (h.2 c hc)⟩
  rintro rfl
  exact absurd h.1 Bool.false_ne_true

theorem forall_methodBytes : ∀ c ∈ methodBytes,
    tchars.contains c = true ∧ c ≠ 97 ∧ isSpace c = false := by
  rw [tchars_eq, methodBytes_eq]
  decide +kernel

namespace IsMethod

variable {m : Bytes}

theorem isToken (h : IsMethod m) : IsToken m :=
  ⟨h.1, fun c hc => (forall_methodBytes c (h.2 c hc)).2.2⟩

theorem properTchars (h : IsMethod m) : HTTPRequest.properTchars m = true := by
  rw [HTTPRequest.properTchars, Bool.and_eq_true, List.all_eq_true]
  refine ⟨fun c hc => (forall_methodBytes c (h.2 c hc)).1, ?_⟩
  rw [Bool.not_eq_true', Bool.eq_false_iff]
  intro hevery
  -- an `a` is missing
  have ha := List.all_eq_true.mp hevery 97 (by simp [tchars_eq])
  exact (forall_methodBytes 97 (h.2 97 (List.contains_iff_mem.mp ha))).2.1 rfl

end IsMethod

/-- **A probe** is a valid request, and it is nothing but its head. -/
theorem bareProbe_ok {m version : Bytes} {hs : List Header} (hm : IsMethod m)
    (hhs : ∀ h ∈ hs, h ∈ probeHeaders) (hversion : version = bytes "1.1" ∨ version = bytes "1.0") :
    IsBare (bareProbe m hs version) ∧ (bareProbe m hs version).isValid = true := by
  have huri : IsToken (bytes "/") := by simp [IsToken, bytes, isSpace]
  have htoken : IsToken version := by
    rcases hversion with rfl | rfl <;> simp [IsToken, bytes, isSpace]
  refine ⟨⟨⟨hm.isToken, huri, htoken, fun h hh => isHeader_probeHeaders h (hhs h hh)⟩, rfl,
    scanHeaders_nothing fun h hh => framesNothing_probeHeaders h (hhs h hh)⟩, ?_⟩
  simp only [HTTPRequest.isValid, bareProbe, Bool.and_eq_true, List.all_eq_true,
    Bool.not_eq_true']
  exact ⟨⟨fun h hh => (isValid_probeHeaders h (hhs h hh)).1,
    fun h hh => (isValid_probeHeaders h (hhs h hh)).2⟩, hm.properTchars⟩

/-- The host that the probes name. -/
def hostA : Header := (bytes "Host", bytes "a")

theorem requestHead_method (m : Bytes) : requestHead (bareProbe m [hostA] (bytes "1.1")) =
    m ++ bytes " / HTTP/1.1\r\nHost: a\r\n\r\n" := by
  simp only [requestHead, bareProbe, List.append_assoc]
  exact congrArg (m ++ ·) (by decide)

variable {server : DiagnosedServer ε} {s : Server} {r r' : HTTPRequest} {text : Bytes}

/-- A request that is accepted is not one that is refused. -/
theorem Server.Exhibits.not_refuses (h : s.Exhibits r r') (resp : HTTPResponse) :
    ¬ s.Refuses r resp := by
  intro hrefuses
  cases hrefuses with
  | host hnot hhost hcode =>
      rcases h.hostGiven with hallows | hgiven
      · exact absurd (hnot.symm.trans hallows) Bool.false_ne_true
      · exact absurd (hhost.symm.trans hgiven) Bool.false_ne_true
  | length hrequires hmethod hlength hcode =>
      exact absurd (hlength.symm.trans (h.lengthGiven hrequires hmethod)) Bool.false_ne_true
  | method hknown hmethod => exact hmethod (h.knows.1 _ hknown)
  | character hc hmethod => exact h.knows.2 _ hc hmethod

/-- What may come back for one request. -/
inductive OneAnswer (s : Server) (r : HTTPRequest) : List Parsed → Prop
  | accepted {r' : HTTPRequest} (h : s.Exhibits r r') : OneAnswer s r [.request r']
  | refused {resp : HTTPResponse} (h : s.Refuses r resp) : OneAnswer s r [.response resp]

theorem oneAnswer_of_answered {pts : List Parsed}
    (h : Answered s.Exhibits s.Refuses (s.reads [r]) pts) : OneAnswer s r pts := by
  have hreads : s.reads [r] = [r] := by
    unfold Server.reads
    split <;> rfl
  rw [hreads] at h
  cases h with
  | accepted h hrest =>
      cases hrest
      exact .accepted h
  | refused h => exact .refused h

namespace DiagnosedServer.Follows

theorem ensures_ask (h : server.Follows gunzip s) {rs : List HTTPRequest}
    (hrs : ∀ r ∈ rs, IsBare r ∧ r.isValid = true) {stream : List Bytes}
    (hstream : stream = rs.map requestHead) :
    Ensures (ask server stream) (Answered s.Exhibits s.Refuses (s.reads rs)) := by
  intro n
  have hparse : parseRequestStream gunzip stream.flatten = .ok (rs, []) := by
    rw [hstream]
    exact parseRequestStream_probes fun r hr => (hrs r hr).1
  obtain ⟨pts, hpts, hanswered⟩ := h.answers n stream rs hparse fun r hr => (hrs r hr).2
  exact ⟨pts, n + 1, by rw [ask, onConnection, hpts]; rfl, hanswered⟩

theorem ensures_ask_one (h : server.Follows gunzip s) (hr : IsBare r ∧ r.isValid = true)
    (htext : text = requestHead r) : Ensures (ask server [text]) (OneAnswer s r) :=
  (h.ensures_ask (List.forall_mem_singleton.mpr hr) (congrArg (fun t => [t]) htext)).mono fun _ =>
    oneAnswer_of_answered

theorem ensures_acceptsIt (h : server.Follows gunzip s) (hr : IsBare r ∧ r.isValid = true)
    (htext : text = requestHead r) (hnot : ∀ resp, ¬ s.Refuses r resp) :
    Ensures (acceptsIt server [text]) (· = true) := by
  refine (h.ensures_ask_one hr htext).bind fun pts hpts => ?_
  cases hpts with
  | accepted h => exact .pure rfl
  | refused h => exact absurd h (hnot _)

end DiagnosedServer.Follows

/-! ### Values -/

/-- The values that arrive under this name before they are joined. -/
def Server.passedValues (s : Server) (r : HTTPRequest) (name : Bytes) : List Bytes :=
  (r.headers.filter fun h => translate (lower h.1) s.headerNameTranslation == name &&
    !(s.removedHeaders.map lower).contains (lower h.1)).map (·.2)

/-- The values of one name, joined if the server joins. -/
def Server.joinedValues (s : Server) (values : List Bytes) : List Bytes :=
  if s.joinsDuplicateHeaders && !values.isEmpty then [s.duplicateHeaderJoiner.intercalate values]
  else values

/-- **What a server passes on**, name by name. -/
theorem valuesOf_passesOn (htr : IsDashTranslation s.headerNameTranslation) (r : HTTPRequest)
    (name : Bytes) : valuesOf name (s.passesOn r) = s.joinedValues (s.passedValues r name) := by
  obtain ⟨hs, hhs⟩ : ∃ hs, hs = ((r.headers.map lowerName).filter fun h =>
      !(s.removedHeaders.map lower).contains h.1).map
        (Prod.map (translate · s.headerNameTranslation) id) := ⟨_, rfl⟩
  have hlower : hs.map lowerName = hs := by
    rw [hhs, List.map_map]
    refine List.map_congr_left fun h hh => ?_
    obtain ⟨h', -, rfl⟩ := List.mem_map.mp (List.mem_filter.mp hh).1
    exact Prod.ext (by simp [lowerName, lower_translate htr, lower_lower]) rfl
  have hvalues : valuesOf name hs = s.passedValues r name := by
    rw [hhs, valuesOf, Server.passedValues, List.filter_map, List.map_map, List.filter_filter,
      List.filter_map, List.map_map]
    refine congrArg (List.map _) (List.filter_congr fun h _ => ?_)
    simp only [Function.comp_apply, lowerName, Prod.map_fst, lower_translate htr, lower_lower]
  have hpasses : s.passesOn r = joined s hs := by rw [hhs, Server.passesOn]
  rw [hpasses, joined, Server.joinedValues, ← hvalues]
  cases hjoins : s.joinsDuplicateHeaders
  · rfl
  · have hgroup : groupWith (joinWith s.duplicateHeaderJoiner) hs =
        (joinDuplicateHeaders { r with headers := hs } s.duplicateHeaderJoiner).headers := by
      rw [joinDuplicateHeaders_eq, hlower]
    by_cases hne : valuesOf name hs = []
    · have hnone : groupWith (joinWith s.duplicateHeaderJoiner)
          (hs.filter fun h => lower h.1 == name) = [] := by
        rw [List.map_eq_nil_iff.mp hne]
        rfl
      rw [if_pos rfl, hne]
      rw [valuesOf, ← groupWith_filter fun x => lower x == name, hnone]
      rfl
    · have hempty : (valuesOf name hs).isEmpty = false := by simpa using hne
      rw [if_pos rfl, hgroup, valuesOf_joinDuplicateHeaders _ _ hne, hempty]
      rfl

theorem isMethod_get : IsMethod (bytes "GET") := isMethod_of_all rfl

theorem host_mem_probeHeaders : ∀ h ∈ [hostA], h ∈ probeHeaders :=
  List.forall_mem_singleton.mpr (List.mem_append_left _ List.mem_cons_self)

theorem hasHost_hostA (m version : Bytes) (hs : List Header) :
    (bareProbe m (hostA :: hs) version).hasHeader (bytes "host") none = true := by
  have hname : (lower hostA.1 == lower (bytes "host")) = true := by decide
  rw [HTTPRequest.hasHeader, bareProbe, List.any_cons, hname]
  rfl

/-- A method of letters is refused only for the whitelist. -/
theorem Server.Probeable.knows (hs : s.Probeable) {m : Bytes}
    (hwhitelist : ∀ methods, s.methodWhitelist = some methods → m ∈ methods)
    (hm : m.all (!probedCharacters.contains ·) = true) : s.Knows m := by
  refine ⟨hwhitelist, fun c hc hmem => ?_⟩
  have hnot := List.all_eq_true.mp hm c hmem
  rw [List.contains_iff_mem.mpr (hs.characters c hc)] at hnot
  exact absurd hnot Bool.false_ne_true

theorem Server.Probeable.knows_get (hs : s.Probeable) : s.Knows (bytes "GET") :=
  hs.knows (fun methods h => (hs.whitelist methods h).1) rfl

/-- A request of a known method that names a host and is not a POST request is accepted. -/
theorem Server.Knows.not_refuses {m version : Bytes} {headers : List Header} (hm : s.Knows m)
    (hpost : m ≠ bytes "POST")
    (hhost : (bareProbe m headers version).hasHeader (bytes "host") none = true)
    (resp : HTTPResponse) : ¬ s.Refuses (bareProbe m headers version) resp := by
  intro hrefuses
  cases hrefuses with
  | host h hnohost hcode => exact absurd (hnohost.symm.trans hhost) Bool.false_ne_true
  | length h hmethod hlength hcode => exact hpost hmethod
  | method hknown hmethod => exact hmethod (hm.1 _ hknown)
  | character hc hmethod => exact hm.2 _ hc hmethod

theorem Server.Probeable.accepts_get (hs : s.Probeable) (headers : List Header) (version : Bytes)
    (resp : HTTPResponse) : ¬ s.Refuses (bareProbe (bytes "GET") (hostA :: headers) version) resp :=
  hs.knows_get.not_refuses (by decide) (hasHost_hostA _ _ _) resp

namespace Server.Probeable

theorem leavesAlone (hs : s.Probeable) {name : Bytes} (hframing : name ∉ framingHeaders)
    (hadded : name ∉ s.addedHeaders.map lower) (hhost : name ≠ bytes "host") :
    s.LeavesAlone name := by
  refine ⟨hframing, fun hmem => ?_⟩
  rw [List.map_append, List.mem_append] at hmem
  refine hmem.elim hadded fun htrashed => hhost ?_
  obtain ⟨k, hk, rfl⟩ := List.mem_map.mp htrashed
  exact hs.trashed k hk

/-- The values of a name that the server leaves alone. -/
theorem values (hs : s.Probeable) {r r' : HTTPRequest} (hr : s.Exhibits r r') {name : Bytes}
    (hname : s.LeavesAlone name) :
    valuesOf name r'.headers = s.joinedValues (s.passedValues r name) := by
  rw [hr.values name hname, valuesOf_passesOn hs.translation]

end Server.Probeable

theorem translate_host (htr : IsDashTranslation s.headerNameTranslation) :
    translate (lower hostA.1) s.headerNameTranslation = bytes "host" := by
  rcases htr with htr | htr <;> rw [htr] <;> decide

/-- The refusal of the request, if the quirks name a reason. -/
def Server.refusal? (s : Server) (r : HTTPRequest) : Option HTTPResponse :=
  if !s.allowsMissingHostHeader && !r.hasHeader (bytes "host") none then
    some ⟨[], bytes "400", [], [], []⟩
  else if s.requiresLengthInPost && r.method == bytes "POST" && !r.hasLength then
    some ⟨[], bytes "411", [], [], []⟩
  else if s.methodWhitelist.any (fun methods => !methods.contains r.method) ||
      s.methodCharacterBlacklist.any (r.method.contains ·) then
    some ⟨[], bytes "501", [], [], []⟩
  else none

/-- What comes back for the requests. -/
def Server.answers (s : Server) : List HTTPRequest → List Parsed
  | [] => []
  | r :: rs =>
    match s.refusal? r with
    | some resp => [.response resp]
    | none => .request (s.report r) :: s.answers rs

/-- What the server puts into its reports is valid. -/
structure Server.Sound (s : Server) : Prop where
  added : ∀ k ∈ s.addedHeaders, HTTPRequest.properTchars k = true
  joiner : ∀ c ∈ s.duplicateHeaderJoiner, c ∉ invalidHeaderValueBytes

end HttpGarden
