import HttpGarden.Digits
import HttpGarden.Http1.Lines
import HttpGarden.Http1.Stream

/-!
# HttpGarden.Http1.Unparse

`mutations.py`: **`_unparse_request`**, and what the parsers make of its output.

What the random choices of `_randomly_chunk` come out as is the parameter `draws`.

* `parseRequestStream_unparse`: requests without framing headers of their own come back
  from a stream exactly as they were parsed.
-/

namespace HttpGarden

open Lib Pattern

/-! ### Writing requests -/

/-- What the calls of `random` in `_randomly_chunk` return: the sorted sample of cuts,
the choice of an extension for each chunk, and that of the trailer. -/
structure ChunkDraws where
  cuts : List Nat
  extension : Nat → Bool
  trailer : Bool

/-- What the calls can return: a sorted sample without repetition of `range(1, len(data))`. -/
def ChunkDraws.ValidFor (draws : ChunkDraws) (data : Bytes) : Prop :=
  draws.cuts.Pairwise (· < ·) ∧ ∀ cut ∈ draws.cuts, 1 ≤ cut ∧ cut < data.length

/-- `[data[start:end] for start, end in itertools.pairwise([start, *cuts, len(data)])]`,
with the data from `start` on. -/
def cutAt (start : Nat) : List Nat → Bytes → List Bytes
  | [], data => [data]
  | cut :: cuts, data => data.take (cut - start) :: cutAt cut cuts (data.drop (cut - start))

/-- One chunk, with or without an extension. -/
def chunkBytes (extension : Bool) (chunk : Bytes) : Bytes :=
  digitBytes 16 chunk.length ++ (if extension then bytes ";abc=123" else []) ++ crlf ++ chunk ++ crlf

/-- `_randomly_chunk` -/
def randomlyChunk (draws : ChunkDraws) (data : Bytes) : Bytes :=
  if data.length = 0 then bytes "0\r\n\r\n"
  else
    let chunks := cutAt 0 draws.cuts data
    (chunks.zipIdx.flatMap fun c => chunkBytes (draws.extension c.2) c.1) ++ bytes "0\r\n" ++
      (if draws.trailer then bytes "Trailer-Is: This\r\n" else []) ++ crlf

/-- One line of the headers. -/
def unparseHeader (h : Header) : Bytes := h.1 ++ bytes ": " ++ h.2 ++ crlf

/-- `_unparse_request` -/
def unparseRequest (draws : ChunkDraws) (request : HTTPRequest) : Bytes :=
  let isChunked := request.headers.any fun p => lower p.1 == bytes "transfer-encoding"
  request.method ++ bytes " " ++ request.uri ++ bytes " " ++ bytes "HTTP/" ++ request.version ++
    crlf ++ request.headers.flatMap unparseHeader ++ crlf ++
    (if isChunked then randomlyChunk draws request.body else request.body)

/-! ### The head of a request -/

theorem bytes_space : bytes " " = [32] := by decide

theorem bytes_colonSpace : bytes ": " = [colon, 32] := by decide

/-- A request line is matched greedily. -/
theorem requestLine_first {method uri version : Bytes}
    (hm : method ≠ [] ∧ ∀ c ∈ method, isSpace c = false)
    (hu : uri ≠ [] ∧ ∀ c ∈ uri, isSpace c = false)
    (hv : version ≠ [] ∧ ∀ c ∈ version, isSpace c = false) (s : Bytes) :
    requestLine.first (method ++ (bytes " " ++ (uri ++ (bytes " " ++ (bytes "HTTP/" ++
      (version ++ (crlf ++ s))))))) = some ((method, uri, some version), s) := by
  have hrun (w : Bytes) (hw : w ≠ [] ∧ ∀ c ∈ w, isSpace c = false) (c : UInt8) (t : Bytes)
      (hc : isSpace c = true) : (many1 (!isSpace ·)).first (w ++ (c :: t)) = some (w, c :: t) :=
    first_many1 hw.1 (fun d hd => by simp [hw.2 d hd]) (stops_cons.mpr (by simp [hc]))
  have hblank (w t : Bytes) (hw : w ≠ [] ∧ ∀ c ∈ w, isSpace c = false) :
      (many1 isSpace).first ([32] ++ (w ++ t)) = some ([32], w ++ t) := by
    refine first_many1 (List.cons_ne_nil _ _) (by simp [isSpace]) ?_
    obtain ⟨c, w, rfl⟩ := List.exists_cons_of_ne_nil hw.1
    exact stops_cons.mpr (hw.2 c List.mem_cons_self)
  have hhttp : bytes "HTTP/" ≠ [] ∧ ∀ c ∈ bytes "HTTP/", isSpace c = false := by
    decide +kernel
  have hversion : (opt do
      word (bytes "HTTP/")
      many1 (!isSpace ·)).first (bytes "HTTP/" ++ (version ++ (crlf ++ s))) =
        some (some version, crlf ++ s) :=
    first_opt_some (first_bind (first_word _ _) (hrun version hv cr (lf :: s) (by decide)))
  rw [bytes_space]
  refine first_bind (hrun method hm 32 _ (by decide)) ?_
  refine first_bind (hblank uri _ hu) ?_
  refine first_bind (hrun uri hu 32 _ (by decide)) ?_
  refine first_bind (hblank (bytes "HTTP/") _ hhttp) ?_
  exact first_bind hversion (first_bind (newline_first_crlf s) rfl)

/-- The line that is written for a header. -/
def headerText (h : Header) : Bytes := h.1 ++ bytes ": " ++ h.2

theorem isLine_headerText {h : Header} (hh : IsHeader h) :
    IsLine (headerText h) ∧ headerText h ≠ [] := by
  have hname : IsLine h.1 := fun hlf => (hh.name lf hlf).2 rfl
  have hsep : IsLine [colon, 32] := by simp [IsLine, colon, lf]
  rw [headerText, bytes_colonSpace]
  refine ⟨isLine_append.mpr ⟨isLine_append.mpr ⟨hname, hsep⟩, hh.value⟩, ?_⟩
  simp [hh.name_ne_nil]

theorem headerLine_first_headerText {h : Header} (hh : IsHeader h) :
    headerLine.first (headerText h) = some (h, []) := by
  have htext : headerText h = h.1 ++ (colon :: ([32] ++ (h.2 ++ []))) := by
    rw [headerText, bytes_colonSpace, List.append_nil, List.append_assoc]
    rfl
  have hstop : Stops isBlank (h.2 ++ []) := by
    rw [List.append_nil]
    exact hh.trimmed.1
  rw [htext]
  exact headerLine_first hh (by simp [isBlank]) (by simp) hstop

theorem flatMap_unparseHeader (hs : List Header) :
    hs.flatMap unparseHeader = writeLines (hs.map fun h => (headerText h, crlf)) := by
  rw [writeLines, List.flatMap_map]
  rfl

/-- **Headers are read back** from the lines that are written for them. -/
theorem parseHeaders_unparse {hs : List Header} (h : ∀ h ∈ hs, IsHeader h) (s : Bytes) :
    parseHeaders (hs.flatMap unparseHeader ++ (crlf ++ s)) = .ok (hs, s) := by
  cases hs with
  | nil =>
      show parseHeaders ([cr, lf] ++ s) = .ok ([], s)
      rw [parseHeaders, if_pos (List.prefix_append _ s)]
      rfl
  | cons k hs =>
      have hlines : ∀ l ∈ (k :: hs).map fun h => (headerText h, crlf),
          EndsLine l.1 l.2 ∧ l.1 ≠ [] := by
        intro l hl
        obtain ⟨k', hk', rfl⟩ := List.mem_map.mp hl
        obtain ⟨hline, hne⟩ := isLine_headerText (h k' hk')
        exact ⟨endsLine_crlf hline, hne⟩
      have hread : parseHeaderLines ((k :: hs).map headerText) = .ok ((k :: hs).map id) :=
        parseHeaderLines_map fun k' hk' => headerLine_first_headerText (h k' hk')
      have hne : ((k :: hs).map fun h => (headerText h, crlf)) ≠ [] := List.cons_ne_nil _ _
      rw [flatMap_unparseHeader, parseHeaders_writeLines hne hlines (.inl rfl), List.map_map]
      show (parseHeaderLines ((k :: hs).map headerText)).map _ = _
      rw [hread, List.map_id]
      rfl

theorem isHeader_of_parseHeaderLines {ls : List Bytes} {hs : List Header}
    (h : parseHeaderLines ls = .ok hs) : ∀ h ∈ hs, IsHeader h := by
  induction ls generalizing hs with
  | nil =>
      cases h
      exact fun h hh => absurd hh List.not_mem_nil
  | cons l ls ih =>
      rw [parseHeaderLines] at h
      cases hf : headerLine.first l with
      | none =>
          rw [hf] at h
          cases h
      | some m =>
          rw [hf] at h
          obtain ⟨hs', hhs', hpair⟩ := bind_eq_ok.mp h
          cases hpair
          exact List.forall_mem_cons.mpr ⟨isHeader_of_first hf, ih hhs'⟩

theorem isHeader_of_parseHeaders {raw rest : Bytes} {hs : List Header}
    (h : parseHeaders raw = .ok (hs, rest)) : ∀ h ∈ hs, IsHeader h := by
  unfold parseHeaders at h
  by_cases hpre : [cr, lf] <+: raw
  · rw [if_pos hpre] at h
    cases h
    exact fun h hh => absurd hh List.not_mem_nil
  · rw [if_neg hpre] at h
    cases hs : headerTerminator.search raw with
    | none =>
        rw [hs] at h
        cases h
    | some m =>
        rw [hs] at h
        obtain ⟨hs', hhs', hpair⟩ := bind_eq_ok.mp h
        cases hpair
        exact isHeader_of_parseHeaderLines hhs'

/-! ### Requests -/

/-- A text without white space, which is not empty. -/
def IsToken (w : Bytes) : Prop := w ≠ [] ∧ ∀ c ∈ w, isSpace c = false

/-- What the request line and the headers of a parsed request are like. -/
structure IsHead (r : HTTPRequest) : Prop where
  method : IsToken r.method
  uri : IsToken r.uri
  version : IsToken r.version
  headers : ∀ h ∈ r.headers, IsHeader h

variable {gunzip : Bytes → Except GzipError Bytes}

theorem isHead_of_parseRequest {raw rest : Bytes} {r : HTTPRequest}
    (h : parseRequest gunzip raw = .ok (r, rest)) : IsHead r := by
  obtain ⟨version, rest₁, rest₂, hline, hversion, hheaders, -⟩ := parseRequest_eq_ok.mp h
  obtain ⟨hmethod, huri, hv, -⟩ := matches_requestLine (matches_of_first hline)
  refine ⟨hmethod, huri, ?_, isHeader_of_parseHeaders hheaders⟩
  rw [hversion]
  cases version with
  | none =>
      have : bytes "0.9" ≠ [] ∧ ∀ c ∈ bytes "0.9", isSpace c = false := by decide +kernel
      exact this
  | some v => exact hv v rfl

/-- Everything before the body. -/
def requestHead (r : HTTPRequest) : Bytes :=
  r.method ++ bytes " " ++ r.uri ++ bytes " " ++ bytes "HTTP/" ++ r.version ++ crlf ++
    r.headers.flatMap unparseHeader ++ crlf

/-- **The head is read back**, and the body is read from what follows it. -/
theorem parseRequest_requestHead {r : HTTPRequest} (hr : IsHead r) (s : Bytes) :
    parseRequest gunzip (requestHead r ++ s) =
      (parseBody gunzip r.headers s false).map fun t => ({ r with body := t.1 }, t.2) := by
  have hline : requestLine.first (requestHead r ++ s) =
      some ((r.method, r.uri, some r.version), r.headers.flatMap unparseHeader ++ (crlf ++ s)) := by
    rw [requestHead]
    simp only [List.append_assoc]
    exact requestLine_first hr.method hr.uri hr.version _
  unfold parseRequest
  rw [hline]
  simp only [parseHeaders_unparse hr.headers, ok_bind, Option.getD_some]
  cases parseBody gunzip r.headers s false <;> rfl

/-! ### Requests without framing headers -/

/-- The request has no header of that name. -/
def Lacks (name : Bytes) (r : HTTPRequest) : Prop := ∀ h ∈ r.headers, lower h.1 ≠ name

theorem framingValues_of_lacks {name : Bytes} {r : HTTPRequest} (h : Lacks name r) :
    framingValues name r.headers = [] := by
  rw [framingValues, List.map_eq_nil_iff, List.filter_eq_nil_iff]
  intro k hk
  simpa using h k hk

/-- Without framing headers the body is what the length says, or empty. -/
theorem readBody_plain {f : Framing} (hte : f.teValues = []) (hce : f.ceValues = []) (s : Bytes) :
    readBody gunzip f s false = .ok (s.take (f.cl.getD 0), s.drop (f.cl.getD 0)) := by
  have hchunked : f.chunked = false := by rw [Framing.chunked, hte]; rfl
  have hgzipped : f.gzipped = false := by rw [Framing.gzipped, hce]; rfl
  unfold readBody
  rw [hchunked, hgzipped]
  cases f.cl <;> rfl

theorem unparseRequest_of_lacks {draws : ChunkDraws} {r : HTTPRequest}
    (h : Lacks (bytes "transfer-encoding") r) : unparseRequest draws r = requestHead r ++ r.body := by
  have hany : (r.headers.any fun p => lower p.1 == bytes "transfer-encoding") = false := by
    rw [List.any_eq_false]
    intro p hp
    simpa using h p hp
  rw [unparseRequest, hany]
  rfl

/-- One request comes back, whatever follows it, unless its body ended with the
input. -/
theorem parseRequest_unparse {draws : ChunkDraws} {raw rest t : Bytes} {r : HTTPRequest}
    (h : parseRequest gunzip raw = .ok (r, rest)) (hte : Lacks (bytes "transfer-encoding") r)
    (hce : Lacks (bytes "content-encoding") r) (ht : rest = [] → t = []) :
    parseRequest gunzip (unparseRequest draws r ++ t) = .ok (r, t) := by
  obtain ⟨-, -, rest₂, -, -, -, hbody⟩ := parseRequest_eq_ok.mp h
  obtain ⟨f, hf, hread⟩ := bind_eq_ok.mp hbody
  obtain ⟨hfte, hfce⟩ := scanHeaders_values hf
  rw [framingValues_of_lacks hte] at hfte
  rw [framingValues_of_lacks hce] at hfce
  rw [readBody_plain hfte hfce, Except.ok.injEq, Prod.mk.injEq] at hread
  obtain ⟨hbody, hrest⟩ := hread
  -- either the body has the announced length, or nothing may follow
  have hsplit : (r.body ++ t).take (f.cl.getD 0) = r.body ∧
      (r.body ++ t).drop (f.cl.getD 0) = t := by
    by_cases hnil : rest = []
    · rw [ht hnil, List.append_nil, ← hbody]
      exact ⟨List.take_take .. |>.trans (by rw [min_self]), List.drop_eq_nil_of_le (by simp)⟩
    · have hlt : f.cl.getD 0 < rest₂.length := by
        rw [← hrest] at hnil
        simpa using hnil
      have hlen : r.body.length = f.cl.getD 0 := by
        rw [← hbody, List.length_take, Nat.min_eq_left hlt.le]
      exact ⟨List.take_left' hlen, List.drop_left' hlen⟩
  rw [unparseRequest_of_lacks hte, List.append_assoc,
    parseRequest_requestHead (isHead_of_parseRequest h), parseBody, hf, ok_bind,
    readBody_plain hfte hfce, hsplit.1, hsplit.2]
  rfl

/-! ### Requests without a body -/

/-- The head of the request is all there is. -/
structure IsBare (r : HTTPRequest) : Prop where
  isHead : IsHead r
  body : r.body = []
  framing : ∃ f, scanHeaders r.headers = .ok f ∧ f.teValues = [] ∧ f.ceValues = [] ∧ f.cl.getD 0 = 0

theorem parseRequest_bare {r : HTTPRequest} (h : IsBare r) (s : Bytes) :
    parseRequest gunzip (requestHead r ++ s) = .ok (r, s) := by
  obtain ⟨f, hf, hte, hce, hcl⟩ := h.framing
  rw [parseRequest_requestHead h.isHead, parseBody, hf, ok_bind, readBody_plain hte hce, hcl,
    List.take_zero, List.drop_zero]
  show Except.ok ({ r with body := [] }, s) = _
  rw [← h.body]

/-- Such requests, and behind them what is not a request. -/
theorem parseRequestStream_bare {rs : List HTTPRequest} (h : ∀ r ∈ rs, IsBare r) {rest : Bytes}
    (hrest : parseRequestStream gunzip rest = .ok ([], rest)) :
    parseRequestStream gunzip ((rs.map requestHead).flatten ++ rest) = .ok (rs, rest) := by
  rw [parseRequestStream_eq_ok] at hrest ⊢
  induction rs with
  | nil => exact hrest
  | cons r rs ih =>
      obtain ⟨hr, hrs⟩ := List.forall_mem_cons.mp h
      rw [List.map_cons, List.flatten_cons, List.append_assoc]
      exact .more (parseRequest_bare hr _) (ih hrs)

/-- The header does not say that there is a body. -/
def FramesNothing (h : Header) : Prop :=
  lower h.1 ≠ bytes "transfer-encoding" ∧ lower h.1 ≠ bytes "content-encoding" ∧
    (lower h.1 = bytes "content-length" → h.2 = bytes "0")

theorem scanHeaders_nothing {hs : List Header} (h : ∀ h ∈ hs, FramesNothing h) :
    ∃ f, scanHeaders hs = .ok f ∧ f.teValues = [] ∧ f.ceValues = [] ∧ f.cl.getD 0 = 0 := by
  have hrest : ∀ g : Framing, g.teValues = [] ∧ g.ceValues = [] ∧ g.cl.getD 0 = 0 →
      ∃ f, hs.foldlM scanHeader g = .ok f ∧ f.teValues = [] ∧ f.ceValues = [] ∧
        f.cl.getD 0 = 0 := by
    induction hs with
    | nil => exact fun g hg => ⟨g, rfl, hg⟩
    | cons k hs ih =>
        intro g hg
        obtain ⟨hk, hhs⟩ := List.forall_mem_cons.mp h
        obtain ⟨hte, hce, hcl⟩ := hk
        have hlength : ∃ cl, scanLength g.cl k = .ok cl ∧ cl.getD 0 = 0 := by
          unfold scanLength
          by_cases hname : lower k.1 = bytes "content-length"
          · rw [if_pos hname, hcl hname]
            exact ⟨some 0, rfl, rfl⟩
          · rw [if_neg hname]
            exact ⟨g.cl, rfl, hg.2.2⟩
        obtain ⟨cl, hscan, hzero⟩ := hlength
        rw [List.foldlM_cons, scanHeader_eq, hscan]
        refine ih hhs _ ⟨?_, ?_, hzero⟩
        · show g.teValues ++ framingValues _ [k] = []
          rw [hg.1, framingValues_cons, if_neg hte]
          rfl
        · show g.ceValues ++ framingValues _ [k] = []
          rw [hg.2.1, framingValues_cons, if_neg hce]
          rfl
  exact hrest _ ⟨rfl, rfl, rfl⟩

/-! ### Streams -/

/-- One of the outcomes of `_unparse_request`. -/
def Unparses (r : HTTPRequest) (w : Bytes) : Prop :=
  ∃ draws : ChunkDraws, draws.ValidFor r.body ∧ unparseRequest draws r = w

/-- **Re-serialising a stream is lossless** for requests without framing headers of their
own: the same requests are parsed from what is written for them, and the same rest. -/
theorem parseRequestStream_unparse {payload rest : Bytes} {rs : List HTTPRequest}
    {ws : List Bytes} (h : parseRequestStream gunzip payload = .ok (rs, rest))
    (hte : ∀ r ∈ rs, ∀ h ∈ r.headers, lower h.1 ≠ bytes "transfer-encoding")
    (hce : ∀ r ∈ rs, ∀ h ∈ r.headers, lower h.1 ≠ bytes "content-encoding")
    (hws : List.Forall₂ Unparses rs ws) :
    parseRequestStream gunzip (ws.flatten ++ rest) = .ok (rs, rest) := by
  have hstream := parseRequestStream_eq_ok.mp h
  rw [parseRequestStream_eq_ok]
  clear h
  induction hstream generalizing ws with
  | done =>
      cases hws
      exact .done
  | stop hs h he =>
      cases hws
      exact .stop hs h he
  | more h hs ih =>
      obtain ⟨hte, htes⟩ := List.forall_mem_cons.mp hte
      obtain ⟨hce, hces⟩ := List.forall_mem_cons.mp hce
      cases hws with
      | cons hw hws =>
          obtain ⟨draws, -, rfl⟩ := hw
          rw [List.flatten_cons, List.append_assoc]
          refine .more (parseRequest_unparse h hte hce ?_) (ih htes hces hws)
          -- if nothing was left, there were no further requests and there is no rest
          rintro rfl
          cases hs with
          | done =>
              cases hws
              rfl
          | stop hne => exact absurd rfl hne
          | more h _ => exact absurd rfl (ne_nil_of_parseRequest h)

/-- A request of version 0.9 whose body is shorter than announced. -/
def shortRequest : HTTPRequest :=
  ⟨bytes "POST", bytes "/", [(bytes "Content-Length", bytes "5"), (bytes "A", [])], bytes "abc",
    bytes "0.9"⟩

theorem parseRequestStream_unparse_short :
    parseRequestStream (fun _ => .error .badGzipFile)
      ([unparseRequest ⟨[], fun _ => false, false⟩ shortRequest].flatten ++ []) =
        .ok ([shortRequest], []) := by
  have hparse : parseRequest (fun _ => .error .badGzipFile)
      (bytes "POST /\n\nContent-Length:\t5 \r\nA:\r\n\r\nabc") = .ok (shortRequest, []) := by
    decide +kernel
  have hstream := parseRequestStream_eq_ok.mpr (.more hparse .done)
  have hte : ∀ r ∈ [shortRequest], ∀ h ∈ r.headers, lower h.1 ≠ bytes "transfer-encoding" := by
    decide
  have hce : ∀ r ∈ [shortRequest], ∀ h ∈ r.headers, lower h.1 ≠ bytes "content-encoding" := by
    decide
  refine parseRequestStream_unparse hstream hte hce (.cons ⟨_, ?_, rfl⟩ .nil)
  exact ⟨.nil, fun cut hcut => absurd hcut List.not_mem_nil⟩

end HttpGarden
