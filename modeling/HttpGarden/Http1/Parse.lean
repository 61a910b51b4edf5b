import HttpGarden.Http1.Message

/-!
# HttpGarden.Http1.Parse

The permissive **HTTP/1 parsers** of `http1.py`. Each regular expression of the
source is a `Pattern` with the same pieces in the same order, so that greediness
and backtracking come from the pattern library and not from a reading of what
the expression is meant to accept.

`gzip.decompress` is the parameter `gunzip`: what it returns, or which of its
documented exceptions it raises.

The loops that the source leaves to run until the input is used up (the chunks
of a body, the requests of a stream) recurse on the remaining bytes; that every
iteration shortens them is proved beside each pattern.
-/

namespace HttpGarden

open Lib Pattern

/-! ### Patterns -/

/-- `\r?\n`. -/
def newline : Pattern UInt8 Unit := do
  let _ ← opt (one (· == cr))
  let _ ← one (· == lf)
  return ()

/-- `\r?\n\r?\n`. -/
def headerTerminator : Pattern UInt8 Unit := do
  newline
  newline

/-- `\A(?P<version>[^\s]+)[\v\f\r \t]+(?P<code>\d+)[\v\f\r \t]+(?P<reason>.*?)\r?\n`. -/
def responseLine : Pattern UInt8 (Bytes × Bytes × Bytes) := do
  let version ← many1 (!isSpace ·)
  let _ ← many1 fun c => isSpace c && c != lf
  let code ← many1 isDigitByte
  let _ ← many1 fun c => isSpace c && c != lf
  let reason ← lazyMany (· != lf)
  newline
  return (version, code, reason)

/-- `\A(?P<method>[^\s]+)\s+(?P<uri>[^\s]+)\s+(?:HTTP/(?P<version>[^\s]+))?\r?\n`. -/
def requestLine : Pattern UInt8 (Bytes × Bytes × Option Bytes) := do
  let method ← many1 (!isSpace ·)
  let _ ← many1 isSpace
  let uri ← many1 (!isSpace ·)
  let _ ← many1 isSpace
  let version ← opt do
    word (bytes "HTTP/")
    many1 (!isSpace ·)
  newline
  return (method, uri, version)

/-- `\A(?P<name>[^:\n]+):[ \t]*(?P<value>.*?)[ \t]*\Z`. -/
def headerLine : Pattern UInt8 Header := do
  let name ← many1 fun c => c != colon && c != lf
  let _ ← one (· == colon)
  let _ ← many isBlank
  let value ← lazyMany (· != lf)
  let _ ← many isBlank
  eos
  return (name, value)

/-- `\A(?P<length>[0-9a-fA-F]+)[^\n]*\r?\n`. -/
def chunkHeader : Pattern UInt8 Bytes := do
  let length ← many1 isHexDigit
  let _ ← many (· != lf)
  newline
  return length

/-- `\A(?P<data>[\x00-\xff]<n>)\r\n`, where `<n>` stands for the repetition count `n`. -/
def chunkData (n : Nat) : Pattern UInt8 Bytes := do
  let data ← exactly n
  word [cr, lf]
  return data

theorem matches_newline {s a s'} :
    newline.Matches s a s' ↔ s = lf :: s' ∨ s = cr :: lf :: s' := by
  simp only [newline, matches_bind, matches_opt, matches_one, matches_pure, beq_iff_eq]
  constructor
  · rintro ⟨_, s₁, ⟨c, -, rfl, rfl⟩ | ⟨-, rfl⟩, d, s₂, ⟨rfl, rfl⟩, -, rfl⟩
    · exact Or.inr rfl
    · exact Or.inl rfl
  · rintro (rfl | rfl)
    · exact ⟨none, _, Or.inr ⟨rfl, rfl⟩, lf, s', ⟨rfl, rfl⟩, trivial, rfl⟩
    · exact ⟨some cr, _, Or.inl ⟨cr, rfl, rfl, rfl⟩, lf, s', ⟨rfl, rfl⟩, trivial, rfl⟩

theorem newline_length {s a s'} (h : newline.Matches s a s') : s'.length < s.length := by
  rcases matches_newline.mp h with rfl | rfl <;> simp only [List.length_cons] <;> omega

theorem newline_progress : newline.Progress := fun _ _ _ h => newline_length h

theorem matches_responseLine {s m s'} (h : responseLine.Matches s m s') :
    s'.length < s.length := by
  simp only [responseLine, matches_bind, matches_many1, matches_lazyMany, matches_pure] at h
  obtain ⟨v, s₁, ⟨-, rfl, -⟩, b₁, s₂, ⟨-, rfl, -⟩, c, s₃, ⟨-, rfl, -⟩, b₂, s₄, ⟨-, rfl, -⟩,
    r, s₅, ⟨rfl, -⟩, u, s₆, hn, -, rfl⟩ := h
  have := newline_length hn
  simp only [List.length_append]
  omega

/-- What a request line says about the bytes it was read from. -/
theorem matches_requestLine {s method uri version s'}
    (h : requestLine.Matches s (method, uri, version) s') :
    (method ≠ [] ∧ ∀ c ∈ method, isSpace c = false) ∧
    (uri ≠ [] ∧ ∀ c ∈ uri, isSpace c = false) ∧
    (∀ v ∈ version, v ≠ [] ∧ ∀ c ∈ v, isSpace c = false) ∧ s'.length < s.length := by
  simp only [requestLine, matches_bind, matches_many1, matches_opt, matches_word, matches_pure,
    Prod.mk.injEq, Bool.not_eq_true'] at h
  obtain ⟨m, s₁, ⟨hm, rfl, hm'⟩, b₁, s₂, ⟨-, rfl, -⟩, u, s₃, ⟨hu, rfl, hu'⟩, b₂, s₄,
    ⟨-, rfl, -⟩, v, s₅, hv, w, s₆, hn, ⟨rfl, rfl, rfl⟩, rfl⟩ := h
  have hlen := newline_length hn
  refine ⟨⟨hm, hm'⟩, ⟨hu, hu'⟩, ?_, ?_⟩
  · rcases hv with ⟨v, rfl, -, -, -, hv, -, hv'⟩ | ⟨rfl, -⟩
    · simpa using ⟨hv, hv'⟩
    · simp
  · rcases hv with ⟨v, rfl, w, s₇, rfl, -, rfl, -⟩ | ⟨rfl, rfl⟩ <;>
      simp only [List.length_append] at hlen ⊢ <;> omega

theorem matches_chunkHeader {s a s'} (h : chunkHeader.Matches s a s') :
    s'.length < s.length := by
  simp only [chunkHeader, matches_bind, matches_many1, matches_many, matches_pure] at h
  obtain ⟨x, s₁, ⟨-, rfl, -⟩, y, s₂, ⟨rfl, -⟩, u, s₃, hn, -, rfl⟩ := h
  have := newline_length hn
  simp only [List.length_append]
  omega

theorem matches_chunkData {n s a s'} (h : (chunkData n).Matches s a s') :
    s'.length < s.length := by
  simp only [chunkData, matches_bind, matches_exactly, matches_word, matches_pure] at h
  obtain ⟨x, s₁, ⟨rfl, -⟩, u, s₂, rfl, -, rfl⟩ := h
  simp only [List.length_append, List.length_cons]
  omega

/-! ### Headers -/

/-- The loop over the header lines in `parse_headers`. -/
def parseHeaderLines : List Bytes → Except PyError (List Header)
  | [] => .ok []
  | line :: lines => do
    match headerLine.first line with
    | none => .error (.valueError "Invalid header line.")
    | some (header, _) =>
      let headers ← parseHeaderLines lines
      return header :: headers

/-- `parse_headers`. -/
def parseHeaders (raw : Bytes) : Except PyError (List Header × Bytes) :=
  if [cr, lf] <+: raw then .ok ([], raw.drop 2)
  else
    match headerTerminator.search raw with
    | none => .error (.valueError "No header termination sequence found.")
    | some (rawHeaders, _, rest) => do
      let headers ← parseHeaderLines (newline.split newline_progress rawHeaders)
      return (headers, rest)

/-! ### Bodies -/

/-- What the first loop of `parse_body` collects from the headers. -/
structure Framing where
  cl : Option Nat
  teValues : List Bytes
  ceValues : List Bytes
  deriving Repr, DecidableEq

/-- `b"chunked" in te_values`. -/
def Framing.chunked (f : Framing) : Bool := f.teValues.contains (bytes "chunked")

/-- `b"gzip" in ce_values`. -/
def Framing.gzipped (f : Framing) : Bool := f.ceValues.contains (bytes "gzip")

/-- One iteration of that loop. -/
def scanHeader (f : Framing) (h : Header) : Except PyError Framing := do
  let f ←
    if lower h.1 = bytes "content-length" then
      if !isAscii h.2 || !isDigit h.2 then .error (.valueError "Invalid Content-Length")
      else do
        let n ← intOfDigits h.2
        pure { f with cl := some n }
    else pure f
  let f :=
    if lower h.1 = bytes "transfer-encoding" then
      { f with teValues := f.teValues ++ [strip (· == 44) (lower h.2)] }
    else f
  if lower h.1 = bytes "content-encoding" then
    return { f with ceValues := f.ceValues ++ [strip (· == 44) (lower h.2)] }
  else return f

/-- The first loop of `parse_body`. -/
def scanHeaders (headers : List Header) : Except PyError Framing :=
  headers.foldlM scanHeader ⟨none, [], []⟩

/-- Build the regular expression for `n` bytes of chunk data: formatting the count
and compiling the repetition can both fail. -/
def checkChunkPattern (n : Nat) : Except PyError Unit := do
  checkStrDigits n
  if reMaxRepeat ≤ n then .error (.overflowError "the repetition number is too large")
  else return ()

/-- One iteration of the chunk loop of `parse_body`: the length and the data of the
chunk at the front, and the rest. -/
def parseChunk (rest : Bytes) : Except PyError (Nat × Bytes × Bytes) := do
  match chunkHeader.first rest with
  | none => .error (.valueError "Invalid chunk header.")
  | some (length, rest) =>
    let chunkLength := digitsVal 16 length
    checkChunkPattern chunkLength
    match (chunkData chunkLength).first rest with
    | none => .error (.valueError "Invalid chunk data")
    | some (data, rest) => return (chunkLength, data, rest)

theorem parseChunk_length {rest data rest' : Bytes} {n}
    (h : parseChunk rest = .ok (n, data, rest')) : rest'.length < rest.length := by
  unfold parseChunk at h
  split at h
  · cases h
  · rename_i hh
    obtain ⟨-, -, h⟩ := bind_eq_ok.mp h
    split at h
    · cases h
    · rename_i hd
      cases h
      have := matches_chunkHeader (matches_of_first hh)
      have := matches_chunkData (matches_of_first hd)
      omega

/-- The chunk loop of `parse_body`; `body` is what the earlier chunks held. -/
def parseChunks (body rest : Bytes) : Except PyError (Bytes × Bytes) :=
  match _h : parseChunk rest with
  | .error e => .error e
  | .ok (chunkLength, data, rest') =>
    if chunkLength = 0 then .ok (body ++ data, rest') else parseChunks (body ++ data) rest'
termination_by rest.length
decreasing_by exact parseChunk_length _h

theorem parseChunks_eq (body rest : Bytes) : parseChunks body rest = (do
    let (chunkLength, data, rest') ← parseChunk rest
    if chunkLength = 0 then .ok (body ++ data, rest') else parseChunks (body ++ data) rest') := by
  rw [parseChunks]
  split
  · rename_i h; rw [h]; rfl
  · rename_i h; rw [h]; rfl

section

variable (gunzip : Bytes → Except GzipError Bytes)

/-- `gzip.decompress`. -/
def gzipDecompress (body : Bytes) : Except PyError Bytes :=
  match gunzip body with
  | .ok d => .ok d
  | .error e => .error (.gzip e)

/-- The rest of `parse_body`, after the loop over the headers. -/
def readBody (f : Framing) (rest : Bytes) (isResponse : Bool) :
    Except PyError (Bytes × Bytes) :=
  if isResponse && f.cl.isNone && !f.chunked then .ok (rest, [])
  else if f.chunked then
    if f.gzipped then .error (.valueError "CE: gzip combined with TE: chunked not supported.")
    else parseChunks [] rest
  else
    match f.cl with
    | none => .ok ([], rest)
    | some cl =>
      if f.gzipped then do
        let body ← gzipDecompress gunzip (rest.take cl)
        return (body, rest.drop cl)
      else .ok (rest.take cl, rest.drop cl)

/-- `parse_body`. -/
def parseBody (headers : List Header) (rest : Bytes) (isResponse : Bool) :
    Except PyError (Bytes × Bytes) := do
  let f ← scanHeaders headers
  readBody gunzip f rest isResponse

/-! ### Messages -/

/-- `parse_response`. -/
def parseResponse (raw : Bytes) : Except PyError (HTTPResponse × Bytes) := do
  match responseLine.first raw with
  | none => .error (.valueError "Invalid HTTP response line.")
  | some ((version, code, reason), rest) =>
    let version := if bytes "HTTP/" <+: version then version.drop 5 else version
    let (headers, rest) ← parseHeaders rest
    let (body, rest) ← parseBody gunzip headers rest true
    return (⟨version, code, reason, headers, body⟩, rest)

/-- `parse_request`. -/
def parseRequest (raw : Bytes) : Except PyError (HTTPRequest × Bytes) := do
  match requestLine.first raw with
  | none => .error (.valueError "Invalid HTTP response line.")
  | some ((method, uri, version), rest) =>
    let (headers, rest) ← parseHeaders rest
    let (body, rest) ← parseBody gunzip headers rest false
    return (⟨method, uri, headers, body, version.getD (bytes "0.9")⟩, rest)

/-- `strip_http_0_9_headers`: what follows the first blank line, or everything. -/
def stripHttp09Headers (data : Bytes) : Bytes :=
  match find [cr, lf, cr, lf] data with
  | none => data
  | some crlfIndex => data.drop (crlfIndex + 4)

/-! ### Every parser leaves a shorter rest -/

theorem parseHeaders_length {raw rest : Bytes} {headers}
    (h : parseHeaders raw = .ok (headers, rest)) : rest.length ≤ raw.length := by
  unfold parseHeaders at h
  split at h
  · cases h
    simp
  · split at h
    · cases h
    · rename_i hs
      obtain ⟨hs', -, heq⟩ := bind_eq_ok.mp h
      cases heq
      obtain ⟨mid, rfl, hf⟩ := search_sound hs
      obtain ⟨u, s₁, h1, h2⟩ := matches_bind.mp (matches_of_first hf)
      have := newline_length h1
      have := newline_length h2
      simp only [List.length_append]
      omega

theorem parseChunks_length {body rest body' rest' : Bytes}
    (h : parseChunks body rest = .ok (body', rest')) : rest'.length < rest.length := by
  induction body, rest using parseChunks.induct with
  | case1 body rest e he =>
      rw [parseChunks_eq, he] at h
      cases h
  | case2 body rest data rest₁ hc =>
      rw [parseChunks_eq, hc] at h
      cases h
      exact parseChunk_length hc
  | case3 body rest n data rest₁ hc hn ih =>
      rw [parseChunks_eq, hc] at h
      have := ih ((if_neg hn).symm.trans h)
      have := parseChunk_length hc
      omega

theorem parseBody_length {headers rest isResponse body rest'}
    (h : parseBody gunzip headers rest isResponse = .ok (body, rest')) :
    rest'.length ≤ rest.length := by
  obtain ⟨f, -, h⟩ := bind_eq_ok.mp h
  unfold readBody at h
  split at h
  · cases h
    simp
  · split at h
    · split at h
      · cases h
      · exact (parseChunks_length h).le
    · split at h
      · cases h
        rfl
      · split at h
        · obtain ⟨b, -, h⟩ := bind_eq_ok.mp h
          cases h
          simp
        · cases h
          simp

/-- A parsed response consumes at least its status line. -/
theorem parseResponse_length {raw rest : Bytes} {r}
    (h : parseResponse gunzip raw = .ok (r, rest)) : rest.length < raw.length := by
  unfold parseResponse at h
  split at h
  · cases h
  · rename_i hf
    obtain ⟨⟨headers, rest₁⟩, hh, h⟩ := bind_eq_ok.mp h
    obtain ⟨⟨body, rest₂⟩, hb, h⟩ := bind_eq_ok.mp h
    cases h
    have := matches_responseLine (matches_of_first hf)
    have := parseHeaders_length hh
    have := parseBody_length gunzip hb
    omega

/-- A parsed request consumes at least its request line. -/
theorem parseRequest_length {raw rest : Bytes} {r}
    (h : parseRequest gunzip raw = .ok (r, rest)) : rest.length < raw.length := by
  unfold parseRequest at h
  split at h
  · cases h
  · rename_i hf
    obtain ⟨⟨headers, rest₁⟩, hh, h⟩ := bind_eq_ok.mp h
    obtain ⟨⟨body, rest₂⟩, hb, h⟩ := bind_eq_ok.mp h
    cases h
    have := (matches_requestLine (matches_of_first hf)).2.2.2
    have := parseHeaders_length hh
    have := parseBody_length gunzip hb
    omega

/-! ### Streams -/

/-- The loop of `parse_request_stream`: requests are split off until the input is
used up or `parse_request` raises `ValueError`; any other exception escapes. -/
def parseRequestStream (remaining : Bytes) : Except PyError (List HTTPRequest × Bytes) :=
  if remaining = [] then .ok ([], [])
  else
    match _h : parseRequest gunzip remaining with
    | .ok (request, remaining') => do
      let (parseTrees, rest) ← parseRequestStream remaining'
      return (request :: parseTrees, rest)
    | .error e => if e.isValueError then .ok ([], remaining) else .error e
termination_by remaining.length
decreasing_by exact parseRequest_length gunzip _h

end

end HttpGarden
