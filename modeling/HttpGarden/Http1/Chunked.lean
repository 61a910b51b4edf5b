import HttpGarden.Http1.ChunkedBody
import HttpGarden.Http1.Unparse

/-!
# HttpGarden.Http1.Chunked

**Requests with a Transfer-Encoding header**, written and parsed again.

`_unparse_request` writes chunks whenever the header is there; `parse_body` reads chunks
only if a value of it is `chunked`, and does not read the trailer that `_randomly_chunk`
may write. `parseRequest_unparse_iff` says when a request comes back.
-/

namespace HttpGarden

open Lib Pattern

/-! ### One chunk -/

/-- A size line with the length as `hex` writes it. -/
def sizeLine (n : Nat) {e : Bytes} (he : IsLine e) (hhex : Stops isHexDigit e) : SizeLine where
  digits := digitBytes 16 n
  extension := e
  ending := .crlf
  digits_ne_nil := digitBytes_ne_nil 16 n
  digits_hex := by
    intro c hc
    obtain ⟨d, hd, rfl⟩ := exists_digit_of_mem (by decide) hc
    exact (digitVal_digitByte hd).2
  extension_line := he
  extension_stops := hhex

/-- The header line of a chunk, with anything after the length. -/
theorem chunkHeader_first {n : Nat} {e : Bytes} (he : IsLine e) (hhex : Stops isHexDigit e)
    (s : Bytes) : chunkHeader.first (digitBytes 16 n ++ (e ++ (crlf ++ s))) =
      some (digitBytes 16 n, s) := by
  have hfirst := (sizeLine n he hhex).chunkHeader_first s
  rw [SizeLine.text, List.append_assoc, List.append_assoc] at hfirst
  exact hfirst

/-- The end of the header line of a chunk does not go on with a digit. -/
theorem stops_extension (extension : Bool) :
    IsLine (if extension then bytes ";abc=123" else []) ∧
      Stops isHexDigit (if extension then bytes ";abc=123" else []) := by
  have hbytes : bytes ";abc=123" = [59, 97, 98, 99, 61, 49, 50, 51] := by decide
  cases extension with
  | false => exact ⟨List.not_mem_nil, stops_nil isHexDigit⟩
  | true =>
      rw [if_pos rfl, hbytes]
      exact ⟨by simp [IsLine, lf], stops_cons.mpr rfl⟩

theorem parseChunk_chunkBytes_eq (extension : Bool) (p s : Bytes) :
    parseChunk (chunkBytes extension p ++ s) =
      (checkChunkPattern p.length).map fun _ => (p.length, p, s) := by
  obtain ⟨hline, hstop⟩ := stops_extension extension
  have hfirst := chunkHeader_first (n := p.length) hline hstop (p ++ (crlf ++ s))
  unfold parseChunk chunkBytes
  simp only [List.append_assoc, hfirst, digitsVal_digitBytes (by decide : 1 < 16) le_rfl,
    chunkData_first]
  cases checkChunkPattern p.length <;> rfl

/-! ### The last chunk -/

theorem bytes_lastChunk : bytes "0\r\n" = digitBytes 16 0 ++ crlf := by decide

theorem bytes_terminator : bytes "0\r\n\r\n" = bytes "0\r\n" ++ crlf := by decide

theorem chunkHeader_first_last (s : Bytes) :
    chunkHeader.first (bytes "0\r\n" ++ s) = some (digitBytes 16 0, s) := by
  rw [bytes_lastChunk, List.append_assoc]
  exact chunkHeader_first List.not_mem_nil (stops_nil isHexDigit) s

theorem parseChunks_last (body s : Bytes) :
    parseChunks body (bytes "0\r\n" ++ (crlf ++ s)) = .ok (body, s) := by
  have hdata : (chunkData 0).first (crlf ++ s) = some ([], s) := chunkData_first [] s
  have hchunk : parseChunk (bytes "0\r\n" ++ (crlf ++ s)) = .ok (0, [], s) := by
    unfold parseChunk
    simp only [chunkHeader_first_last, digitsVal_digitBytes (by decide : 1 < 16) le_rfl,
      checkChunkPattern_of_lt (by decide : 0 < reMaxRepeat), ok_bind, hdata]
    rfl
  rw [parseChunks_eq, hchunk, ok_bind]
  simp

/-- A trailer where the end of the last chunk is expected. -/
theorem parseChunks_trailer (body s : Bytes) :
    parseChunks body (bytes "0\r\n" ++ (bytes "Trailer-Is: This\r\n" ++ s)) =
      .error (.valueError "Invalid chunk data") := by
  have hcons : bytes "Trailer-Is: This\r\n" = 84 :: (bytes "Trailer-Is: This\r\n").tail := by
    decide
  have hdata : (chunkData 0).first (bytes "Trailer-Is: This\r\n" ++ s) = none := by
    rw [first_eq_none_iff, hcons]
    intro a s' hm
    simp only [chunkData, matches_bind, matches_exactly, matches_word, List.length_eq_zero_iff] at hm
    obtain ⟨x, s₁, ⟨hs, rfl⟩, -, s₂, rfl, -⟩ := hm
    cases hs
  have hchunk : parseChunk (bytes "0\r\n" ++ (bytes "Trailer-Is: This\r\n" ++ s)) =
      .error (.valueError "Invalid chunk data") := by
    unfold parseChunk
    simp only [chunkHeader_first_last, digitsVal_digitBytes (by decide : 1 < 16) le_rfl,
      checkChunkPattern_of_lt (by decide : 0 < reMaxRepeat), ok_bind, hdata]
  rw [parseChunks_eq, hchunk, error_bind]

/-! ### The loop over the chunks -/

/-- The chunks as they are written, the first with index `k`. -/
def writeChunks (extension : Nat → Bool) (k : Nat) (chunks : List Bytes) : Bytes :=
  (chunks.zipIdx k).flatMap fun c => chunkBytes (extension c.2) c.1

theorem writeChunks_cons (extension : Nat → Bool) (k : Nat) (p : Bytes) (chunks : List Bytes) :
    writeChunks extension k (p :: chunks) =
      chunkBytes (extension k) p ++ writeChunks extension (k + 1) chunks := rfl

theorem parseChunks_chunkBytes {extension : Bool} {p : Bytes} (hne : p ≠ [])
    (hmax : p.length < reMaxRepeat) (body s : Bytes) :
    parseChunks body (chunkBytes extension p ++ s) = parseChunks (body ++ p) s := by
  rw [parseChunks_eq, parseChunk_chunkBytes_eq, checkChunkPattern_of_lt hmax]
  exact if_neg (by simpa using hne)

/-- Chunks that are not too large are read up to what follows them. -/
theorem parseChunks_writeChunks {extension : Nat → Bool} {chunks : List Bytes}
    (hchunks : ∀ p ∈ chunks, p ≠ [] ∧ p.length < reMaxRepeat) (k : Nat) (body s : Bytes) :
    parseChunks body (writeChunks extension k chunks ++ s) =
      parseChunks (body ++ chunks.flatten) s := by
  induction chunks generalizing k body with
  | nil => rw [List.flatten_nil, List.append_nil]; rfl
  | cons p chunks ih =>
      obtain ⟨⟨hne, hmax⟩, hchunks⟩ := List.forall_mem_cons.mp hchunks
      rw [writeChunks_cons, List.append_assoc, parseChunks_chunkBytes hne hmax, ih hchunks,
        List.flatten_cons, List.append_assoc]

/-- A chunk that the pattern of the parser cannot count up to makes it raise. -/
theorem parseChunks_writeChunks_large {extension : Nat → Bool} {chunks : List Bytes}
    (hne : ∀ p ∈ chunks, p ≠ []) (hlarge : ∃ p ∈ chunks, reMaxRepeat ≤ p.length) (k : Nat)
    (body s : Bytes) (t : Bytes × Bytes) :
    parseChunks body (writeChunks extension k chunks ++ s) ≠ .ok t := by
  induction chunks generalizing k body with
  | nil =>
      obtain ⟨p, hp, -⟩ := hlarge
      exact absurd hp List.not_mem_nil
  | cons p chunks ih =>
      obtain ⟨hp, hne⟩ := List.forall_mem_cons.mp hne
      rw [writeChunks_cons, List.append_assoc]
      -- the chunk that is too large is this one or a later one
      by_cases hmax : p.length < reMaxRepeat
      · rw [parseChunks_chunkBytes hp hmax]
        refine ih hne ?_ (k + 1) (body ++ p)
        obtain ⟨q, hq, hlen⟩ := hlarge
        rcases List.mem_cons.mp hq with rfl | hq
        · omega
        · exact ⟨q, hq, hlen⟩
      · rw [parseChunks_eq, parseChunk_chunkBytes_eq]
        cases hcheck : checkChunkPattern p.length with
        | ok u => exact absurd hcheck (checkChunkPattern_of_ge (by omega))
        | error e => exact nofun

/-! ### Cutting -/

/-- Cuts in order within the data take it apart into pieces that are not empty. -/
theorem cutAt_spec {start : Nat} {cuts : List Nat} {data : Bytes} (hne : data ≠ [])
    (hcuts : cuts.Pairwise (· < ·))
    (hbounds : ∀ cut ∈ cuts, start < cut ∧ cut < start + data.length) :
    (cutAt start cuts data).flatten = data ∧ ∀ p ∈ cutAt start cuts data, p ≠ [] := by
  induction cuts generalizing start data with
  | nil =>
      rw [cutAt, List.flatten_singleton]
      exact ⟨rfl, fun p hp => List.mem_singleton.mp hp ▸ hne⟩
  | cons cut cuts ih =>
      obtain ⟨⟨hlo, hhi⟩, hbounds⟩ := List.forall_mem_cons.mp hbounds
      obtain ⟨hlt, hcuts⟩ := List.pairwise_cons.mp hcuts
      have hlen : (data.drop (cut - start)).length = data.length - (cut - start) := List.length_drop
      -- the cut is inside the data, so that neither part is empty
      have hrest := @ih cut (data.drop (cut - start)) ?_ hcuts ?_
      · rw [cutAt, List.flatten_cons, hrest.1, List.take_append_drop]
        refine ⟨rfl, List.forall_mem_cons.mpr ⟨?_, hrest.2⟩⟩
        intro hnil
        have := congrArg List.length hnil
        rw [List.length_take, List.length_nil] at this
        omega
      · intro hnil
        rw [hnil, List.length_nil] at hlen
        omega
      · intro c hc
        have := hlt c hc
        have := hbounds c hc
        omega

/-! ### A chunked body -/

/-- The outcomes of `_randomly_chunk` that the parser reads. -/
def ChunkDraws.ReadableFor (draws : ChunkDraws) (data : Bytes) : Prop :=
  data = [] ∨ draws.trailer = false ∧ ∀ p ∈ cutAt 0 draws.cuts data, p.length < reMaxRepeat

theorem randomlyChunk_nil (draws : ChunkDraws) : randomlyChunk draws [] = bytes "0\r\n" ++ crlf :=
  bytes_terminator

theorem randomlyChunk_of_ne_nil {draws : ChunkDraws} {data : Bytes} (hne : data ≠ []) (t : Bytes) :
    randomlyChunk draws data ++ t = writeChunks draws.extension 0 (cutAt 0 draws.cuts data) ++
      (bytes "0\r\n" ++ ((if draws.trailer then bytes "Trailer-Is: This\r\n" else []) ++
        (crlf ++ t))) := by
  rw [randomlyChunk, if_neg (by simpa using hne)]
  simp only [List.append_assoc]
  rfl

theorem cutAt_zero_spec {draws : ChunkDraws} {data : Bytes} (hne : data ≠ [])
    (hd : draws.ValidFor data) : (cutAt 0 draws.cuts data).flatten = data ∧
      ∀ p ∈ cutAt 0 draws.cuts data, p ≠ [] := by
  refine cutAt_spec hne hd.1 fun cut hcut => ?_
  have := hd.2 cut hcut
  omega

/-- **A chunked body comes back** from the outcomes that are readable. -/
theorem parseChunks_randomlyChunk {draws : ChunkDraws} {data : Bytes} (hd : draws.ValidFor data)
    (hr : draws.ReadableFor data) (t : Bytes) :
    parseChunks [] (randomlyChunk draws data ++ t) = .ok (data, t) := by
  by_cases hne : data = []
  · rw [hne, randomlyChunk_nil, List.append_assoc]
    exact parseChunks_last [] t
  · obtain ⟨htrailer, hmax⟩ := hr.resolve_left hne
    obtain ⟨hflat, hpieces⟩ := cutAt_zero_spec hne hd
    rw [randomlyChunk_of_ne_nil hne, htrailer,
      parseChunks_writeChunks fun p hp => ⟨hpieces p hp, hmax p hp⟩, hflat]
    exact parseChunks_last data t

/-- From the others nothing comes back. -/
theorem parseChunks_randomlyChunk_ne {draws : ChunkDraws} {data : Bytes} (hd : draws.ValidFor data)
    (hr : ¬ draws.ReadableFor data) (t : Bytes) (u : Bytes × Bytes) :
    parseChunks [] (randomlyChunk draws data ++ t) ≠ .ok u := by
  obtain ⟨hne, hr⟩ := not_or.mp hr
  obtain ⟨hflat, hpieces⟩ := cutAt_zero_spec hne hd
  rw [randomlyChunk_of_ne_nil hne]
  -- a chunk is too large, or all of them are read and the trailer comes next
  by_cases hmax : ∀ p ∈ cutAt 0 draws.cuts data, p.length < reMaxRepeat
  · have htrailer : draws.trailer = true := by
      cases h : draws.trailer with
      | false => exact absurd ⟨h, hmax⟩ hr
      | true => rfl
    rw [parseChunks_writeChunks fun p hp => ⟨hpieces p hp, hmax p hp⟩, htrailer, if_pos rfl,
      parseChunks_trailer]
    exact nofun
  · push Not at hmax
    exact parseChunks_writeChunks_large hpieces hmax 0 _ _ u

theorem length_flatten_le_writeChunks (extension : Nat → Bool) (k : Nat) (chunks : List Bytes) :
    chunks.flatten.length ≤ (writeChunks extension k chunks).length := by
  induction chunks generalizing k with
  | nil => exact le_rfl
  | cons p chunks ih =>
      have := ih (k + 1)
      rw [writeChunks_cons, chunkBytes, List.flatten_cons]
      simp only [List.length_append]
      omega

/-- What is written for a body is longer than the body. -/
theorem length_lt_randomlyChunk {draws : ChunkDraws} {data : Bytes} (hd : draws.ValidFor data) :
    data.length < (randomlyChunk draws data).length := by
  by_cases hne : data = []
  · rw [hne, randomlyChunk_nil, List.length_append]
    exact Nat.lt_add_left _ (by decide)
  · have hle := length_flatten_le_writeChunks draws.extension 0 (cutAt 0 draws.cuts data)
    rw [(cutAt_zero_spec hne hd).1] at hle
    rw [← List.append_nil (randomlyChunk draws data), randomlyChunk_of_ne_nil hne]
    have hcrlf : crlf.length = 2 := rfl
    simp only [List.length_append]
    omega

theorem head_digitBytes (n : Nat) (s : Bytes) :
    ∃ c t, digitBytes 16 n ++ s = c :: t ∧ isHexDigit c = true := by
  obtain ⟨c, t, ht⟩ := List.exists_cons_of_ne_nil (digitBytes_ne_nil 16 n)
  obtain ⟨d, hd, rfl⟩ := exists_digit_of_mem (by decide) (ht ▸ List.mem_cons_self)
  exact ⟨digitByte d, t ++ s, by rw [ht]; rfl, (digitVal_digitByte hd).2⟩

/-- What is written for a body begins with a digit, which no gzip file does. -/
theorem head_randomlyChunk {draws : ChunkDraws} {data : Bytes} (hd : draws.ValidFor data) :
    ∃ c s, randomlyChunk draws data = c :: s ∧ isHexDigit c = true := by
  by_cases hne : data = []
  · rw [hne, randomlyChunk_nil, bytes_lastChunk, List.append_assoc]
    exact head_digitBytes 0 _
  · rw [← List.append_nil (randomlyChunk draws data), randomlyChunk_of_ne_nil hne]
    cases hchunks : cutAt 0 draws.cuts data with
    | nil =>
        have hflat := (cutAt_zero_spec hne hd).1
        rw [hchunks] at hflat
        exact absurd hflat.symm hne
    | cons p chunks =>
        rw [writeChunks_cons, chunkBytes]
        simp only [List.append_assoc]
        exact head_digitBytes p.length _

/-! ### Requests -/

variable {gunzip : Bytes → Except GzipError Bytes}

theorem unparseRequest_of_has {draws : ChunkDraws} {r : HTTPRequest}
    (h : ∃ k ∈ r.headers, lower k.1 = bytes "transfer-encoding") :
    unparseRequest draws r = requestHead r ++ randomlyChunk draws r.body := by
  have hany : (r.headers.any fun p => lower p.1 == bytes "transfer-encoding") = true := by
    rw [List.any_eq_true]
    obtain ⟨k, hk, hname⟩ := h
    exact ⟨k, hk, beq_iff_eq.mpr hname⟩
  rw [unparseRequest, hany]
  rfl

/-- Without `chunked` a body is not read back from chunks: the length would have to be
that of the chunks, and then the body would be the chunks. -/
theorem readBody_randomlyChunk_ne
    (hgzip : ∀ d x, gunzip d = .ok x → d = [] ∨ [0x1F, 0x8B] <+: d) {f : Framing}
    (hchunked : f.chunked = false) {draws : ChunkDraws} {data : Bytes} (hd : draws.ValidFor data)
    (tail : Bytes) :
    readBody gunzip f (randomlyChunk draws data ++ tail) false ≠ .ok (data, tail) := by
  have hlong := length_lt_randomlyChunk hd
  obtain ⟨c, s, hhead, hc⟩ := head_randomlyChunk hd
  have hne : randomlyChunk draws data ≠ [] := hhead ▸ List.cons_ne_nil c s
  -- whatever is dropped down to the tail is all of the chunks
  have htake (n : Nat) (hn : (randomlyChunk draws data ++ tail).drop n = tail) :
      (randomlyChunk draws data ++ tail).take n = randomlyChunk draws data := by
    have hsplit := List.take_append_drop n (randomlyChunk draws data ++ tail)
    rw [hn] at hsplit
    exact List.append_cancel_right hsplit
  unfold readBody
  rw [hchunked]
  intro h
  cases hcl : f.cl with
  | none =>
      simp only [hcl, Bool.false_and, Bool.false_eq_true, if_false, Except.ok.injEq, Prod.mk.injEq,
        List.append_left_eq_self] at h
      exact hne h.2
  | some n =>
      simp only [hcl, Bool.false_and, Bool.false_eq_true, if_false] at h
      cases hgz : f.gzipped with
      | false =>
          simp only [hgz, Bool.false_eq_true, if_false, Except.ok.injEq, Prod.mk.injEq] at h
          rw [← htake n h.2, h.1] at hlong
          exact absurd hlong (lt_irrefl _)
      | true =>
          simp only [hgz, if_true] at h
          obtain ⟨body, hbody, hpair⟩ := bind_eq_ok.mp h
          simp only [pure_eq_ok, Except.ok.injEq, Prod.mk.injEq] at hpair
          rw [htake n hpair.2] at hbody
          have hok : gunzip (randomlyChunk draws data) = .ok body := by
            unfold gzipDecompress at hbody
            cases hg : gunzip (randomlyChunk draws data) with
            | ok d =>
                rw [hg] at hbody
                cases hbody
                rfl
            | error e =>
                rw [hg] at hbody
                cases hbody
          obtain ⟨u, hu⟩ := (hgzip _ _ hok).resolve_left hne
          rw [hhead] at hu
          cases hu
          exact absurd hc (by decide)

/-- **A request with a Transfer-Encoding header** comes back from what is written for it,
up to whatever follows, exactly if one of the values of the header is `chunked` and the
outcome of the random choices is readable. `hgzip` says that `gzip.decompress` rejects
data without the magic number of gzip files. -/
theorem parseRequest_unparse_iff
    (hgzip : ∀ d x, gunzip d = .ok x → d = [] ∨ [0x1F, 0x8B] <+: d)
    {raw rest : Bytes} {r : HTTPRequest} (h : parseRequest gunzip raw = .ok (r, rest))
    (hte : ∃ k ∈ r.headers, lower k.1 = bytes "transfer-encoding")
    {draws : ChunkDraws} (hd : draws.ValidFor r.body) (tail : Bytes) :
    parseRequest gunzip (unparseRequest draws r ++ tail) = .ok (r, tail) ↔
      bytes "chunked" ∈ framingValues (bytes "transfer-encoding") r.headers ∧
        draws.ReadableFor r.body := by
  obtain ⟨-, -, rest₂, -, -, -, hbody⟩ := parseRequest_eq_ok.mp h
  obtain ⟨f, hf, hread⟩ := bind_eq_ok.mp hbody
  have hvalues := (scanHeaders_values hf).1
  -- what is written for the head is read back, so only the body is left to compare
  have hiff : parseRequest gunzip (unparseRequest draws r ++ tail) = .ok (r, tail) ↔
      readBody gunzip f (randomlyChunk draws r.body ++ tail) false = .ok (r.body, tail) := by
    rw [unparseRequest_of_has hte, List.append_assoc,
      parseRequest_requestHead (isHead_of_parseRequest h), parseBody, hf, ok_bind]
    cases readBody gunzip f (randomlyChunk draws r.body ++ tail) false with
    | error e =>
        refine iff_of_false (fun h => ?_) fun h => ?_
        · cases h
        · cases h
    | ok t =>
        simp only [Except.map, Except.ok.injEq, Prod.ext_iff]
        refine and_congr_left fun _ => ⟨fun h => congrArg HTTPRequest.body h, fun h => ?_⟩
        rw [h]
  have hmem : f.chunked = true ↔
      bytes "chunked" ∈ framingValues (bytes "transfer-encoding") r.headers := by
    rw [Framing.chunked, hvalues, List.contains_iff_mem]
  rw [hiff, ← hmem]
  cases hchunked : f.chunked with
  | false =>
      have hne := readBody_randomlyChunk_ne hgzip hchunked hd tail
      exact ⟨fun h => absurd h hne, fun h => absurd h.1 (by decide)⟩
  | true =>
      -- chunks that are said to be gzip are rejected, and `r` was not
      have hgzipped : f.gzipped = false := by
        cases hgz : f.gzipped with
        | false => rfl
        | true =>
            unfold readBody at hread
            simp only [hchunked, hgz, Bool.not_true, Bool.and_false, Bool.false_eq_true, if_false,
              if_true] at hread
            cases hread
      have hread : readBody gunzip f (randomlyChunk draws r.body ++ tail) false =
          parseChunks [] (randomlyChunk draws r.body ++ tail) := by
        unfold readBody
        simp only [hchunked, hgzipped, Bool.not_true, Bool.and_false, Bool.false_eq_true, if_false,
          if_true]
      rw [hread]
      refine ⟨fun hok => ?_, fun h => ?_⟩
      · refine ⟨rfl, ?_⟩
        by_contra hnot
        exact parseChunks_randomlyChunk_ne hd hnot tail _ hok
      · exact parseChunks_randomlyChunk hd h.2 tail

/-- A request with a chunked body. -/
def chunkedRequest : HTTPRequest :=
  ⟨bytes "POST", bytes "/", [(bytes "Transfer-Encoding", bytes "Chunked")], bytes "hi",
    bytes "1.1"⟩

theorem parseRequest_chunkedRequest : parseRequest (fun _ => .error .badGzipFile)
    (bytes "POST / HTTP/1.1\r\nTransfer-Encoding: Chunked\r\n\r\n2\r\nhi\r\n0\r\n\r\n") =
      .ok (chunkedRequest, []) := by decide +kernel

theorem parseRequest_unparse_iff_twoChunks : parseRequest (fun _ => .error .badGzipFile)
    (unparseRequest ⟨[1], fun _ => true, false⟩ chunkedRequest ++ bytes "tail") =
      .ok (chunkedRequest, bytes "tail") := by
  have hte : ∃ k ∈ chunkedRequest.headers, lower k.1 = bytes "transfer-encoding" := by
    decide
  have hvalid : (⟨[1], fun _ => true, false⟩ : ChunkDraws).ValidFor chunkedRequest.body :=
    ⟨List.pairwise_singleton _ _, by decide⟩
  have hchunked : bytes "chunked" ∈
      framingValues (bytes "transfer-encoding") chunkedRequest.headers := by decide
  refine (parseRequest_unparse_iff ?_ parseRequest_chunkedRequest hte hvalid _).mpr
    ⟨hchunked, Or.inr ⟨rfl, ?_⟩⟩
  · intro d x h
    cases h
  · decide

/-- A trailer after the chunks does not come back, so not every outcome does. -/
theorem not_parseRequest_unparse_trailer :
    ¬ ∀ (raw rest : Bytes) (r : HTTPRequest) (draws : ChunkDraws) (tail : Bytes),
      parseRequest (fun _ => .error .badGzipFile) raw = .ok (r, rest) →
      (∃ k ∈ r.headers, lower k.1 = bytes "transfer-encoding") → draws.ValidFor r.body →
      parseRequest (fun _ => .error .badGzipFile) (unparseRequest draws r ++ tail) =
        .ok (r, tail) := by
  intro h
  have hte : ∃ k ∈ chunkedRequest.headers, lower k.1 = bytes "transfer-encoding" := by
    decide
  have hback := h _ _ _ ⟨[], fun _ => false, true⟩ [] parseRequest_chunkedRequest hte
    ⟨.nil, fun cut hcut => absurd hcut List.not_mem_nil⟩
  exact absurd hback (by decide +kernel)

end HttpGarden
