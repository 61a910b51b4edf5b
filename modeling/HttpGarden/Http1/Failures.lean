import HttpGarden.Http1.Stream

/-!
# HttpGarden.Http1.Failures

**Which exceptions leave the HTTP/1 parsers.** `parse_body` is documented to raise `ValueError`,
and nothing else is caught where messages are parsed. Two steps in it raise other exceptions: the
regular expression for the data of a chunk cannot be compiled for very large lengths, and
`gzip.decompress` has exceptions of its own.

Each lemma below says exactly when one function raises nothing but `ValueError`, so that the
conditions add up along the calls to `parsers_raise_valueError_iff`.
-/

namespace HttpGarden

open Lib Pattern

/-- An exception that leaves is a `ValueError`. -/
def RaisesValueError {α : Type} (x : Except PyError α) : Prop := OnlyRaises (·.isValueError = true) x

/-! ### Headers -/

theorem parseHeaderLines_raises (lines : List Bytes) : RaisesValueError (parseHeaderLines lines) := by
  induction lines with
  | nil => exact onlyRaises_ok []
  | cons line lines ih =>
      rw [parseHeaderLines]
      split
      · exact onlyRaises_error.mpr rfl
      · exact ih.bind fun headers => onlyRaises_ok _

theorem parseHeaders_raises (raw : Bytes) : RaisesValueError (parseHeaders raw) := by
  unfold parseHeaders
  split
  · exact onlyRaises_ok _
  · split
    · exact onlyRaises_error.mpr rfl
    · exact (parseHeaderLines_raises _).bind fun headers => onlyRaises_ok _

theorem scanHeader_raises (f : Framing) (h : Header) : RaisesValueError (scanHeader f h) := by
  have hlength : RaisesValueError (scanLength f.cl h) := by
    unfold scanLength
    split
    · split
      · exact onlyRaises_error.mpr rfl
      · unfold intOfDigits
        split
        · exact onlyRaises_error.mpr rfl
        · exact onlyRaises_ok _
    · exact onlyRaises_ok _
  rw [scanHeader_eq]
  intro e he
  cases hscan : scanLength f.cl h with
  | ok cl =>
      rw [hscan] at he
      cases he
  | error e' =>
      rw [hscan] at he
      cases he
      exact hlength e hscan

theorem scanHeaders_raises (headers : List Header) : RaisesValueError (scanHeaders headers) :=
  OnlyRaises.foldlM scanHeader_raises headers _

/-! ### Chunks -/

/-- The repetition count is too large for `re`, and not too large to be written. -/
def IsLargeCount (n : Nat) : Prop :=
  reMaxRepeat ≤ n ∧ (Nat.toDigits 10 n).length ≤ intMaxStrDigits

theorem checkChunkPattern_raises_iff (n : Nat) :
    RaisesValueError (checkChunkPattern n) ↔ ¬ IsLargeCount n := by
  unfold checkChunkPattern checkStrDigits IsLargeCount
  split
  · next hlong => exact iff_of_true (onlyRaises_error.mpr rfl) (fun h => by omega)
  · next hshort =>
      rw [ok_bind]
      split
      · next hlarge =>
          rw [RaisesValueError, onlyRaises_error]
          exact iff_of_false Bool.false_ne_true (fun h => h ⟨hlarge, by omega⟩)
      · next hsmall => exact iff_of_true (onlyRaises_ok _) (fun h => hsmall h.1)

/-- At the front stands the header of a chunk whose length is such a count. -/
def LargeChunkHeader (rest : Bytes) : Prop :=
  ∃ length rest', chunkHeader.first rest = some (length, rest') ∧ IsLargeCount (digitsVal 16 length)

/-- The chunk loop gets to such a header. -/
inductive ReachesLargeChunk : Bytes → Prop
  | here {rest} (h : LargeChunkHeader rest) : ReachesLargeChunk rest
  | later {rest n data rest'} (h : parseChunk rest = .ok (n, data, rest')) (hn : n ≠ 0)
      (hlater : ReachesLargeChunk rest') : ReachesLargeChunk rest

theorem parseChunk_raises_iff (rest : Bytes) :
    RaisesValueError (parseChunk rest) ↔ ¬ LargeChunkHeader rest := by
  unfold parseChunk LargeChunkHeader
  cases hheader : chunkHeader.first rest with
  | none => exact iff_of_true (onlyRaises_error.mpr rfl) (fun h => by simp at h)
  | some m =>
      obtain ⟨length, rest'⟩ := m
      have hdata : RaisesValueError (checkChunkPattern (digitsVal 16 length)) ↔ ¬ ∃ length' rest'',
          some (length, rest') = some (length', rest'') ∧ IsLargeCount (digitsVal 16 length') := by
        rw [checkChunkPattern_raises_iff, not_iff_not]
        constructor
        · exact fun h => ⟨length, rest', rfl, h⟩
        · intro h
          obtain ⟨length', rest'', heq, h⟩ := h
          cases heq
          exact h
      rw [← hdata]
      refine onlyRaises_bind.trans (and_iff_left fun _ _ => ?_)
      split
      · exact onlyRaises_error.mpr rfl
      · exact onlyRaises_ok _

/-- After a chunk that is read, the rest decides. -/
theorem reachesLargeChunk_of_ok {rest data rest' : Bytes} {n : Nat}
    (h : parseChunk rest = .ok (n, data, rest')) :
    ReachesLargeChunk rest ↔ n ≠ 0 ∧ ReachesLargeChunk rest' := by
  constructor
  · intro hreach
    cases hreach with
    | here hlarge =>
        refine absurd hlarge ((parseChunk_raises_iff rest).mp ?_)
        rw [h]
        exact onlyRaises_ok _
    | later h' hn hlater =>
        rw [h] at h'
        cases h'
        exact ⟨hn, hlater⟩
  · exact fun hreach => .later h hreach.1 hreach.2

theorem parseChunks_raises_iff (body rest : Bytes) :
    RaisesValueError (parseChunks body rest) ↔ ¬ ReachesLargeChunk rest := by
  induction body, rest using parseChunks.induct with
  | case1 body rest e he =>
      have hhere := parseChunk_raises_iff rest
      rw [parseChunks_eq, he, error_bind, RaisesValueError, onlyRaises_error]
      rw [he, RaisesValueError, onlyRaises_error] at hhere
      refine hhere.trans (not_congr ⟨.here, fun hreach => ?_⟩)
      cases hreach with
      | here hlarge => exact hlarge
      | later h => rw [he] at h; cases h
  | case2 body rest data rest' hc =>
      rw [parseChunks_eq, hc, reachesLargeChunk_of_ok hc]
      exact iff_of_true (onlyRaises_ok _) fun h => h.1 rfl
  | case3 body rest n data rest' hc hn ih =>
      have hrec : parseChunks body rest = parseChunks (body ++ data) rest' := by
        rw [parseChunks_eq, hc]
        exact if_neg hn
      rw [hrec, ih, reachesLargeChunk_of_ok hc, and_iff_right hn]

/-! ### Messages -/

variable (gunzip : Bytes → Except GzipError Bytes)

/-- The body cannot be read for another reason than its form: the chunk loop gets to a length that
is too large, or the compressed data of a Content-Length body is bad. -/
def BodyFault (f : Framing) (rest : Bytes) : Prop :=
  (f.chunked = true ∧ f.gzipped = false ∧ ReachesLargeChunk rest) ∨
    (f.chunked = false ∧ f.gzipped = true ∧
      ∃ cl e, f.cl = some cl ∧ gunzip (rest.take cl) = .error e)

theorem gzipDecompress_raises_iff (body : Bytes) :
    RaisesValueError (gzipDecompress gunzip body) ↔ ¬ ∃ e, gunzip body = .error e := by
  unfold gzipDecompress
  cases gunzip body with
  | ok data => exact iff_of_true (onlyRaises_ok data) (fun h => by simp at h)
  | error e => exact iff_of_false (fun h => by cases h _ rfl) (fun h => h ⟨e, rfl⟩)

theorem readBody_raises_iff (f : Framing) (rest : Bytes) (isResponse : Bool) :
    RaisesValueError (readBody gunzip f rest isResponse) ↔ ¬ BodyFault gunzip f rest := by
  unfold readBody BodyFault
  split
  · next hclose =>
      obtain ⟨⟨-, hcl⟩, hchunked⟩ : (isResponse = true ∧ f.cl.isNone = true) ∧ f.chunked = false := by
        simpa using hclose
      refine iff_of_true (onlyRaises_ok _) ?_
      simp [hchunked, Option.isNone_iff_eq_none.mp hcl]
  · cases hchunked : f.chunked with
    | true =>
        cases hgzipped : f.gzipped with
        | true => exact iff_of_true (onlyRaises_error.mpr rfl) (by simp)
        | false => simpa using parseChunks_raises_iff [] rest
    | false =>
        cases hcl : f.cl with
        | none => exact iff_of_true (onlyRaises_ok _) (by simp)
        | some cl =>
            cases hgzipped : f.gzipped with
            | false => exact iff_of_true (onlyRaises_ok _) (by simp)
            | true =>
                have hgunzip := gzipDecompress_raises_iff gunzip (rest.take cl)
                have hbind : RaisesValueError (do
                    let body ← gzipDecompress gunzip (rest.take cl)
                    return (body, rest.drop cl)) ↔
                      RaisesValueError (gzipDecompress gunzip (rest.take cl)) :=
                  onlyRaises_bind.trans (and_iff_left fun _ _ => onlyRaises_ok _)
                simpa using hbind.trans hgunzip

theorem parseBody_raises_iff (headers : List Header) (rest : Bytes) (isResponse : Bool) :
    RaisesValueError (parseBody gunzip headers rest isResponse) ↔
      ¬ ∃ f, scanHeaders headers = .ok f ∧ BodyFault gunzip f rest := by
  unfold parseBody
  refine (onlyRaises_bind.trans (and_iff_right (scanHeaders_raises headers))).trans ?_
  simp only [not_exists, not_and]
  exact forall_congr' fun f => imp_congr_right fun _ => readBody_raises_iff gunzip f rest isResponse

/-- What follows the first line has headers that are read, and a body that is at fault. -/
def MessageFault (rest : Bytes) : Prop :=
  ∃ headers rest' f, parseHeaders rest = .ok (headers, rest') ∧ scanHeaders headers = .ok f ∧
    BodyFault gunzip f rest'

/-- What both parsers do behind the first line. -/
theorem message_raises_iff {α : Type} (rest : Bytes) (isResponse : Bool)
    (k : List Header → Bytes × Bytes → α) :
    RaisesValueError (do
      let p ← parseHeaders rest
      let m ← parseBody gunzip p.1 p.2 isResponse
      return k p.1 m) ↔ ¬ MessageFault gunzip rest := by
  have hbody (p : List Header × Bytes) :
      RaisesValueError (parseBody gunzip p.1 p.2 isResponse >>= fun m => return k p.1 m) ↔
        ¬ ∃ f, scanHeaders p.1 = .ok f ∧ BodyFault gunzip f p.2 :=
    (onlyRaises_bind.trans (and_iff_left fun m _ => onlyRaises_ok _)).trans
      (parseBody_raises_iff gunzip p.1 p.2 isResponse)
  refine (onlyRaises_bind.trans (and_iff_right (parseHeaders_raises rest))).trans ?_
  refine ⟨fun h hfault => ?_, fun h p hp => ?_⟩
  · obtain ⟨headers, rest', f, hheaders, hscan, hbad⟩ := hfault
    exact (hbody (headers, rest')).mp (h _ hheaders) ⟨f, hscan, hbad⟩
  · refine (hbody p).mpr fun hbad => ?_
    obtain ⟨f, hscan, hbad⟩ := hbad
    exact h ⟨p.1, p.2, f, hp, hscan, hbad⟩

/-- **The exceptions of the parsers.** A request or a response raises nothing but `ValueError`
exactly if its first line is not one or what follows it has no fault of that kind. -/
theorem parsers_raise_valueError_iff (raw : Bytes) :
    (RaisesValueError (parseRequest gunzip raw) ↔
      ∀ m rest, requestLine.first raw = some (m, rest) → ¬ MessageFault gunzip rest) ∧
    (RaisesValueError (parseResponse gunzip raw) ↔
      ∀ m rest, responseLine.first raw = some (m, rest) → ¬ MessageFault gunzip rest) := by
  refine ⟨?_, ?_⟩
  · unfold parseRequest
    cases hline : requestLine.first raw with
    | none => exact iff_of_true (onlyRaises_error.mpr rfl) (by simp)
    | some m =>
        obtain ⟨⟨method, uri, version⟩, rest⟩ := m
        simp only [Option.some.injEq, Prod.mk.injEq, and_imp]
        refine (message_raises_iff gunzip rest false fun headers m =>
          (HTTPRequest.mk method uri headers m.1 (version.getD (bytes "0.9")), m.2)).trans ?_
        exact ⟨fun h _ _ _ hrest => hrest ▸ h, fun h => h _ rest rfl rfl⟩
  · unfold parseResponse
    cases hline : responseLine.first raw with
    | none => exact iff_of_true (onlyRaises_error.mpr rfl) (by simp)
    | some m =>
        obtain ⟨⟨version, code, reason⟩, rest⟩ := m
        simp only [Option.some.injEq, Prod.mk.injEq, and_imp]
        refine (message_raises_iff gunzip rest true fun headers m =>
          (HTTPResponse.mk (if bytes "HTTP/" <+: version then version.drop 5 else version) code
            reason headers m.1, m.2)).trans ?_
        exact ⟨fun h _ _ _ hrest => hrest ▸ h, fun h => h _ rest rfl rfl⟩

/-- A chunk of `2^32 - 1` bytes is announced. -/
def largeChunkRequest : Bytes :=
  bytes "POST / HTTP/1.1\r\nTransfer-Encoding: chunked\r\n\r\nffffffff\r\n"

/-- A response whose body is not a gzip file, as its header says. -/
def badGzipResponse : Bytes :=
  bytes "HTTP/1.1 200 OK\r\nContent-Length: 2\r\nContent-Encoding: gzip\r\n\r\nhi"

/-- The length of a chunk lets an `OverflowError` out, and the body of a response what
`gzip.decompress` raises. -/
theorem not_parsers_raise_valueError :
    (¬ ∀ gunzip raw, RaisesValueError (parseRequest gunzip raw)) ∧
      ¬ ∀ gunzip raw, RaisesValueError (parseResponse gunzip raw) := by
  refine ⟨fun h => ?_, fun h => ?_⟩
  · have hchunk : parseRequest (fun _ => .error .badGzipFile) largeChunkRequest =
        .error (.overflowError "the repetition number is too large") := by
      decide +kernel
    exact absurd (h _ _ _ hchunk) (by decide)
  · have hgzip : parseResponse (fun _ => .error .badGzipFile) badGzipResponse =
        .error (.gzip .badGzipFile) := by
      decide +kernel
    exact absurd (h _ _ _ hgzip) (by decide)

end HttpGarden
