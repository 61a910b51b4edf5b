import HttpGarden.Http1.Unparse
import HttpGarden.Targets.Transducer

/-!
# HttpGarden.Echo.H1

`echo_server.py`: **`handle_h1_connection`**, and what the collector of `targets.py` makes
of what it sends.

* `collectLoop_echoResponses`: whatever bytes were echoed, the collector takes the
  responses apart into exactly these.
-/

namespace HttpGarden

open Lib Pattern

/-! ### The handler -/

/-- The headers of a response that echoes `n` bytes. -/
def echoHeaders (n : Nat) : List Header :=
  [(bytes "Cache-Control", bytes "public, max-age=2592000"), (bytes "Server", bytes "echo-python"),
    (bytes "Content-Length", digitBytes 10 n)]

/-- The response to `bytes_recved`. -/
def echoResponse (bytesRecved : Bytes) : Bytes :=
  bytes "HTTP/1.1 200 OK\r\nCache-Control: public, max-age=2592000\r\nServer: echo-python\r\nContent-Length: " ++
    digitBytes 10 bytesRecved.length ++ bytes "\r\n\r\n" ++ bytesRecved

/-- What the socket does in one iteration of the loop in `handle_h1_connection`: `sendall`
or `recvall` raises one of the exceptions that are caught, or `recvall` returns `b`. -/
inductive H1Round
  | raises
  | recvs (b : Bytes)

/-- `handle_h1_connection`: what it sends, while the socket has something to say. -/
def handleH1Connection (bytesRecved : Bytes) : List H1Round → List Bytes
  | [] => [echoResponse bytesRecved]
  | .raises :: _ => [echoResponse bytesRecved]
  | .recvs b :: rounds =>
    if b = [] then [echoResponse bytesRecved]
    else echoResponse bytesRecved :: handleH1Connection b rounds

/-- The byte strings that a connection has answered. -/
def answered (bytesRecved : Bytes) : List H1Round → List Bytes
  | [] => [bytesRecved]
  | .raises :: _ => [bytesRecved]
  | .recvs b :: rounds => if b = [] then [bytesRecved] else bytesRecved :: answered b rounds

/-- **A connection** sends one response for each. -/
theorem handleH1Connection_eq (bytesRecved : Bytes) (rounds : List H1Round) :
    handleH1Connection bytesRecved rounds = (answered bytesRecved rounds).map echoResponse := by
  induction rounds generalizing bytesRecved with
  | nil => rfl
  | cons round rounds ih =>
      cases round with
      | raises => rfl
      | recvs b =>
          rw [handleH1Connection, answered]
          split
          · rfl
          · rw [ih, List.map_cons]

/-! ### Parsing a response -/

theorem isSpace_of_isDigitByte {c : UInt8} (h : isDigitByte c = true) : isSpace c = false := by
  unfold isDigitByte at h
  unfold isSpace
  grind

/-- A status line is matched greedily up to the reason, which takes as little as it can. -/
theorem responseLine_first {version code reason : Bytes} (hversion : IsToken version)
    (hcode : code ≠ [] ∧ ∀ c ∈ code, isDigitByte c = true) (hreason : reason ≠ [] ∧ IsLine reason)
    (hstop : Stops isSpace reason) (s : Bytes) :
    responseLine.first (version ++ (bytes " " ++ (code ++ (bytes " " ++ (reason ++ (crlf ++ s)))))) =
      some ((version, code, reason), s) := by
  have hblank (t : Bytes) (ht : Stops isSpace t) :
      (many1 fun c => isSpace c && c != lf).first ([32] ++ t) = some ([32], t) := by
    refine first_many1 (List.cons_ne_nil _ _) (by simp [isSpace, lf]) ?_
    intro c hc
    simp only [ht c hc, Bool.false_and]
  have hdigits : Stops isSpace (code ++ ([32] ++ (reason ++ (crlf ++ s)))) := by
    obtain ⟨c, code, rfl⟩ := List.exists_cons_of_ne_nil hcode.1
    exact stops_cons.mpr (isSpace_of_isDigitByte (hcode.2 c List.mem_cons_self))
  have htext : Stops isSpace (reason ++ (crlf ++ s)) := by
    obtain ⟨c, reason, rfl⟩ := List.exists_cons_of_ne_nil hreason.1
    exact stops_cons.mpr (stops_cons.mp hstop)
  have hline : ∀ c ∈ reason, (c != lf) = true := by
    intro c hc
    rw [bne_iff_ne]
    rintro rfl
    exact hreason.2 hc
  rw [bytes_space]
  refine first_bind (first_many1 hversion.1 (fun c hc => ?_) (stops_cons.mpr rfl)) ?_
  · rw [hversion.2 c hc]
    rfl
  refine first_bind (hblank _ hdigits) ?_
  refine first_bind (first_many1 hcode.1 hcode.2 (stops_cons.mpr rfl)) ?_
  refine first_bind (hblank _ htext) ?_
  refine first_lazyMany_bind hline (first_bind (newline_first_crlf s) rfl) ?_
  -- within the reason there is no line break
  intro x₁ x₂ hx hne
  obtain ⟨c, x, rfl⟩ := List.exists_cons_of_ne_nil hne
  rw [hx] at hreason
  obtain ⟨hc, hl⟩ := isLine_cons.mp (isLine_append.mp hreason.2).2
  have hnone := newline_first_eq_none hc (lf_not_mem_head (s := s) hl)
  rw [first_eq_none_iff] at hnone ⊢
  intro a s' hm
  obtain ⟨u, s₁, hnewline, -⟩ := matches_bind.mp hm
  refine hnone u s₁ ?_
  rw [List.append_assoc]
  exact hnewline

theorem isDigitByte_of_mem {n : Nat} {c : UInt8} (hc : c ∈ digitBytes 10 n) :
    isDigitByte c = true := by
  obtain ⟨d, hd, rfl⟩ := exists_digit_of_mem (by decide) hc
  exact isDigitByte_digitByte hd

/-- A number that is not too long for `int()` is read back from its decimal digits. -/
theorem intOfDigits_digitBytes {n : Nat} (h : n ≤ sysMaxsize) :
    intOfDigits (digitBytes 10 n) = .ok n := by
  have hlen : (digitBytes 10 n).length ≤ 19 := by
    rw [digitBytes, List.length_map]
    exact Nat.toDigits_length 10 n 19 (by decide) (lt_of_le_of_lt h (by decide))
  have hlimit : ¬ (digitBytes 10 n).length > intMaxStrDigits := by
    rw [intMaxStrDigits]
    omega
  rw [intOfDigits, if_neg hlimit, digitsVal_digitBytes (by decide) (by decide)]

theorem isHeader_contentLength (n : Nat) : IsHeader (bytes "Content-Length", digitBytes 10 n) := by
  have hspace (c : UInt8) (hc : c ∈ digitBytes 10 n) : isSpace c = false :=
    isSpace_of_isDigitByte (isDigitByte_of_mem hc)
  have hblank (c : UInt8) (hc : c ∈ digitBytes 10 n) : isBlank c = false := by
    have := hspace c hc
    unfold isSpace at this
    unfold isBlank
    grind
  have hname : bytes "Content-Length" ≠ [] ∧ ∀ c ∈ bytes "Content-Length", c ≠ colon ∧ c ≠ lf := by
    decide +kernel
  refine ⟨hname.1, hname.2, fun hlf => ?_, fun c hc => ?_, fun c hc => ?_⟩
  · exact absurd (hspace lf hlf) (by decide)
  · exact hblank c (List.mem_of_mem_head? hc)
  · exact hblank c (List.mem_reverse.mp (List.mem_of_mem_head? hc))

theorem isHeader_echoHeaders (n : Nat) : ∀ h ∈ echoHeaders n, IsHeader h := by
  have hcache : IsHeader (bytes "Cache-Control", bytes "public, max-age=2592000") := by
    refine ⟨by decide +kernel, by decide +kernel, ?_, ?_⟩
    · unfold IsLine
      decide
    · unfold Trimmed Stops
      decide +kernel
  have hserver : IsHeader (bytes "Server", bytes "echo-python") := by
    refine ⟨by decide +kernel, by decide +kernel, ?_, ?_⟩
    · unfold IsLine
      decide
    · unfold Trimmed Stops
      decide +kernel
  simp only [echoHeaders, List.forall_mem_cons]
  exact ⟨hcache, hserver, isHeader_contentLength n, fun h hh => absurd hh List.not_mem_nil⟩

/-- A header with the length. -/
theorem scanHeader_contentLength {n : Nat} (h : n ≤ sysMaxsize) :
    scanHeader ⟨none, [], []⟩ (bytes "Content-Length", digitBytes 10 n) = .ok ⟨some n, [], []⟩ := by
  have hname : lower (bytes "Content-Length") = bytes "content-length" ∧
      lower (bytes "Content-Length") ≠ bytes "transfer-encoding" ∧
      lower (bytes "Content-Length") ≠ bytes "content-encoding" := by decide
  have hte : framingValues (bytes "transfer-encoding") [(bytes "Content-Length", digitBytes 10 n)] =
      [] := by
    rw [framingValues_cons, if_neg hname.2.1]
    rfl
  have hce : framingValues (bytes "content-encoding") [(bytes "Content-Length", digitBytes 10 n)] =
      [] := by
    rw [framingValues_cons, if_neg hname.2.2]
    rfl
  have hascii : isAscii (digitBytes 10 n) = true := by
    rw [isAscii, List.all_eq_true]
    intro c hc
    have := isDigitByte_of_mem hc
    unfold isDigitByte at this
    grind
  have hdigit : isDigit (digitBytes 10 n) = true := by
    rw [isDigit, List.isEmpty_eq_false_iff.mpr (digitBytes_ne_nil 10 n), Bool.not_false,
      Bool.true_and, List.all_eq_true]
    exact fun c hc => isDigitByte_of_mem hc
  have hlength : scanLength none (bytes "Content-Length", digitBytes 10 n) = .ok (some n) := by
    rw [scanLength, if_pos hname.1, hascii, hdigit, intOfDigits_digitBytes h]
    rfl
  rw [scanHeader_eq, hlength, hte, hce]
  rfl

/-- Of the headers, only the length is about the framing. -/
theorem scanHeaders_echoHeaders {n : Nat} (h : n ≤ sysMaxsize) :
    scanHeaders (echoHeaders n) = .ok ⟨some n, [], []⟩ := by
  have hothers : [(bytes "Cache-Control", bytes "public, max-age=2592000"),
      (bytes "Server", bytes "echo-python")].foldlM scanHeader ⟨none, [], []⟩ =
        .ok ⟨none, [], []⟩ := by decide
  have hsplit : echoHeaders n = [(bytes "Cache-Control", bytes "public, max-age=2592000"),
      (bytes "Server", bytes "echo-python")] ++ [(bytes "Content-Length", digitBytes 10 n)] := rfl
  rw [scanHeaders, hsplit, List.foldlM_append, hothers, ok_bind, List.foldlM_cons,
    scanHeader_contentLength h]
  rfl

theorem echoResponse_eq (b : Bytes) :
    echoResponse b = bytes "HTTP/1.1" ++ (bytes " " ++ (bytes "200" ++ (bytes " " ++ (bytes "OK" ++
      (crlf ++ ((echoHeaders b.length).flatMap unparseHeader ++ (crlf ++ b))))))) := by
  have hhead : bytes "HTTP/1.1 200 OK\r\nCache-Control: public, max-age=2592000\r\nServer: echo-python\r\nContent-Length: " =
      bytes "HTTP/1.1" ++ (bytes " " ++ (bytes "200" ++ (bytes " " ++ (bytes "OK" ++ (crlf ++
        (bytes "Cache-Control" ++ (bytes ": " ++ (bytes "public, max-age=2592000" ++ (crlf ++
          (bytes "Server" ++ (bytes ": " ++ (bytes "echo-python" ++ (crlf ++
            (bytes "Content-Length" ++ bytes ": ")))))))))))))) := by decide
  have hend : bytes "\r\n\r\n" = crlf ++ crlf := by decide
  rw [echoResponse, hhead, hend]
  simp only [echoHeaders, List.flatMap_cons, List.flatMap_nil, unparseHeader, List.append_assoc,
    List.nil_append]

variable {gunzip : Bytes → Except GzipError Bytes}

/-- A response with the given headers, in the version that the servers use. -/
theorem parseResponse_of_parts {code reason : Bytes} {headers : List Header} {s body rest : Bytes}
    (hcode : code ≠ [] ∧ ∀ c ∈ code, isDigitByte c = true) (hreason : reason ≠ [] ∧ IsLine reason)
    (hstop : Stops isSpace reason) (hheaders : ∀ h ∈ headers, IsHeader h)
    (hbody : parseBody gunzip headers s true = .ok (body, rest)) :
    parseResponse gunzip (bytes "HTTP/1.1" ++ (bytes " " ++ (code ++ (bytes " " ++ (reason ++ (crlf ++
      (headers.flatMap unparseHeader ++ (crlf ++ s)))))))) =
      .ok (⟨bytes "1.1", code, reason, headers, body⟩, rest) := by
  have hversion : IsToken (bytes "HTTP/1.1") := by simp [IsToken, bytes, isSpace]
  have hstrip : (if bytes "HTTP/" <+: bytes "HTTP/1.1" then (bytes "HTTP/1.1").drop 5
      else bytes "HTTP/1.1") = bytes "1.1" := by decide
  unfold parseResponse
  simp only [responseLine_first hversion hcode hreason hstop, parseHeaders_unparse hheaders, ok_bind,
    hbody, hstrip]
  rfl

/-- The status of an echoed response. -/
theorem status_ok : (bytes "200" ≠ [] ∧ ∀ c ∈ bytes "200", isDigitByte c = true) ∧
    (bytes "OK" ≠ [] ∧ IsLine (bytes "OK")) ∧ Stops isSpace (bytes "OK") := by
  simp [bytes, isDigitByte, IsLine, lf, Stops, isSpace]

/-- A body of the announced length. -/
theorem parseBody_of_length {headers : List Header} {b : Bytes}
    (h : scanHeaders headers = .ok ⟨some b.length, [], []⟩) (s : Bytes) :
    parseBody gunzip headers (b ++ s) true = .ok (b, s) := by
  rw [parseBody, h, ok_bind]
  show Except.ok ((b ++ s).take b.length, (b ++ s).drop b.length) = _
  rw [List.take_left, List.drop_left]

/-- **An echoed response** is parsed up to its end, and its body is what was echoed. -/
theorem parseResponse_echoResponse {b : Bytes} (hb : b.length ≤ sysMaxsize) (s : Bytes) :
    parseResponse gunzip (echoResponse b ++ s) =
      .ok (⟨bytes "1.1", bytes "200", bytes "OK", echoHeaders b.length, b⟩, s) := by
  obtain ⟨hcode, hreason, hstop⟩ := status_ok
  rw [echoResponse_eq]
  simp only [List.append_assoc]
  exact parseResponse_of_parts hcode hreason hstop (isHeader_echoHeaders b.length)
    (parseBody_of_length (scanHeaders_echoHeaders hb) s)

/-! ### Collecting the responses -/

/-- One response is one iteration of the collector. -/
theorem collectLoop_echoResponse {b : Bytes} (hb : b.length ≤ sysMaxsize) {st : CollectState}
    {s : Bytes} (hs : st.remaining = echoResponse b ++ s) :
    ∃ response, collectLoop gunzip st = .again ⟨s, response, st.pieces ++ [b]⟩ := by
  have hparse : parseResponse gunzip st.remaining =
      .ok (⟨bytes "1.1", bytes "200", bytes "OK", echoHeaders b.length, b⟩, s) := by
    rw [hs]
    exact parseResponse_echoResponse hb s
  exact ⟨_, collectLoop_of_ok gunzip st hparse⟩

theorem collectLoop_echoResponses_from {bs : List Bytes} (hbs : ∀ b ∈ bs, b.length ≤ sysMaxsize)
    {st : CollectState} (hs : st.remaining = bs.flatMap echoResponse) :
    (collectLoop gunzip).Returns st (.ok (st.pieces ++ bs)) := by
  induction bs generalizing st with
  | nil =>
      refine ⟨st, Loop.Reaches.refl _ _, ?_⟩
      rw [List.flatMap_nil] at hs
      rw [collectLoop, if_pos hs, List.append_nil]
  | cons b bs ih =>
      obtain ⟨hb, hbs⟩ := List.forall_mem_cons.mp hbs
      obtain ⟨response, hagain⟩ : ∃ response, collectLoop gunzip st =
          .again ⟨bs.flatMap echoResponse, response, st.pieces ++ [b]⟩ :=
        collectLoop_echoResponse hb hs
      have hrest : (collectLoop gunzip).Returns ⟨bs.flatMap echoResponse, response, st.pieces ++ [b]⟩
          (.ok (st.pieces ++ [b] ++ bs)) := ih hbs rfl
      rw [List.append_assoc] at hrest
      exact Loop.Returns.of_again hagain hrest

/-- **The collector** returns exactly the byte strings that were echoed, whatever they
contain. A byte string is a possible `bytes` object: not longer than `sys.maxsize`. -/
theorem collectLoop_echoResponses {bs : List Bytes} (hbs : ∀ b ∈ bs, b.length ≤ sysMaxsize) :
    (collectLoop gunzip).Returns (.init (bs.flatMap echoResponse)) (.ok bs) :=
  collectLoop_echoResponses_from hbs rfl

theorem collectLoop_echoResponses_lookalike :
    (collectLoop fun _ => .error .badGzipFile).Returns
      (.init ([bytes "HTTP/1.1 200 OK\r\nContent-Length: 1\r\n\r\n", [], bytes "0\r\n\r\n"].flatMap
        echoResponse))
      (.ok [bytes "HTTP/1.1 200 OK\r\nContent-Length: 1\r\n\r\n", [], bytes "0\r\n\r\n"]) :=
  collectLoop_echoResponses (by decide)

end HttpGarden
