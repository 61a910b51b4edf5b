import HttpGarden.Http1.Lines
import HttpGarden.Http1.Stream

/-!
# HttpGarden.Http1.ChunkedBody

**Chunked bodies** in every form that a sender may write, and that `parse_body` reads
nothing else.

A chunk is a size line, its data and `\r\n`. The size line has the length in hex digits of
either case, with leading zeros or without, then any text, and ends in either line break.
`parseBody_chunked_iff` says that the parser returns exactly on texts made of such chunks,
behind headers whose lengths can be read.
-/

namespace HttpGarden

open Lib Pattern

/-! ### Chunks -/

/-- The line in front of the data of a chunk. -/
structure SizeLine where
  digits : Bytes
  extension : Bytes
  ending : LineEnd
  digits_ne_nil : digits ≠ []
  digits_hex : ∀ c ∈ digits, isHexDigit c = true
  extension_line : IsLine extension
  extension_stops : Stops isHexDigit extension

def SizeLine.size (l : SizeLine) : Nat := digitsVal 16 l.digits

def SizeLine.text (l : SizeLine) : Bytes := l.digits ++ (l.extension ++ l.ending.bytes)

/-- A chunk whose length is written in its size line. -/
structure Chunk where
  line : SizeLine
  data : Bytes
  size_eq : line.size = data.length
  length_lt : data.length < reMaxRepeat

def Chunk.text (c : Chunk) : Bytes := c.line.text ++ (c.data ++ crlf)

/-- The chunks and the last one. -/
def chunkedText (chunks : List Chunk) (last : Chunk) : Bytes := (chunks.flatMap Chunk.text) ++ last.text

/-- The text is that of chunks with data and a last one without, and what follows them. -/
def ChunkedForm (raw body tail : Bytes) : Prop :=
  ∃ chunks last, (∀ c ∈ chunks, c.data ≠ []) ∧ last.data = [] ∧
    raw = chunkedText chunks last ++ tail ∧ body = chunks.flatMap Chunk.data

/-! ### The size line -/

/-- The length is matched greedily, and the rest of the line after it. -/
theorem SizeLine.chunkHeader_first (l : SizeLine) (s : Bytes) :
    chunkHeader.first (l.text ++ s) = some (l.digits, s) := by
  -- a carriage return goes to the text before the line feed
  obtain ⟨w, hw, hline, hstop⟩ : ∃ w, l.extension ++ (l.ending.bytes ++ s) = w ++ (lf :: s) ∧
      IsLine w ∧ Stops isHexDigit (w ++ (lf :: s)) := by
    have hcr : IsLine [cr] := by simp [IsLine, cr, lf]
    cases hending : l.ending with
    | lf =>
        exact ⟨l.extension, rfl, l.extension_line, stops_append_cons l.extension_stops rfl s⟩
    | crlf =>
        refine ⟨l.extension ++ [cr], ?_, isLine_append.mpr ⟨l.extension_line, hcr⟩, ?_⟩
        · rw [List.append_assoc]
          rfl
        · rw [List.append_assoc]
          exact stops_append_cons l.extension_stops rfl (lf :: s)
  have hrun : ∀ c ∈ w, (c != lf) = true := by
    intro c hc
    rw [bne_iff_ne]
    intro hlf
    exact hline (hlf ▸ hc)
  have hnewline : newline.first (lf :: s) = some ((), s) := rfl
  rw [SizeLine.text, List.append_assoc, List.append_assoc, hw]
  refine first_bind (first_many1 l.digits_ne_nil l.digits_hex hstop) ?_
  exact first_bind (first_many hrun (stops_cons.mpr rfl)) (first_bind hnewline rfl)

theorem exists_lineEnd {s t : Bytes} {u : Unit} (h : newline.Matches s u t) :
    ∃ e : LineEnd, s = e.bytes ++ t := by
  rcases matches_newline.mp h with h | h
  · exact ⟨.lf, h⟩
  · exact ⟨.crlf, h⟩

/-- **A size line** is what the pattern matches. -/
theorem exists_sizeLine {s digits t : Bytes} (h : chunkHeader.first s = some (digits, t)) :
    ∃ l : SizeLine, l.digits = digits ∧ s = l.text ++ t := by
  have hm := matches_of_first h
  simp only [chunkHeader, matches_bind, matches_many1, matches_many, matches_pure] at hm
  obtain ⟨x, s₁, ⟨hne, rfl, hx⟩, y, s₂, ⟨rfl, hy⟩, u, s₃, hn, -, rfl⟩ := hm
  obtain ⟨ending, rfl⟩ := exists_lineEnd hn
  have hline : IsLine y := by
    intro hlf
    exact absurd (hy lf hlf) (by decide)
  -- digits that the text begins with belong to the length
  have hsplit : y.takeWhile isHexDigit ++ y.dropWhile isHexDigit = y := List.takeWhile_append_dropWhile
  let l : SizeLine := {
    digits := x ++ y.takeWhile isHexDigit
    extension := y.dropWhile isHexDigit
    ending := ending
    digits_ne_nil := by simp [hne]
    digits_hex := List.forall_mem_append.mpr ⟨hx, fun c hc => List.mem_takeWhile_imp hc⟩
    extension_line := (isLine_append.mp (hsplit.symm ▸ hline)).2
    extension_stops := stops_dropWhile isHexDigit y }
  have htext : x ++ (y ++ (ending.bytes ++ t)) = l.text ++ t := by
    show _ = (x ++ y.takeWhile isHexDigit) ++ (y.dropWhile isHexDigit ++ ending.bytes) ++ t
    rw [List.append_assoc, List.append_assoc, List.append_assoc,
      ← List.append_assoc (y.takeWhile isHexDigit), hsplit]
  rw [htext, l.chunkHeader_first, Option.some.injEq, Prod.mk.injEq] at h
  exact ⟨l, h.1, htext⟩

/-! ### One chunk -/

theorem chunkData_first (p s : Bytes) :
    (chunkData p.length).first (p ++ (crlf ++ s)) = some (p, s) :=
  first_bind first_exactly (first_bind (first_word crlf s) rfl)

theorem checkChunkPattern_of_lt {n : Nat} (h : n < reMaxRepeat) : checkChunkPattern n = .ok () := by
  have hdigits : (Nat.toDigits 10 n).length ≤ 10 :=
    Nat.toDigits_length 10 n 10 (by decide) (h.trans (by decide))
  have hlimit : ¬ (Nat.toDigits 10 n).length > intMaxStrDigits := by
    rw [intMaxStrDigits]
    omega
  rw [checkChunkPattern, checkStrDigits, if_neg hlimit, ok_bind, if_neg (by omega)]
  rfl

theorem checkChunkPattern_of_ge {n : Nat} (h : reMaxRepeat ≤ n) : checkChunkPattern n ≠ .ok () := by
  intro hok
  obtain ⟨-, -, hok⟩ := bind_eq_ok.mp hok
  rw [if_pos h] at hok
  cases hok

theorem parseChunk_text (c : Chunk) (s : Bytes) :
    parseChunk (c.text ++ s) = .ok (c.data.length, c.data, s) := by
  have hsize : digitsVal 16 c.line.digits = c.data.length := c.size_eq
  unfold parseChunk Chunk.text
  simp only [List.append_assoc, c.line.chunkHeader_first, hsize, checkChunkPattern_of_lt c.length_lt,
    chunkData_first, ok_bind]
  rfl

/-- **An iteration of the loop** reads a chunk and returns its data. -/
theorem parseChunk_eq_ok {s data rest : Bytes} {n : Nat} :
    parseChunk s = .ok (n, data, rest) ↔
      ∃ c : Chunk, n = c.data.length ∧ data = c.data ∧ s = c.text ++ rest := by
  refine ⟨fun h => ?_, fun h => ?_⟩
  · unfold parseChunk at h
    cases hheader : chunkHeader.first s with
    | none =>
        rw [hheader] at h
        cases h
    | some m =>
        obtain ⟨digits, t⟩ := m
        simp only [hheader] at h
        obtain ⟨hcheck, h⟩ := check_bind_eq_ok.mp h
        cases hdata : (chunkData (digitsVal 16 digits)).first t with
        | none =>
            rw [hdata] at h
            cases h
        | some found =>
            obtain ⟨data', rest'⟩ := found
            simp only [hdata, pure_eq_ok, Except.ok.injEq, Prod.mk.injEq] at h
            obtain ⟨rfl, rfl, rfl⟩ := h
            obtain ⟨line, rfl, rfl⟩ := exists_sizeLine hheader
            have hm := matches_of_first hdata
            simp only [chunkData, matches_bind, matches_exactly, matches_word, matches_pure] at hm
            obtain ⟨x, s₁, ⟨ht, hlen⟩, -, s₂, hs₁, hx, hs₂⟩ := hm
            rw [← hx] at ht hlen
            have hlt : data'.length < reMaxRepeat := by
              by_contra hge
              exact checkChunkPattern_of_ge (not_lt.mp hge) (hlen ▸ hcheck)
            refine ⟨⟨line, data', hlen.symm, hlt⟩, hlen.symm, rfl, ?_⟩
            rw [ht, hs₁, ← hs₂]
            simp [Chunk.text, crlf]
  · obtain ⟨c, rfl, rfl, rfl⟩ := h
    exact parseChunk_text c rest

/-! ### The loop -/

theorem parseChunks_text_last {c : Chunk} (hc : c.data = []) (body tail : Bytes) :
    parseChunks body (c.text ++ tail) = .ok (body, tail) := by
  rw [parseChunks_eq, parseChunk_text, ok_bind, hc]
  simp

theorem parseChunks_text {c : Chunk} (hc : c.data ≠ []) (body s : Bytes) :
    parseChunks body (c.text ++ s) = parseChunks (body ++ c.data) s := by
  have hlen : c.data.length ≠ 0 := fun h => hc (List.length_eq_zero_iff.mp h)
  rw [parseChunks_eq, parseChunk_text, ok_bind]
  exact if_neg hlen

theorem parseChunks_chunkedText {chunks : List Chunk} {last : Chunk}
    (hchunks : ∀ c ∈ chunks, c.data ≠ []) (hlast : last.data = []) (body tail : Bytes) :
    parseChunks body (chunkedText chunks last ++ tail) =
      .ok (body ++ chunks.flatMap Chunk.data, tail) := by
  induction chunks generalizing body with
  | nil => rw [List.flatMap_nil, List.append_nil]; exact parseChunks_text_last hlast body tail
  | cons c chunks ih =>
      obtain ⟨hc, hchunks⟩ := List.forall_mem_cons.mp hchunks
      have htext : chunkedText (c :: chunks) last ++ tail =
          c.text ++ (chunkedText chunks last ++ tail) := by
        simp [chunkedText]
      rw [htext, parseChunks_text hc, ih hchunks, List.flatMap_cons, List.append_assoc]

/-- **The loop** returns on chunks and nothing else. -/
theorem parseChunks_eq_ok {body s body' tail : Bytes} :
    parseChunks body s = .ok (body', tail) ↔
      ∃ data, body' = body ++ data ∧ ChunkedForm s data tail := by
  refine ⟨fun h => ?_, fun h => ?_⟩
  · induction body, s using parseChunks.induct with
    | case1 body s e he =>
        rw [parseChunks_eq, he] at h
        cases h
    | case2 body s data rest hc =>
        rw [parseChunks_eq, hc] at h
        cases h
        obtain ⟨c, hzero, rfl, rfl⟩ := parseChunk_eq_ok.mp hc
        have hnil : c.data = [] := List.length_eq_zero_iff.mp hzero.symm
        refine ⟨[], by rw [hnil], [], c, ?_, hnil, rfl, rfl⟩
        exact fun c hc => absurd hc List.not_mem_nil
    | case3 body s n data rest hc hn ih =>
        have hrec : parseChunks body s = parseChunks (body ++ data) rest := by
          rw [parseChunks_eq, hc]
          exact if_neg hn
        obtain ⟨more, hbody, chunks, last, hchunks, hlast, rfl, rfl⟩ := ih (hrec ▸ h)
        obtain ⟨c, rfl, rfl, rfl⟩ := parseChunk_eq_ok.mp hc
        have hne : c.data ≠ [] := fun hnil => hn (List.length_eq_zero_iff.mpr hnil)
        refine ⟨c.data ++ chunks.flatMap Chunk.data, ?_, c :: chunks, last,
          List.forall_mem_cons.mpr ⟨hne, hchunks⟩, hlast, ?_, rfl⟩
        · rw [hbody, List.append_assoc]
        · simp [chunkedText]
  · obtain ⟨data, rfl, chunks, last, hchunks, hlast, rfl, rfl⟩ := h
    exact parseChunks_chunkedText hchunks hlast body tail

/-! ### The body -/

/-- A length that the loop over the headers can read. -/
def IsLength (v : Bytes) : Prop :=
  isAscii v = true ∧ isDigit v = true ∧ v.length ≤ intMaxStrDigits

theorem scanHeader_ok_iff (f : Framing) (h : Header) :
    (∃ g, scanHeader f h = .ok g) ↔ (lower h.1 = bytes "content-length" → IsLength h.2) := by
  rw [scanHeader_eq]
  unfold scanLength IsLength
  by_cases hname : lower h.1 = bytes "content-length"
  · rw [if_pos hname]
    by_cases hvalue : (!isAscii h.2 || !isDigit h.2) = true
    · rw [if_pos hvalue]
      refine iff_of_false (fun hok => ?_) fun hlength => ?_
      · obtain ⟨g, hg⟩ := hok
        cases hg
      · obtain ⟨hascii, hdigit, -⟩ := hlength hname
        simp [hascii, hdigit] at hvalue
    · obtain ⟨hascii, hdigit⟩ : isAscii h.2 = true ∧ isDigit h.2 = true := by simpa using hvalue
      rw [if_neg hvalue, intOfDigits]
      split
      · next hlong =>
          refine iff_of_false (fun hok => ?_) fun hlength => ?_
          · obtain ⟨g, hg⟩ := hok
            cases hg
          · exact absurd (hlength hname).2.2 (by omega)
      · next hshort => exact iff_of_true ⟨_, rfl⟩ fun _ => ⟨hascii, hdigit, by omega⟩
  · rw [if_neg hname]
    exact iff_of_true ⟨_, rfl⟩ fun h => absurd h hname

theorem scanHeaders_ok_iff (headers : List Header) :
    (∃ f, scanHeaders headers = .ok f) ↔
      ∀ h ∈ headers, lower h.1 = bytes "content-length" → IsLength h.2 :=
  foldlM_ok_iff scanHeader_ok_iff headers _

theorem readBody_chunked {gunzip : Bytes → Except GzipError Bytes} {f : Framing}
    (hchunked : f.chunked = true) (hgzipped : f.gzipped = false) (raw : Bytes) (isResponse : Bool) :
    readBody gunzip f raw isResponse = parseChunks [] raw := by
  simp [readBody, hchunked, hgzipped]

variable (gunzip : Bytes → Except GzipError Bytes)

/-- **Chunked bodies** are decoded exactly, if every length in the headers can be read. -/
theorem parseBody_chunked_iff (headers : List Header) (raw body tail : Bytes) (isResponse : Bool)
    (hte : bytes "chunked" ∈ framingValues (bytes "transfer-encoding") headers)
    (hce : bytes "gzip" ∉ framingValues (bytes "content-encoding") headers) :
    parseBody gunzip headers raw isResponse = .ok (body, tail) ↔
      (∀ h ∈ headers, lower h.1 = bytes "content-length" → IsLength h.2) ∧
        ChunkedForm raw body tail := by
  have hread {f : Framing} (hf : scanHeaders headers = .ok f) :
      readBody gunzip f raw isResponse = .ok (body, tail) ↔ ChunkedForm raw body tail := by
    obtain ⟨hteValues, hceValues⟩ := scanHeaders_values hf
    have hchunked : f.chunked = true := by simpa [Framing.chunked, hteValues] using hte
    have hgzipped : f.gzipped = false := by simpa [Framing.gzipped, hceValues] using hce
    rw [readBody_chunked hchunked hgzipped, parseChunks_eq_ok]
    simp
  rw [← scanHeaders_ok_iff, parseBody, bind_eq_ok]
  refine ⟨fun h => ?_, fun h => ?_⟩
  · obtain ⟨f, hf, hbody⟩ := h
    exact ⟨⟨f, hf⟩, (hread hf).mp hbody⟩
  · obtain ⟨⟨f, hf⟩, hform⟩ := h
    exact ⟨f, hf, (hread hf).mpr hform⟩

theorem parseBody_chunked_iff_hi :
    ChunkedForm (bytes "002;x\nhi\r\n0\r\n\r\nnext") (bytes "hi") (bytes "next") :=
  ((parseBody_chunked_iff (fun _ => .error .badGzipFile)
    [(bytes "Transfer-Encoding", bytes "Chunked")] _ _ _ false (by decide)
    (by decide +kernel)).mp (by decide +kernel)).2

/-- `0` and a line break, twice. -/
def emptyChunk : Chunk where
  line := ⟨[48], [], .crlf, List.cons_ne_nil _ _, List.forall_mem_singleton.mpr rfl,
    List.not_mem_nil, stops_nil isHexDigit⟩
  data := []
  size_eq := rfl
  length_lt := by decide

/-- A length that is no number makes the parser raise, though the chunks say where the body
ends. -/
theorem not_parseBody_chunked : ¬ ∀ (gunzip : Bytes → Except GzipError Bytes)
    (headers : List Header) (chunks : List Chunk) (last : Chunk) (tail : Bytes) (isResponse : Bool),
    bytes "chunked" ∈ framingValues (bytes "transfer-encoding") headers →
    bytes "gzip" ∉ framingValues (bytes "content-encoding") headers →
    (∀ c ∈ chunks, c.data ≠ []) → last.data = [] →
    parseBody gunzip headers (chunkedText chunks last ++ tail) isResponse =
      .ok (chunks.flatMap Chunk.data, tail) := by
  intro h
  have herr : parseBody (fun _ => .error .badGzipFile) [(bytes "Transfer-Encoding", bytes "chunked"),
      (bytes "Content-Length", bytes "x")] (chunkedText [] emptyChunk ++ []) false =
      .error (.valueError "Invalid Content-Length") := by
    decide
  have hok := h (fun _ => .error .badGzipFile) [(bytes "Transfer-Encoding", bytes "chunked"),
    (bytes "Content-Length", bytes "x")] [] emptyChunk [] false (by decide)
    (by decide) (by simp) rfl
  rw [herr] at hok
  cases hok

end HttpGarden
