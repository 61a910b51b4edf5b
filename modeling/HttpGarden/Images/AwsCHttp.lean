import HttpGarden.Lib.JsonText
import HttpGarden.Python

/-!
# HttpGarden.Images.AwsCHttp

`server.c` of the **aws-c-http harness**, which writes its report while the callbacks of a request
come in. Some of it is written by the first of them, whichever that is, and some at the end of a
header block.

`reports_iff` says which histories of callbacks make a report of that: those in which no block of
trailers comes to its end.

`apr_encode_base64` is the parameter `base64`.
-/

namespace HttpGarden.AwsCHttp

open Lib

/-- `enum aws_http_version` -/
inductive Version
  | unknown
  | http10
  | http11
  | http2
  deriving Repr, DecidableEq

/-- What `start` asks the stream and the response for. -/
structure Request where
  method : Bytes
  uri : Bytes
  version : Version
  deriving Repr, DecidableEq

/-- `enum aws_http_header_block` -/
inductive HeaderBlock
  | main
  | informational
  | trailing
  deriving Repr, DecidableEq

abbrev Header := Bytes × Bytes

/-- `struct parse_state`. Of the response only its headers matter, which are there when it is sent. -/
structure ParseState where
  started : Bool
  startedHeaders : Bool
  startedBody : Bool
  responseBody : Bytes
  requestBody : Bytes
  sent : Option (List Header)
  deriving Repr, DecidableEq

/-- `parse_state_new` -/
def ParseState.new : ParseState := ⟨false, false, false, [], [], none⟩

/-- `byte_cursor_append(&parse_state->response_body, src)` -/
def ParseState.append (st : ParseState) (src : Bytes) : ParseState :=
  { st with responseBody := st.responseBody ++ src }

/-! ### The callbacks -/

/-- The version as it is written, already encoded. -/
def Version.text : Version → Bytes
  | unknown => bytes "VU5LTk9XTg=="
  | http10 => bytes "SFRUUC8xLjA="
  | http11 => bytes "SFRUUC8xLjE="
  | http2 => bytes "SFRUUC8y"

section

variable (base64 : Bytes → Bytes) (r : Request)

/-- `start` -/
def start (st : ParseState) : ParseState :=
  let st := st.append (bytes "\x7b\"method\":\"")
  let st := st.append (base64 r.method)
  let st := st.append (bytes "\",\"uri\":\"")
  let st := st.append (base64 r.uri)
  let st := st.append (bytes "\",\"version\":\"")
  let st := st.append r.version.text
  let st := st.append (bytes "\",\"headers\":[")
  { st with started := true }

/-- `if (!parse_state->started) { start(stream, parse_state); }` -/
def startOnce (st : ParseState) : ParseState := if st.started then st else start base64 r st

/-- One iteration of the loop in `on_request_headers`. -/
def appendHeader (st : ParseState) (header : Header) : ParseState :=
  let st :=
    if st.startedHeaders then st.append (bytes ",") else { st with startedHeaders := true }
  let st := st.append (bytes "[\"")
  let st := st.append (base64 header.1)
  let st := st.append (bytes "\",\"")
  let st := st.append (base64 header.2)
  st.append (bytes "\"]")

/-- `on_request_headers` -/
def onRequestHeaders (st : ParseState) (headerBlock : HeaderBlock) (headers : List Header) :
    ParseState :=
  if headerBlock ≠ .main then st
  else
    let st := startOnce base64 r st
    if st.startedBody then st else headers.foldl (appendHeader base64) st

/-- `on_request_header_block_done`, which does not look at the block. -/
def onRequestHeaderBlockDone (st : ParseState) (_headerBlock : HeaderBlock) : ParseState :=
  let st := startOnce base64 r st
  { st with startedBody := true }.append (bytes "],\"body\":\"")

/-- `on_request_body` -/
def onRequestBody (st : ParseState) (data : Bytes) : ParseState :=
  { st with requestBody := st.requestBody ++ data }

/-- `itoa` -/
def itoa (n : Nat) : Bytes := bytes (toString n)

/-- `on_request_done` -/
def onRequestDone (st : ParseState) : ParseState :=
  let st := st.append (base64 st.requestBody)
  let st := st.append (bytes "\"\x7d")
  { st with sent := some [(bytes "Content-Length", itoa st.responseBody.length)] }

/-- What aws-c-http calls. -/
inductive Callback
  | requestHeaders (headerBlock : HeaderBlock) (headers : List Header)
  | requestHeaderBlockDone (headerBlock : HeaderBlock)
  | requestBody (data : Bytes)
  | requestDone
  deriving Repr, DecidableEq

def call (st : ParseState) : Callback → ParseState
  | .requestHeaders headerBlock headers => onRequestHeaders base64 r st headerBlock headers
  | .requestHeaderBlockDone headerBlock => onRequestHeaderBlockDone base64 r st headerBlock
  | .requestBody data => onRequestBody st data
  | .requestDone => onRequestDone base64 st

/-- One callback after the other. -/
def calls (st : ParseState) (history : List Callback) : ParseState :=
  history.foldl (call base64 r) st

end

/-! ### Histories -/

/-- What comes between the main header block and the end of a request. -/
inductive Later
  | body (data : Bytes)
  | trailers (headers : List Header)
  | trailersDone
  deriving Repr, DecidableEq

def Later.callback : Later → Callback
  | body data => .requestBody data
  | trailers headers => .requestHeaders .trailing headers
  | trailersDone => .requestHeaderBlockDone .trailing

/-- The body data in one callback. -/
def Later.data : Later → Bytes
  | body data => data
  | _ => []

/-- The callbacks of a request: its headers come in these portions, and then come these. -/
def history (mains : List (List Header)) (later : List Later) : List Callback :=
  mains.map (.requestHeaders .main ·) ++
    .requestHeaderBlockDone .main :: (later.map Later.callback ++ [.requestDone])

/-- The text is one JSON object that reports the request, with these headers and this body. -/
def Reports (base64 : Bytes → Bytes) (r : Request) (headers : List Header) (body text : Bytes) :
    Prop :=
  ∃ members, JsonText.parse text = some (.obj members) ∧ members.Perm
    [(bytes "method", .str (base64 r.method)), (bytes "uri", .str (base64 r.uri)),
      (bytes "version", .str r.version.text),
      (bytes "headers", .arr (headers.map fun h => .arr [.str (base64 h.1), .str (base64 h.2)])),
      (bytes "body", .str (base64 body))]

variable {base64 : Bytes → Bytes} {r : Request} {st : ParseState}

/-! ### The headers -/

/-- The text of one header. -/
def headerText (base64 : Bytes → Bytes) (h : Header) : Bytes :=
  JsonText.array [JsonText.string (base64 h.1), JsonText.string (base64 h.2)]

theorem headerText_eq (h : Header) : headerText base64 h =
    bytes "[\"" ++ (base64 h.1 ++ (bytes "\",\"" ++ (base64 h.2 ++ bytes "\"]"))) := by
  have hopen : bytes "[\"" = [91, 34] := by decide
  have hmid : bytes "\",\"" = [34, 44, 34] := by decide
  have hclose : bytes "\"]" = [34, 93] := by decide
  rw [headerText, JsonText.array_pair, hopen, hmid, hclose]
  rfl

/-- With a comma in front, unless it is the first. -/
theorem appendHeader_eq (st : ParseState) (h : Header) : appendHeader base64 st h =
    { st with
      startedHeaders := true
      responseBody := st.responseBody ++
        ((if st.startedHeaders then [44] else []) ++ headerText base64 h) } := by
  have hcomma : bytes "," = [44] := by decide
  rw [appendHeader, headerText_eq, hcomma]
  cases hs : st.startedHeaders <;> simp [ParseState.append, hs]

theorem foldl_appendHeader_of_started (headers : List Header) (h : st.startedHeaders = true) :
    headers.foldl (appendHeader base64) st =
      { st with responseBody := st.responseBody ++
          (headers.map (headerText base64)).flatMap fun t => 44 :: t } := by
  induction headers generalizing st with
  | nil => simp
  | cons header headers ih =>
      rw [List.foldl_cons, appendHeader_eq, ih rfl, h]
      simp

/-- The headers, with commas between them. -/
theorem foldl_appendHeader (headers : List Header) (h : st.startedHeaders = false) :
    headers.foldl (appendHeader base64) st =
      { st with
        startedHeaders := !headers.isEmpty
        responseBody := st.responseBody ++ [44].intercalate (headers.map (headerText base64)) } := by
  cases headers with
  | nil =>
      cases st
      cases h
      simp [List.intercalate]
  | cons header headers =>
      rw [List.foldl_cons, appendHeader_eq, foldl_appendHeader_of_started headers rfl, h,
        List.map_cons, JsonText.intercalate_cons]
      simp

/-- Portion by portion is all at once. -/
theorem calls_mains (mains : List (List Header)) (hstarted : st.started = true)
    (hbody : st.startedBody = false) :
    calls base64 r st (mains.map (.requestHeaders .main ·)) =
      mains.flatten.foldl (appendHeader base64) st := by
  induction mains generalizing st with
  | nil => rfl
  | cons headers mains ih =>
      have hone : call base64 r st (.requestHeaders .main headers) =
          headers.foldl (appendHeader base64) st := by
        rw [call, onRequestHeaders, if_neg (by simp), startOnce, if_pos hstarted]
        dsimp only
        rw [hbody]
        rfl
      have hkeeps : ∀ (headers : List Header) (st : ParseState),
          (headers.foldl (appendHeader base64) st).started = st.started ∧
            (headers.foldl (appendHeader base64) st).startedBody = st.startedBody := by
        intro headers
        induction headers with
        | nil => exact fun st => ⟨rfl, rfl⟩
        | cons h headers ih =>
            intro st
            rw [List.foldl_cons, (ih _).1, (ih _).2, appendHeader_eq]
            exact ⟨rfl, rfl⟩
      rw [List.map_cons, calls, List.foldl_cons, hone, List.flatten_cons, List.foldl_append]
      exact ih ((hkeeps headers st).1.trans hstarted) ((hkeeps headers st).2.trans hbody)

/-- What is written when the main header block is done, but for the opening quote of the body. -/
def opened (base64 : Bytes → Bytes) (r : Request) (headers : List Header) : Bytes :=
  JsonText.openObject
    [(bytes "method", JsonText.string (base64 r.method)),
      (bytes "uri", JsonText.string (base64 r.uri)),
      (bytes "version", JsonText.string r.version.text),
      (bytes "headers", JsonText.array (headers.map (headerText base64)))] (bytes "body")

theorem opened_eq (headers : List Header) : opened base64 r headers ++ [34] =
    (start base64 r .new).responseBody ++
      ([44].intercalate (headers.map (headerText base64)) ++ bytes "],\"body\":\"") := by
  have hmethod : bytes "\x7b\"method\":\"" = 123 :: (JsonText.string (bytes "method") ++ [58, 34]) := by
    decide
  have huri : bytes "\",\"uri\":\"" = [34, 44] ++ (JsonText.string (bytes "uri") ++ [58, 34]) := by
    decide
  have hversion : bytes "\",\"version\":\"" =
      [34, 44] ++ (JsonText.string (bytes "version") ++ [58, 34]) := by decide
  have hheaders : bytes "\",\"headers\":[" =
      [34, 44] ++ (JsonText.string (bytes "headers") ++ [58, 91]) := by decide
  have hbody : bytes "],\"body\":\"" = [93, 44] ++ (JsonText.string (bytes "body") ++ [58, 34]) := by
    decide
  rw [opened, JsonText.openObject, start, hmethod, huri, hversion, hheaders, hbody]
  simp only [ParseState.append, ParseState.new, JsonText.string, JsonText.array,
    List.flatMap_cons, List.flatMap_nil, List.append_assoc, List.cons_append, List.nil_append,
    List.append_nil]

/-- The state when the main header block is done. -/
theorem calls_main_block (mains : List (List Header)) :
    calls base64 r .new (mains.map (.requestHeaders .main ·) ++ [.requestHeaderBlockDone .main]) =
      ⟨true, !mains.flatten.isEmpty, true, opened base64 r mains.flatten ++ [34], [], none⟩ := by
  have hstart : startOnce base64 r (calls base64 r .new (mains.map (.requestHeaders .main ·))) =
      mains.flatten.foldl (appendHeader base64) (start base64 r .new) := by
    cases mains with
    | nil => rfl
    | cons headers mains =>
        have hfirst : calls base64 r .new ((headers :: mains).map (.requestHeaders .main ·)) =
            calls base64 r (start base64 r .new)
              ((headers :: mains).map (.requestHeaders .main ·)) := rfl
        rw [hfirst, calls_mains _ rfl rfl, foldl_appendHeader _ rfl]
        rfl
  rw [calls, List.foldl_append]
  show onRequestHeaderBlockDone base64 r (calls base64 r .new _) .main = _
  rw [onRequestHeaderBlockDone, hstart, foldl_appendHeader _ rfl, opened_eq]
  simp [ParseState.append, start, ParseState.new]

/-! ### After the headers -/

/-- What the end of a block of trailers writes. -/
def stray (l : Later) : Bytes := if l = .trailersDone then bytes "],\"body\":\"" else []

theorem call_later (l : Later) (h : st.started = true) (hbody : st.startedBody = true) :
    call base64 r st l.callback =
      { st with
        responseBody := st.responseBody ++ stray l
        requestBody := st.requestBody ++ l.data } := by
  cases l with
  | body data => simp [Later.callback, call, onRequestBody, stray, Later.data]
  | trailers headers => simp [Later.callback, call, onRequestHeaders, stray, Later.data]
  | trailersDone =>
      cases st
      cases h
      cases hbody
      simp [Later.callback, call, onRequestHeaderBlockDone, startOnce, ParseState.append, stray,
        Later.data]

theorem calls_later (later : List Later) (h : st.started = true) (hbody : st.startedBody = true) :
    calls base64 r st (later.map Later.callback) =
      { st with
        responseBody := st.responseBody ++ later.flatMap stray
        requestBody := st.requestBody ++ later.flatMap Later.data } := by
  induction later generalizing st with
  | nil => simp [calls]
  | cons l later ih =>
      have hrest := @ih { st with
        responseBody := st.responseBody ++ stray l
        requestBody := st.requestBody ++ l.data } h hbody
      rw [List.map_cons, calls, List.foldl_cons, call_later l h hbody]
      refine hrest.trans ?_
      simp

/-- **What is written** in the course of a request. -/
theorem responseBody_history (mains : List (List Header)) (later : List Later) :
    (calls base64 r .new (history mains later)).responseBody =
      opened base64 r mains.flatten ++ [34] ++ later.flatMap stray ++
        base64 (later.flatMap Later.data) ++ [34, 125] := by
  have hsplit : history mains later = (mains.map (.requestHeaders .main ·) ++
      [.requestHeaderBlockDone .main]) ++ (later.map Later.callback ++ [.requestDone]) := by
    simp [history]
  have hend : bytes "\"\x7d" = [34, 125] := by decide
  rw [hsplit, calls, List.foldl_append, List.foldl_append]
  show (onRequestDone base64 (calls base64 r (calls base64 r .new _) _)).responseBody = _
  rw [calls_main_block, calls_later later rfl rfl, onRequestDone, hend]
  rfl

/-! ### Reading it -/

theorem spells_header (hbase64 : ∀ s, JsonText.Plain (base64 s)) (h : Header) :
    JsonText.Spells (headerText base64 h) (.arr [.str (base64 h.1), .str (base64 h.2)]) :=
  JsonText.spells_arr
    (.cons (JsonText.spells_str (hbase64 _)) (.cons (JsonText.spells_str (hbase64 _)) .nil))

/-- The members before the body. -/
def membersBefore (base64 : Bytes → Bytes) (r : Request) (headers : List Header) :
    List (Bytes × JsonText.Value) :=
  [(bytes "method", .str (base64 r.method)), (bytes "uri", .str (base64 r.uri)),
    (bytes "version", .str r.version.text),
    (bytes "headers", .arr (headers.map fun h => .arr [.str (base64 h.1), .str (base64 h.2)]))]

theorem plain_version (v : Version) : JsonText.Plain v.text := by
  cases v <;> decide

theorem run_opened (hbase64 : ∀ s, JsonText.Plain (base64 s)) (headers : List Header) :
    JsonText.run ⟨.value, []⟩ (opened base64 r headers) =
      some ⟨.value, [.member (membersBefore base64 r headers) (bytes "body")]⟩ := by
  have hplain : ∀ key ∈ [bytes "method", bytes "uri", bytes "version", bytes "headers",
      bytes "body"], JsonText.Plain key := by
    simp [JsonText.Plain, JsonText.isPlain, bytes]
  have hheaders : List.Forall₂ JsonText.Spells (headers.map (headerText base64))
      (headers.map fun h => .arr [.str (base64 h.1), .str (base64 h.2)]) := by
    rw [List.forall₂_map_left_iff, List.forall₂_map_right_iff, List.forall₂_same]
    exact fun h _ => spells_header hbase64 h
  refine JsonText.run_openObject (w := membersBefore base64 r headers)
    (.cons ⟨rfl, hplain _ (by simp), JsonText.spells_str (hbase64 _)⟩
      (.cons ⟨rfl, hplain _ (by simp), JsonText.spells_str (hbase64 _)⟩
        (.cons ⟨rfl, hplain _ (by simp), JsonText.spells_str (plain_version _)⟩
          (.cons ⟨rfl, hplain _ (by simp), JsonText.spells_arr hheaders⟩ .nil))))
    (hplain _ (by simp)) []

/-- Without strays, the body is the last member. -/
theorem parse_report (hbase64 : ∀ s, JsonText.Plain (base64 s)) (headers : List Header)
    (body : Bytes) :
    JsonText.parse (opened base64 r headers ++ [34] ++ base64 body ++ [34, 125]) =
      some (.obj (membersBefore base64 r headers ++ [(bytes "body", .str (base64 body))])) := by
  have htext : opened base64 r headers ++ [34] ++ base64 body ++ [34, 125] =
      opened base64 r headers ++ (JsonText.string (base64 body) ++ [125]) := by
    simp [JsonText.string]
  have hbody := JsonText.spells_str (hbase64 body)
    [.member (membersBefore base64 r headers) (bytes "body")] trivial
  rw [htext, JsonText.parse, JsonText.run_append_of (run_opened hbase64 headers),
    JsonText.run_append_of hbody]
  rfl

/-- With a stray, the string ends where it begins, and a bare word follows. -/
theorem parse_stray (hbase64 : ∀ s, JsonText.Plain (base64 s)) (headers : List Header)
    (rest : Bytes) :
    JsonText.parse (opened base64 r headers ++ [34] ++ bytes "],\"body\":\"" ++ rest) = none := by
  have hplain : JsonText.Plain [93, 44] := by decide
  have hbare : bytes "],\"body\":\"" = [93, 44] ++ 34 :: 98 :: bytes "ody\":\"" := by decide
  have hstring := JsonText.spells_str hplain
    [.member (membersBefore base64 r headers) (bytes "body")] trivial
  have hnone : JsonText.run ⟨.value, []⟩
      (opened base64 r headers ++ (JsonText.string [93, 44] ++ [98])) = none := by
    rw [JsonText.run_append_of (run_opened hbase64 headers), JsonText.run_append_of hstring]
    rfl
  have htext : opened base64 r headers ++ [34] ++ bytes "],\"body\":\"" ++ rest =
      opened base64 r headers ++ (JsonText.string [93, 44] ++ [98]) ++
        (bytes "ody\":\"" ++ rest) := by
    rw [hbare]
    simp [JsonText.string]
  rw [htext]
  exact JsonText.parse_append_of_none hnone _

/-- What the strays begin with, if there are any. -/
theorem flatMap_stray (later : List Later) :
    (Later.trailersDone ∉ later ∧ later.flatMap stray = []) ∨
      (Later.trailersDone ∈ later ∧ ∃ rest, later.flatMap stray = bytes "],\"body\":\"" ++ rest) := by
  induction later with
  | nil => exact .inl ⟨List.not_mem_nil, rfl⟩
  | cons l later ih =>
      rw [List.flatMap_cons, List.mem_cons]
      by_cases hl : l = .trailersDone
      · rw [stray, if_pos hl]
        exact .inr ⟨.inl hl.symm, _, rfl⟩
      · have hmem : Later.trailersDone = l ∨ Later.trailersDone ∈ later ↔
            Later.trailersDone ∈ later := or_iff_right fun h => hl h.symm
        rw [stray, if_neg hl, List.nil_append, hmem]
        exact ih

/-- **A request is reported**, whatever portions its headers and its body come in, exactly if no
block of trailers comes to its end. -/
theorem reports_iff (base64 : Bytes → Bytes) (hbase64 : ∀ s, JsonText.Plain (base64 s))
    (r : Request) (mains : List (List Header)) (later : List Later) :
    Reports base64 r mains.flatten (later.flatMap Later.data)
        (calls base64 r .new (history mains later)).responseBody ↔
      Later.trailersDone ∉ later := by
  rw [responseBody_history]
  rcases flatMap_stray later with ⟨hnot, hstray⟩ | ⟨hmem, rest, hstray⟩
  · rw [hstray, List.append_nil]
    exact iff_of_true ⟨_, parse_report hbase64 _ _, .refl _⟩ hnot
  · rw [hstray]
    refine iff_of_false ?_ fun hnot => hnot hmem
    rintro ⟨members, hparse, -⟩
    have hnone := parse_stray (r := r) hbase64 mains.flatten
      (rest ++ (base64 (later.flatMap Later.data) ++ [34, 125]))
    simp only [List.append_assoc] at hparse hnone
    rw [hnone] at hparse
    cases hparse

/-- A request with one header and one piece of body. -/
theorem reports_iff_post :
    (∀ s, JsonText.Plain (Base64.encode s)) ∧
      (Reports Base64.encode ⟨bytes "POST", bytes "/", .http11⟩ [[(bytes "Host", bytes "a")]].flatten
          ([.body (bytes "b")].flatMap Later.data)
          (calls Base64.encode ⟨bytes "POST", bytes "/", .http11⟩ .new
            (history [[(bytes "Host", bytes "a")]] [.body (bytes "b")])).responseBody ↔
        Later.trailersDone ∉ [.body (bytes "b")]) :=
  ⟨JsonText.plain_encode, reports_iff Base64.encode JsonText.plain_encode _ _ _⟩

/-- A chunked body with trailers is not reported. -/
theorem not_reports_trailers :
    ¬ ∀ (base64 : Bytes → Bytes), (∀ s, JsonText.Plain (base64 s)) →
      ∀ (r : Request) (mains : List (List Header)) (later : List Later),
        Reports base64 r mains.flatten (later.flatMap Later.data)
          (calls base64 r .new (history mains later)).responseBody := by
  intro h
  obtain ⟨members, hparse, -⟩ := h Base64.encode JsonText.plain_encode
    ⟨bytes "POST", bytes "/", .http11⟩ [] [.body (bytes "b"), .trailers [(bytes "t", bytes "u")], .trailersDone]
  have hnone : (JsonText.parse (calls Base64.encode ⟨bytes "POST", bytes "/", .http11⟩ .new
      (history [] [.body (bytes "b"), .trailers [(bytes "t", bytes "u")],
        .trailersDone])).responseBody).isNone := by decide
  rw [hparse] at hnone
  cases hnone

end HttpGarden.AwsCHttp
