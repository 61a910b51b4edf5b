import HttpGarden.Echo.Cut
import HttpGarden.Images.AwsCHttp
import HttpGarden.Images.Libmicrohttpd
import HttpGarden.Images.Mongoose
import HttpGarden.Targets.Origin

/-!
# HttpGarden.Targets.Reports

**What a harness writes, and what `targets.py` reads.** A harness in an origin server reports each
request in JSON, with its fields in base64. The server sends the report as a body of its own
framing, and `Origin.parsed_roundtrip` takes the replies to a whole stream apart again.

* `parseResponseJson_of_describes`: a report is read as the request that it describes, but for the
  case of the header names and the `HTTP/` of the version.
* `describes_of_reportOf`: what three of the harnesses write is such a report.
* `parsedRoundtrip_reports`: the requests of a stream come back in order, and nothing else.
-/

namespace HttpGarden

open Lib

/-! ### The readers of the standard library -/

/-- The text of ASCII characters. -/
def asciiText (s : Bytes) : String := String.ofList (s.map fun c => Char.ofNat c.toNat)

/-- A string that stands in JSON as it is: without escapes, and in ASCII. -/
def IsAsciiText (raw : Bytes) : Prop := ∀ c ∈ raw, JsonText.isPlain c = true ∧ c < 128

instance (raw : Bytes) : Decidable (IsAsciiText raw) :=
  inferInstanceAs (Decidable (∀ c ∈ raw, JsonText.isPlain c = true ∧ c < 128))

/-- What `json.loads` makes of a value with at most `depth` arrays and objects around one another,
if its strings are plain and no key occurs twice. -/
def Json.ofValue : Nat → JsonText.Value → Option Json
  | _, .null => some .null
  | _, .bool b => some (.bool b)
  | _, .num text => some (.str (asciiText text))
  | _, .str raw => if IsAsciiText raw then some (.str (asciiText raw)) else none
  | depth + 1, .arr items => (items.mapM (ofValue depth)).map .list
  | depth + 1, .obj members =>
    if (members.map (·.1)).Nodup ∧ ∀ m ∈ members, IsAsciiText m.1 then
      (members.mapM fun m => (ofValue depth m.2).map (asciiText m.1, ·)).map .dict
    else none
  | 0, _ => none

/-- The readers do what their documentation says, as far as reports are concerned. -/
structure JsonRuntime.Standard (py : JsonRuntime) : Prop where
  loads : ∀ text v json, JsonText.parse text = some v → Json.ofValue 3 v = some json →
    py.loads text = .ok json
  b64decode : ∀ raw data, IsAsciiText raw → Base64.decode raw = some data →
    py.b64decode (asciiText raw) = .ok data

theorem isAsciiText_encode (data : Bytes) : IsAsciiText (Base64.encode data) := by
  have hdigit : ∀ v : Fin 64, JsonText.isPlain (Base64.digit v) = true ∧ Base64.digit v < 128 := by
    decide
  exact Base64.forall_encode ⟨rfl, by decide⟩ (fun v hv => hdigit ⟨v, hv⟩) data

/-! ### Reports -/

/-- The members of a report, in some order. -/
def reportMembers (r : HTTPRequest) : List (Bytes × JsonText.Value) :=
  [(bytes "headers", .arr (r.headers.map fun h =>
      .arr [.str (Base64.encode h.1), .str (Base64.encode h.2)])),
    (bytes "body", .str (Base64.encode r.body)),
    (bytes "uri", .str (Base64.encode r.uri)),
    (bytes "method", .str (Base64.encode r.method)),
    (bytes "version", .str (Base64.encode r.version))]

/-- The text is a report of the request. -/
def Describes (text : Bytes) (r : HTTPRequest) : Prop :=
  ∃ members, JsonText.parse text = some (.obj members) ∧ members.Perm (reportMembers r)

/-- What is read of the request. -/
def reported (r : HTTPRequest) : HTTPRequest :=
  { r with
    headers := r.headers.map fun h => (lower h.1, h.2)
    version := if bytes "HTTP/" <+: r.version then r.version.drop 5 else r.version }

/-- What becomes of a member. -/
def reportField (m : Bytes × JsonText.Value) : String × Json :=
  (asciiText m.1, (Json.ofValue 2 m.2).getD .null)

theorem mapM_of_forall {α β : Type} {f : α → Option β} {g : α → β} {as : List α}
    (h : ∀ a ∈ as, f a = some (g a)) : as.mapM f = some (as.map g) := by
  induction as with
  | nil => rfl
  | cons a as ih =>
      obtain ⟨ha, has⟩ := List.forall_mem_cons.mp h
      rw [List.mapM_cons, ha, ih has]
      rfl

theorem ofValue_encode (depth : Nat) (data : Bytes) :
    Json.ofValue depth (.str (Base64.encode data)) = some (.str (asciiText (Base64.encode data))) := by
  have hascii := isAsciiText_encode data
  cases depth with
  | zero => rw [Json.ofValue, if_pos hascii]
  | succ depth => rw [Json.ofValue, if_pos hascii]

/-- The pairs of the headers. -/
theorem ofValue_headers (headers : List Header) :
    Json.ofValue 2 (.arr (headers.map fun h =>
      .arr [.str (Base64.encode h.1), .str (Base64.encode h.2)])) =
      some (.list (headers.map fun h => .list [.str (asciiText (Base64.encode h.1)),
        .str (asciiText (Base64.encode h.2))])) := by
  rw [Json.ofValue, List.mapM_map, mapM_of_forall (g := fun h : Header => Json.list
    [.str (asciiText (Base64.encode h.1)), .str (asciiText (Base64.encode h.2))])]
  · rfl
  · intro h _
    change (([.str (Base64.encode h.1), .str (Base64.encode h.2)] : List JsonText.Value).mapM
      (Json.ofValue 0)).map Json.list = _
    rw [List.mapM_cons, List.mapM_cons, ofValue_encode, ofValue_encode]
    rfl

/-- The fields of the dictionary. -/
def reportFields (r : HTTPRequest) : List (String × Json) :=
  [("headers", .list (r.headers.map fun h =>
      .list [.str (asciiText (Base64.encode h.1)), .str (asciiText (Base64.encode h.2))])),
    ("body", .str (asciiText (Base64.encode r.body))),
    ("uri", .str (asciiText (Base64.encode r.uri))),
    ("method", .str (asciiText (Base64.encode r.method))),
    ("version", .str (asciiText (Base64.encode r.version)))]

theorem map_reportField (r : HTTPRequest) : (reportMembers r).map reportField = reportFields r := by
  simp only [reportMembers, List.map_cons, List.map_nil, reportField, ofValue_headers, ofValue_encode]
  rfl

/-- A key that occurs once is looked up. -/
theorem lookup_of_mem {α β : Type} [BEq α] [LawfulBEq α] {l : List (α × β)} {k : α} {v : β}
    (hnodup : (l.map (·.1)).Nodup) (h : (k, v) ∈ l) : l.lookup k = some v := by
  induction l with
  | nil => exact absurd h List.not_mem_nil
  | cons p l ih =>
      obtain ⟨hp, hnodup⟩ := List.nodup_cons.mp hnodup
      rcases List.mem_cons.mp h with rfl | h
      · exact List.lookup_cons_self
      · have hne : (k == p.1) = false := by
          rw [beq_eq_false_iff_ne]
          rintro rfl
          exact hp (List.mem_map.mpr ⟨_, h, rfl⟩)
        rw [List.lookup_cons, hne]
        exact ih hnodup h

/-- **Loading a report** gives a dictionary with the members. -/
theorem loads_of_describes {py : JsonRuntime} (hpy : py.Standard) {text : Bytes} {r : HTTPRequest}
    (h : Describes text r) : ∃ fields, py.loads text = .ok (.dict fields) ∧
      (fields.map (·.1)).Nodup ∧ ∀ f ∈ reportFields r, f ∈ fields := by
  obtain ⟨members, hparse, hperm⟩ := h
  have hvalues : ∀ m ∈ reportMembers r, IsAsciiText m.1 ∧ (Json.ofValue 2 m.2).isSome := by
    simp only [reportMembers, List.forall_mem_cons, ofValue_headers, ofValue_encode]
    simp [IsAsciiText, bytes, JsonText.isPlain]
  have hkeys : ((reportMembers r).map (·.1)).Nodup := by
    simp only [reportMembers, List.map_cons, List.map_nil]
    decide
  have hnames : ((reportMembers r).map fun m => asciiText m.1).Nodup := by
    simp only [reportMembers, List.map_cons, List.map_nil]
    decide
  have hfields : (members.mapM fun m => (Json.ofValue 2 m.2).map (asciiText m.1, ·)) =
      some (members.map reportField) := by
    refine mapM_of_forall fun m hm => ?_
    obtain ⟨json, hjson⟩ := Option.isSome_iff_exists.mp (hvalues m (hperm.mem_iff.mp hm)).2
    rw [reportField, hjson]
    rfl
  have hvalue : Json.ofValue 3 (.obj members) = some (.dict (members.map reportField)) := by
    rw [Json.ofValue, if_pos ⟨(hperm.map _).nodup_iff.mpr hkeys,
      fun m hm => (hvalues m (hperm.mem_iff.mp hm)).1⟩, hfields]
    rfl
  refine ⟨_, hpy.loads text _ _ hparse hvalue, ?_, fun f hf => ?_⟩
  · rw [List.map_map]
    exact (hperm.map _).nodup_iff.mpr hnames
  · rw [← map_reportField] at hf
    exact (hperm.map _).mem_iff.mpr hf

theorem b64decode_encode {py : JsonRuntime} (hpy : py.Standard) (data : Bytes) :
    b64decode py (asciiText (Base64.encode data)) = .ok data := by
  rw [b64decode, hpy.b64decode _ _ (isAsciiText_encode data) (Base64.decode_encode data)]

theorem decodeHeaders_encode {py : JsonRuntime} (hpy : py.Standard) (headers : List Header) :
    (headers.map fun h => Json.list [.str (asciiText (Base64.encode h.1)),
      .str (asciiText (Base64.encode h.2))]).mapM (decodeHeader py) =
      .ok (headers.map fun h => (lower h.1, h.2)) := by
  induction headers with
  | nil => rfl
  | cons h headers ih =>
      rw [List.map_cons, List.mapM_cons, ih, decodeHeader, b64decode_encode hpy,
        b64decode_encode hpy]
      rfl

/-- **Reading a report.** -/
theorem parseResponseJson_of_describes {py : JsonRuntime} (hpy : py.Standard) {text : Bytes}
    {r : HTTPRequest} (h : Describes text r) : parseResponseJson py text = .ok (reported r) := by
  obtain ⟨fields, hloads, hnodup, hmem⟩ := loads_of_describes hpy h
  simp only [reportFields, List.forall_mem_cons] at hmem
  obtain ⟨hheaders, hbody, huri, hmethod, hversion, -⟩ := hmem
  have hfields : responseFields? (.dict fields) = some
      ⟨r.headers.map fun h => .list [.str (asciiText (Base64.encode h.1)),
          .str (asciiText (Base64.encode h.2))],
        asciiText (Base64.encode r.uri), asciiText (Base64.encode r.body),
        asciiText (Base64.encode r.method), asciiText (Base64.encode r.version)⟩ := by
    have hlookup {key : String} {v : Json} (hkey : (key, v) ∈ fields) : fields.lookup key = some v :=
      lookup_of_mem hnodup hkey
    rw [responseFields?, hlookup hheaders, hlookup huri, hlookup hbody, hlookup hmethod,
      hlookup hversion]
  rw [parseResponseJson, hloads]
  simp only [hfields, decodeHeaders_encode hpy, b64decode_encode hpy, ok_bind]
  rfl

/-! ### Three harnesses -/

/-- A string in base64, with its quotes. -/
def encodedText (data : Bytes) : Bytes := JsonText.string (Base64.encode data)

theorem spells_encodedText (data : Bytes) :
    JsonText.Spells (encodedText data) (.str (Base64.encode data)) :=
  JsonText.spells_str (JsonText.plain_encode data)

/-- The text of a header in libmicrohttpd's harness. -/
def pairText (h : Header) : Bytes := JsonText.array [encodedText h.1, encodedText h.2]

theorem processHeader_eq (first : Bool) (fd : Bytes) (h : Header) :
    Libmicrohttpd.processHeader Base64.encode (first, fd) h =
      (false, fd ++ ((if first then [] else [44]) ++ pairText h)) := by
  have hcomma : bytes "," = [44] := by decide
  have hopen : bytes "[\"" = [91, 34] := by decide
  have hmid : bytes "\",\"" = [34, 44, 34] := by decide
  have hclose : bytes "\"]" = [34, 93] := by decide
  rw [Libmicrohttpd.processHeader, pairText, encodedText, encodedText, JsonText.array_pair, hcomma,
    hopen, hmid, hclose]
  simp only [List.append_assoc]
  rfl

theorem foldl_processHeader (headers : List Header) (fd : Bytes) :
    headers.foldl (Libmicrohttpd.processHeader Base64.encode) (false, fd) =
      (false, fd ++ (headers.map pairText).flatMap fun t => 44 :: t) := by
  induction headers generalizing fd with
  | nil => rw [List.map_nil, List.flatMap_nil, List.append_nil]; rfl
  | cons h headers ih =>
      rw [List.foldl_cons, processHeader_eq, ih, List.map_cons, List.flatMap_cons, List.append_assoc]
      rfl

/-- The headers, with commas between them. -/
theorem processHeaders_eq (headers : List Header) (fd : Bytes) :
    (headers.foldl (Libmicrohttpd.processHeader Base64.encode) (true, fd)).2 =
      fd ++ [44].intercalate (headers.map pairText) := by
  cases headers with
  | nil => exact (List.append_nil fd).symm
  | cons h headers =>
      rw [List.foldl_cons, processHeader_eq, foldl_processHeader, List.map_cons,
        JsonText.intercalate_cons, List.append_assoc]
      rfl

theorem message_eq (r : Libmicrohttpd.Request) (body : Bytes) :
    Libmicrohttpd.message Base64.encode r body = JsonText.object
      [(bytes "method", encodedText r.method), (bytes "uri", encodedText r.url),
        (bytes "version", encodedText r.version),
        (bytes "headers", JsonText.array (r.headers.map pairText))]
      (bytes "body", encodedText body) := by
  have hmethod : bytes "\x7b\"method\":\"" = 123 :: (JsonText.string (bytes "method") ++ [58, 34]) := by
    decide
  have huri : bytes "\",\"uri\":\"" = [34, 44] ++ (JsonText.string (bytes "uri") ++ [58, 34]) := by
    decide
  have hversion : bytes "\",\"version\":\"" =
      [34, 44] ++ (JsonText.string (bytes "version") ++ [58, 34]) := by decide
  have hheaders : bytes "\",\"headers\":[" =
      [34, 44] ++ (JsonText.string (bytes "headers") ++ [58, 91]) := by decide
  have hbody : bytes "],\"body\":\"" = [93, 44] ++ (JsonText.string (bytes "body") ++ [58, 34]) := by
    decide
  have hend : bytes "\"\x7d" = [34, 125] := by decide
  rw [Libmicrohttpd.message, Libmicrohttpd.messageHead, processHeaders_eq, hmethod, huri, hversion,
    hheaders, hbody, hend, JsonText.object, JsonText.openObject]
  simp only [encodedText, JsonText.array, JsonText.string, List.flatMap_cons, List.flatMap_nil,
    List.append_assoc, List.cons_append, List.nil_append, List.append_nil]

theorem parse_message (r : Libmicrohttpd.Request) (body : Bytes) :
    JsonText.parse (Libmicrohttpd.message Base64.encode r body) = some (.obj
      [(bytes "method", .str (Base64.encode r.method)), (bytes "uri", .str (Base64.encode r.url)),
        (bytes "version", .str (Base64.encode r.version)),
        (bytes "headers", .arr (r.headers.map fun h =>
          .arr [.str (Base64.encode h.1), .str (Base64.encode h.2)])),
        (bytes "body", .str (Base64.encode body))]) := by
  have hplain : ∀ key ∈ [bytes "method", bytes "uri", bytes "version", bytes "headers",
      bytes "body"], JsonText.Plain key := by
    simp [JsonText.Plain, JsonText.isPlain, bytes]
  have hheaders : List.Forall₂ JsonText.Spells (r.headers.map pairText)
      (r.headers.map fun h => .arr [.str (Base64.encode h.1), .str (Base64.encode h.2)]) := by
    rw [List.forall₂_map_left_iff, List.forall₂_map_right_iff, List.forall₂_same]
    exact fun h _ =>
      JsonText.spells_arr (.cons (spells_encodedText _) (.cons (spells_encodedText _) .nil))
  rw [message_eq]
  exact (JsonText.spells_obj (w := [(bytes "method", _), (bytes "uri", _), (bytes "version", _),
      (bytes "headers", _)])
    (.cons ⟨rfl, hplain _ (by simp), spells_encodedText r.method⟩
      (.cons ⟨rfl, hplain _ (by simp), spells_encodedText r.url⟩
        (.cons ⟨rfl, hplain _ (by simp), spells_encodedText r.version⟩
          (.cons ⟨rfl, hplain _ (by simp), JsonText.spells_arr hheaders⟩ .nil))))
    (hplain (bytes "body") (by simp)) (spells_encodedText body)).parse_eq

/-- The text that stands for a version. -/
def versionName : AwsCHttp.Version → Bytes
  | .unknown => bytes "UNKNOWN"
  | .http10 => bytes "HTTP/1.0"
  | .http11 => bytes "HTTP/1.1"
  | .http2 => bytes "HTTP/2"

theorem text_eq_encode (v : AwsCHttp.Version) : v.text = Base64.encode (versionName v) := by
  cases v <;> decide

/-- What a harness writes about a request. -/
inductive ReportOf : HTTPRequest → Bytes → Prop
  /-- aws-c-http, where no block of trailers comes to its end. -/
  | awsCHttp (r : AwsCHttp.Request) (mains : List (List AwsCHttp.Header))
      (later : List AwsCHttp.Later) (h : .trailersDone ∉ later) :
      ReportOf ⟨r.method, r.uri, mains.flatten, later.flatMap AwsCHttp.Later.data,
          versionName r.version⟩
        (AwsCHttp.calls Base64.encode r .new (AwsCHttp.history mains later)).responseBody
  /-- libmicrohttpd, where no other request comes in between. -/
  | libmicrohttpd (r : Libmicrohttpd.Request) (body : Bytes) :
      ReportOf ⟨r.method, r.url, r.headers, body, r.version⟩
        (Libmicrohttpd.message Base64.encode r body)
  /-- mongoose, if it does not refuse the request, and the version is not too long. -/
  | mongoose (rt : Mongoose.Runtime) {scratch strcat json : Bytes} (m : Mongoose.Message)
      (hscratch : scratch.length = Mongoose.INITIAL_BUF_SIZE)
      (hstrcat : strcat.length = Mongoose.INITIAL_BUF_SIZE)
      (h : (Mongoose.cb rt scratch strcat m).reply = .ok json) (hproto : Mongoose.Fits m.proto.length) :
      ReportOf ⟨m.method, m.target, Mongoose.present m.headers, m.body, m.proto⟩ json

/-- The order of the members in two of the harnesses. -/
theorem perm_members {α : Type} (method uri version headers body : α) :
    [method, uri, version, headers, body].Perm [headers, body, uri, method, version] :=
  have happend : ([method, uri, version] ++ [headers, body]).Perm
      ([headers, body] ++ [method, uri, version]) := List.perm_append_comm
  happend.trans (.cons _ (.cons _ (.swap _ _ _)))

/-- **Each of them describes the request.** -/
theorem describes_of_reportOf {r : HTTPRequest} {text : Bytes} (h : ReportOf r text) :
    Describes text r := by
  cases h with
  | awsCHttp r mains later h =>
      have hstray : later.flatMap AwsCHttp.stray = [] := by
        rcases AwsCHttp.flatMap_stray later with ⟨-, hstray⟩ | ⟨hmem, -⟩
        · exact hstray
        · exact absurd hmem h
      refine ⟨_, ?_, perm_members _ _ _ _ _⟩
      rw [AwsCHttp.responseBody_history, hstray, List.append_nil,
        AwsCHttp.parse_report JsonText.plain_encode, AwsCHttp.membersBefore, text_eq_encode]
      rfl
  | libmicrohttpd r body => exact ⟨_, parse_message r body, perm_members _ _ _ _ _⟩
  | mongoose rt m hscratch hstrcat h hproto =>
      rcases Mongoose.cb_cases rt hscratch hstrcat m with
        ⟨haccepted, st, hgood, heq⟩ | ⟨-, ⟨reason, hrefused⟩, -⟩
      · rw [heq, (Mongoose.addVersion_of_fits rt hgood haccepted.method hproto).1] at h
        cases h
        exact ⟨_, Mongoose.parse_document m, .refl _⟩
      · rw [hrefused] at h
        cases h

/-! ### Replies -/

variable {gunzip : Bytes → Except GzipError Bytes}

/-- A reply with status 200 and this body, whatever comes after it. -/
def Replies (gunzip : Bytes → Except GzipError Bytes) (reply body : Bytes) : Prop :=
  ∀ rest, ∃ response, parseResponse gunzip (reply ++ rest) = .ok (response, rest) ∧
    response.code = bytes "200" ∧ response.body = body

/-- A response with a body of the announced length. -/
def lengthReply (code reason body : Bytes) : Bytes :=
  bytes "HTTP/1.1" ++ (bytes " " ++ (code ++ (bytes " " ++ (reason ++ (crlf ++
    ([(bytes "Content-Length", digitBytes 10 body.length)].flatMap unparseHeader ++ (crlf ++ body)))))))

theorem parseResponse_lengthReply {code reason body : Bytes}
    (hcode : code ≠ [] ∧ ∀ c ∈ code, isDigitByte c = true) (hreason : reason ≠ [] ∧ IsLine reason)
    (hstop : Pattern.Stops isSpace reason) (hbody : body.length ≤ sysMaxsize) (rest : Bytes) :
    parseResponse gunzip (lengthReply code reason body ++ rest) =
      .ok (⟨bytes "1.1", code, reason, [(bytes "Content-Length", digitBytes 10 body.length)], body⟩,
        rest) := by
  have hscan : scanHeaders [(bytes "Content-Length", digitBytes 10 body.length)] =
      .ok ⟨some body.length, [], []⟩ := by
    rw [scanHeaders, List.foldlM_cons, scanHeader_contentLength hbody]
    rfl
  rw [lengthReply]
  simp only [List.append_assoc]
  exact parseResponse_of_parts hcode hreason hstop
    (List.forall_mem_singleton.mpr (isHeader_contentLength body.length)) (parseBody_of_length hscan rest)

/-- The length is all that a framing needs. -/
theorem replies_lengthReply {body : Bytes} (h : body.length ≤ sysMaxsize) :
    Replies gunzip (lengthReply (bytes "200") (bytes "OK") body) body := by
  obtain ⟨hcode, hreason, hstop⟩ := status_ok
  exact fun rest => ⟨_, parseResponse_lengthReply hcode hreason hstop h rest, rfl, rfl⟩

/-- A reply to one request, and what it says: the report of a request, or that it is refused. -/
inductive Answers (gunzip : Bytes → Except GzipError Bytes) : Bytes → Parsed → Prop
  | report {r : HTTPRequest} {reply text : Bytes} (h : ReportOf r text)
      (hreply : Replies gunzip reply text) : Answers gunzip reply (.request (reported r))
  | refusal {response : HTTPResponse} {reply : Bytes}
      (h : ∀ rest, parseResponse gunzip (reply ++ rest) = .ok (response, rest))
      (hcode : response.code ≠ bytes "200") : Answers gunzip reply (.response response)

/-- The first attempt is enough for such a reply. -/
theorem extract_of_answers {py : JsonRuntime} (hpy : py.Standard) {reply : Bytes} {message : Parsed}
    (h : Answers gunzip reply message) (allowsHttp2 allowsHttp09 : Bool) (rest : Bytes) :
    Origin.extract py gunzip allowsHttp2 allowsHttp09 (reply ++ rest) =
      .ok (some ⟨.http1, message, rest⟩) := by
  have hattempt : Origin.http1Attempt py gunzip (reply ++ rest) = .ok ⟨.http1, message, rest⟩ := by
    cases h with
    | @report r _ text h hreply =>
        obtain ⟨response, hparse, hcode, hbody⟩ := hreply rest
        have hjson := parseResponseJson_of_describes hpy (describes_of_reportOf h)
        rw [Origin.http1Attempt, hparse]
        simp only [hcode, hbody, ne_eq, not_true_eq_false, if_false, hjson, ok_bind]
        rfl
    | refusal h hcode =>
        rw [Origin.http1Attempt, h]
        exact if_pos hcode
  rw [Origin.extract, hattempt]
  rfl

theorem not_answers_nil {message : Parsed} : ¬ Answers gunzip [] message := by
  intro h
  obtain ⟨response, hparse⟩ : ∃ response, parseResponse gunzip ([] ++ []) = .ok (response, []) := by
    cases h with
    | report h hreply =>
        obtain ⟨response, hparse, -⟩ := hreply []
        exact ⟨response, hparse⟩
    | refusal h hcode => exact ⟨_, h []⟩
  exact absurd (parseResponse_length gunzip hparse) (Nat.lt_irrefl 0)

theorem loop_answers {py : JsonRuntime} (hpy : py.Standard) {replies : List Bytes}
    {messages : List Parsed} (h : List.Forall₂ (Answers gunzip) replies messages)
    (allowsHttp2 allowsHttp09 : Bool) (before : List Parsed) :
    (Origin.loop py gunzip allowsHttp2 allowsHttp09).Returns ⟨replies.flatten, before⟩
      (.ok (before ++ messages)) := by
  induction h generalizing before with
  | nil =>
      refine ⟨_, Loop.Reaches.refl _ _, ?_⟩
      rw [List.append_nil]
      exact Origin.loop_of_nil before
  | @cons reply message replies messages hreply _ ih =>
      have hne : reply ++ replies.flatten ≠ [] := by
        intro hnil
        rw [(List.append_eq_nil_iff.mp hnil).1] at hreply
        exact not_answers_nil hreply
      have hstep := Origin.loop_of_some hne
        (extract_of_answers hpy hreply allowsHttp2 allowsHttp09 replies.flatten)
        (fun hx => by cases hx) before
      have hrest := ih (before ++ [message])
      rw [List.append_assoc] at hrest
      exact Loop.Returns.of_again hstep hrest

/-- **The replies to a stream** are taken apart into what the harness says of each request: no
request is lost, made up, or mixed up with another. -/
theorem parsedRoundtrip_reports {py : JsonRuntime} (hpy : py.Standard) {replies : List Bytes}
    {messages : List Parsed} (h : List.Forall₂ (Answers gunzip) replies messages)
    (allowsHttp2 allowsHttp09 : Bool) :
    (Origin.loop py gunzip allowsHttp2 allowsHttp09).Returns (.init replies.flatten) (.ok messages) :=
  loop_answers hpy h allowsHttp2 allowsHttp09 []

/-- Readers that take nothing but reports. -/
def reportRuntime : JsonRuntime where
  loads text :=
    match (JsonText.parse text).bind (Json.ofValue 3) with
    | some json => .ok json
    | none => .error .jsonDecodeError
  b64decode s :=
    match Base64.decode (bytes s) with
    | some data => .ok data
    | none => .error .binasciiError

theorem bytes_asciiText {raw : Bytes} (h : IsAsciiText raw) : bytes (asciiText raw) = raw := by
  rw [bytes, asciiText, String.toList_ofList, List.map_map]
  conv_rhs => rw [← List.map_id raw]
  refine List.map_congr_left fun c hc => ?_
  have hlt : c.toNat < 128 := (h c hc).2
  have hvalid : c.toNat.isValidChar := .inl (by omega)
  simp only [Function.comp_apply, id_eq]
  rw [Char.ofNat, dif_pos hvalid]
  exact UInt8.ofNat_toNat

theorem standard_reportRuntime : reportRuntime.Standard where
  loads text v json hparse hjson := by
    simp only [reportRuntime, hparse, Option.bind_some, hjson]
  b64decode raw data hraw hdata := by
    simp only [reportRuntime, bytes_asciiText hraw, hdata]

/-- A request with a header, as libmicrohttpd's harness reports it. -/
def getReport : Bytes :=
  Libmicrohttpd.message Base64.encode
    ⟨bytes "GET", bytes "/a", bytes "HTTP/1.1", [(bytes "Host", bytes "b")]⟩ []

/-- Another one, whose body comes in two parts, as aws-c-http's harness reports it. -/
def postReport : Bytes :=
  (AwsCHttp.calls Base64.encode ⟨bytes "POST", bytes "/", .http11⟩ .new
    (AwsCHttp.history [[(bytes "Host", bytes "b")]] [.body (bytes "x"), .body (bytes "y")])).responseBody

/-- Two reports with a refusal between them. -/
theorem parsedRoundtrip_reports_get :
    (Origin.loop reportRuntime (fun _ => .error .badGzipFile) false false).Returns
      (.init [lengthReply (bytes "200") (bytes "OK") getReport,
        lengthReply (bytes "400") (bytes "Bad Request") [],
        lengthReply (bytes "200") (bytes "OK") postReport].flatten)
      (.ok [.request (reported
          ⟨bytes "GET", bytes "/a", [(bytes "Host", bytes "b")], [], bytes "HTTP/1.1"⟩),
        .response ⟨bytes "1.1", bytes "400", bytes "Bad Request",
          [(bytes "Content-Length", digitBytes 10 0)], []⟩,
        .request (reported
          ⟨bytes "POST", bytes "/", [(bytes "Host", bytes "b")], bytes "xy", bytes "HTTP/1.1"⟩)]) := by
  have hget : Answers (fun _ => .error .badGzipFile) (lengthReply (bytes "200") (bytes "OK") getReport)
      (.request (reported
        ⟨bytes "GET", bytes "/a", [(bytes "Host", bytes "b")], [], bytes "HTTP/1.1"⟩)) :=
    .report (.libmicrohttpd
      ⟨bytes "GET", bytes "/a", bytes "HTTP/1.1", [(bytes "Host", bytes "b")]⟩ [])
      (replies_lengthReply (by decide))
  have hrefusal : Answers (fun _ => .error .badGzipFile)
      (lengthReply (bytes "400") (bytes "Bad Request") []) (.response ⟨bytes "1.1", bytes "400",
        bytes "Bad Request", [(bytes "Content-Length", digitBytes 10 0)], []⟩) := by
    refine .refusal (fun rest => parseResponse_lengthReply ?_ ?_ ?_ (Nat.zero_le _) rest) (by decide)
    · simp [bytes, isDigitByte]
    · simp [bytes, IsLine, lf]
    · simp [bytes, Pattern.Stops, isSpace]
  have hlength : postReport.length ≤ sysMaxsize := by
    rw [postReport, AwsCHttp.responseBody_history]
    decide
  have hpost : Answers (fun _ => .error .badGzipFile)
      (lengthReply (bytes "200") (bytes "OK") postReport) (.request (reported
        ⟨bytes "POST", bytes "/", [(bytes "Host", bytes "b")], bytes "xy", bytes "HTTP/1.1"⟩)) :=
    .report (.awsCHttp ⟨bytes "POST", bytes "/", .http11⟩ [[(bytes "Host", bytes "b")]]
      [.body (bytes "x"), .body (bytes "y")] (by decide)) (replies_lengthReply hlength)
  exact parsedRoundtrip_reports standard_reportRuntime
    (.cons hget (.cons hrefusal (.cons hpost .nil))) _ _

end HttpGarden
