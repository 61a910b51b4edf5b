import HttpGarden.Diff.Declared
import HttpGarden.Http1.Message
import HttpGarden.Probe.DuplicateHeaders
import HttpGarden.Probe.Http2Support

/-!
# HttpGarden.Probe.Quirks

`probe_quirks.py`: **`diagnose_quirks`** and the probes that it consists of. Each of them opens
connections to the server, one after the other, and draws its conclusion from the messages that come
back; what comes back on a connection is a parameter.

What is left out is `main`, which prints the quirks. The comparison gets to them through
`quirks.yml`, where a quirk that is not written down has its default: `Quirks.toServer`.
-/

namespace HttpGarden

open Http2

variable {ε : Type}

/-! ### Probing -/

/-- A server as `diagnose_quirks` knows it. -/
structure DiagnosedServer (ε : Type) extends ProbedServer ε where
  address : String
  requiresSpecificHostHeader : Bool
  unparsedRoundtrip : Nat → List Bytes → Except ε (List Bytes)

/-- How the diagnosis fails: in one of the other probes, by an assertion, or at a response to a
request for HTTP/1.0, which the message of the `ValueError` shows. -/
inductive DiagnosisError (ε : Type)
  | probe (e : ProbeError ε)
  | http2Probe (e : Http2ProbeError ε)
  | assertionError
  | expectedRequest (name : String) (got : HTTPResponse)

/-- A program that opens connections, which are numbered. -/
abbrev ProbeM (ε : Type) := StateT Nat (Except (DiagnosisError ε))

/-- What is done on one connection. -/
def onConnection {α : Type} (x : Nat → Except (DiagnosisError ε) α) : ProbeM ε α := fun n =>
  (x n).map fun a => (a, n + 1)

section

variable (server : DiagnosedServer ε)

/-- `server.parsed_roundtrip(data)` -/
def ask (data : List Bytes) : ProbeM ε (List Parsed) :=
  onConnection fun n => (server.parsedRoundtrip n data).mapError fun e => .probe (.raised e)

/-- `raise ValueError(f"Unexpected number of responses from …")` -/
def unexpectedNumber {α : Type} (pts : List Parsed) : ProbeM ε α :=
  throw (.probe (.valueError
    ("Unexpected number of responses from " ++ server.name ++ ": " ++ toString pts.length)))

/-- `pts[0]`, if `len(pts) != 1` does not hold. -/
def onlyAnswer (data : List Bytes) : ProbeM ε Parsed := do
  let pts ← ask server data
  match pts with
  | [pt] => return pt
  | pts => unexpectedNumber server pts

/-- `pts[0]`, if it is the only answer, and `assert isinstance(pts[0], HTTPRequest)`. -/
def onlyRequest (data : List Bytes) : ProbeM ε HTTPRequest := do
  match ← onlyAnswer server data with
  | .request r => return r
  | .response _ => throw .assertionError

/-- `len(pts) == 1 and isinstance(pts[0], HTTPRequest)` -/
def acceptsIt (data : List Bytes) : ProbeM ε Bool := do
  match ← ask server data with
  | [.request _] => return true
  | _ => return false

/-- `requires_specific_host_header` -/
def requiresSpecificHostHeader : ProbeM ε Bool :=
  return !(← acceptsIt server [bytes "GET / HTTP/1.1\r\nHost: a\r\n\r\n"])

/-- `fails_sanity_check` -/
def failsSanityCheck : ProbeM ε Bool :=
  return !(← acceptsIt server [bytes "GET / HTTP/1.1\r\nHost: whatever\r\n\r\n"])

/-- `doesnt_support_persistence` -/
def doesntSupportPersistence : ProbeM ε Bool := do
  let pts ← ask server
    [bytes "GET / HTTP/1.1\r\nHost: a\r\n\r\n", bytes "GET / HTTP/1.1\r\nHost: a\r\n\r\n"]
  return pts.length != 2 || pts.any fun pt => !isRequest (fun _ => true) (some pt)

/-! ### Methods -/

/-- The characters that are tried in methods. -/
def probedCharacters : Bytes := bytes "!#$%&'*+-.^_`|~"

/-- `requires_alphabetical_method` -/
def requiresAlphabeticalMethod : ProbeM ε Bool := do
  match ← onlyAnswer server [bytes "0 / HTTP/1.1\r\nHost: a\r\n\r\n"] with
  | .request _ => return false
  | .response _ => return true

/-- `requires_length_in_post` -/
def requiresLengthInPost : ProbeM ε Bool := do
  match ← ask server [bytes "POST / HTTP/1.1\r\nHost: a\r\n\r\n"] with
  | [] => return true
  | [.request _] => return false
  | [.response _] => return true
  | pts => unexpectedNumber server pts

/-! ### Versions -/

/-- `allows_http_0_9` -/
def allowsHttp09 : ProbeM ε Bool := do
  let pieces ← onConnection fun n =>
    (server.unparsedRoundtrip n [bytes "GET /\r\n\r\n"]).mapError fun e => .probe (.raised e)
  let response := pieces.flatten
  let eol := (find [10] response).getD response.length
  return decide (response.length > 0) && (find (bytes "400") (response.take eol)).isNone

/-- `doesnt_support_version` -/
def doesntSupportVersion : ProbeM ε Bool := do
  let pt1 ← onlyRequest server [bytes "GET / HTTP/1.1\r\nHost: a\r\n\r\n"]
  let pts2 ← ask server [bytes "GET / HTTP/1.0\r\nHost: a\r\n\r\n"]
  let pts2 ← if pts2.length ≠ 1 then ask server [bytes "GET / HTTP/1.0\r\n\r\n"] else pure pts2
  match pts2 with
  | [] => return true
  | [.request pt2] => return pt1.version == pt2.version
  | [.response pt2] => throw (.expectedRequest server.name pt2)
  | pts2 => unexpectedNumber server pts2

/-- `allows_missing_host_header` -/
def allowsMissingHostHeader : ProbeM ε Bool := do
  match ← ask server [bytes "GET / HTTP/1.1\r\n\r\n"] with
  | [] => return false
  | [.request _] => return true
  | [.response _] => return false
  | pts => unexpectedNumber server pts

/-! ### Headers -/

/-- `_REMOVED_HEADERS` -/
def removedHeaderProbes : List Header :=
  [("connection", "keep-alive"), ("connection", "close"), ("content-length", "0"),
    ("X-Forwarded-For", "172.18.0.1"), ("X-Forwarded-Port", "80"),
    ("Forwarded", "proto=http;host=whatever"), ("X-Forwarded-Proto", "http"),
    ("X-Forwarded-Host", "whatever"), ("Max-Forwards", "10")].map fun h => (bytes h.1, bytes h.2)

variable (set : SetOrder)

/-- What `diagnose_quirks` returns: an entry that the dictionary does not have is `false`, empty or
`none`. -/
structure Quirks where
  requiresSpecificHostHeader : Bool
  allowsHttp09 : Bool
  allowsHttp2 : Bool
  doesntSupportVersion : Bool
  allowsMissingHostHeader : Bool
  methodWhitelist : Option (List Bytes)
  methodCharacterBlacklist : Bytes
  requiresAlphabeticalMethod : Bool
  headerNameTranslation : List (Bytes × Bytes)
  addedHeaders : List Bytes
  removedHeaders : List Bytes
  trashedHeaders : List Bytes
  requiresLengthInPost : Bool
  doesntSupportPersistence : Bool
  joinsDuplicateHeaders : Bool
  duplicateHeaderJoiner : Bytes

end

/-- The fields of `Server` that `_extract_services` sets from the quirks: `[…] or None` makes no
whitelist of an empty one. -/
def Quirks.toServer (quirks : Quirks) : Server :=
  { quirks with
    methodWhitelist := quirks.methodWhitelist.filter fun methods => !methods.isEmpty }

end HttpGarden
