import HttpGarden.Http1.Parse

/-!
# HttpGarden.Http1.ResponseJson

**What the origin servers report** about a request: JSON with its fields in base64, and for
HTTP/0.9 a page that has a status code somewhere in it (`http1.py`).

The two readers of the standard library, `json.loads` and `base64.b64decode`, are fields of
`JsonRuntime`: what they return, or which of their documented exceptions they raise. A lone
surrogate, which strings here cannot hold, stands as U+FFFD. Neither is in a key or in base64.
-/

namespace HttpGarden

open Lib Pattern

/-! ### The runtime -/

/-- What `json.loads` returns here. Numbers are left as the strings they are written as. -/
inductive Json
  | null
  | bool (b : Bool)
  | str (s : String)
  | list (items : List Json)
  | dict (fields : List (String × Json))

/-- What `json.loads` raises. The first two are `ValueError`s. -/
inductive LoadsError
  | jsonDecodeError
  | unicodeDecodeError (msg : String)
  | recursionError
  deriving Repr, DecidableEq

/-- What `base64.b64decode` raises. Both are `ValueError`s. -/
inductive B64Error
  | binasciiError
  | notAscii
  deriving Repr, DecidableEq

/-- The readers of text. -/
structure JsonRuntime where
  loads : Bytes → Except LoadsError Json
  b64decode : String → Except B64Error Bytes

/-- What can leave the parsers of replies: an exception of the parsers before them, or that the
JSON is nested too deeply. -/
inductive ReplyError
  | raised (e : PyError)
  | recursionError
  deriving Repr, DecidableEq

namespace ReplyError

/-- Does an `except ValueError` clause catch this exception? -/
def isValueError : ReplyError → Bool
  | raised e => e.isValueError
  | recursionError => false

/-- Does an `except H2Error` clause catch this exception? -/
def isH2Error : ReplyError → Bool
  | raised (.h2Error _) => true
  | _ => false

/-- `ValueError(msg)`. -/
def value (msg : String) : ReplyError := raised (.valueError msg)

end ReplyError

/-! ### JSON -/

/-- The error of the assertions. -/
def invalidFields : ReplyError := .value "Missing field(s) or invalid type(s) in response JSON."

/-- The fields that the first assertion asks for. -/
structure ResponseFields where
  headers : List Json
  uri : String
  body : String
  method : String
  version : String

/-- The first assertion. -/
def responseFields? : Json → Option ResponseFields
  | .dict fields =>
    match fields.lookup "headers", fields.lookup "uri", fields.lookup "body",
      fields.lookup "method", fields.lookup "version" with
    | some (.list headers), some (.str uri), some (.str body), some (.str method),
      some (.str version) => some ⟨headers, uri, body, method, version⟩
    | _, _, _, _, _ => none
  | _ => none

section

variable (py : JsonRuntime)

/-- `base64.b64decode`, with `binascii.Error` as the `ValueError` that it becomes. -/
def b64decode (s : String) : Except ReplyError Bytes :=
  match py.b64decode s with
  | .ok data => .ok data
  | .error .binasciiError => .error (.value "Invalid base64 data.")
  | .error .notAscii => .error (.value "string argument should contain only ASCII characters")

/-- One iteration of the loop over the headers. -/
def decodeHeader (hdrPair : Json) : Except ReplyError Header :=
  match hdrPair with
  | .list [.str name, .str value] => do
    let name ← b64decode py name
    let value ← b64decode py value
    return (lower name, value)
  | _ => .error invalidFields

/-- `parse_response_json`. -/
def parseResponseJson (responseBody : Bytes) : Except ReplyError HTTPRequest :=
  match py.loads responseBody with
  | .error .jsonDecodeError =>
    .error (.value ("Couldn't parse response JSON: " ++ reprBytes responseBody))
  | .error (.unicodeDecodeError msg) => .error (.value msg)
  | .error .recursionError => .error .recursionError
  | .ok json =>
    match responseFields? json with
    | none => .error invalidFields
    | some fields => do
      let headers ← fields.headers.mapM (decodeHeader py)
      let version ← b64decode py fields.version
      let version := if bytes "HTTP/" <+: version then version.drop 5 else version
      let body ← b64decode py fields.body
      let method ← b64decode py fields.method
      let uri ← b64decode py fields.uri
      return ⟨method, uri, headers, body, version⟩

theorem b64decode_raises (s : String) : OnlyRaises (·.isValueError = true) (b64decode py s) := by
  unfold b64decode
  split
  · exact onlyRaises_ok _
  · exact onlyRaises_error.mpr rfl
  · exact onlyRaises_error.mpr rfl

theorem decodeHeader_raises (hdrPair : Json) :
    OnlyRaises (·.isValueError = true) (decodeHeader py hdrPair) := by
  unfold decodeHeader
  split
  · exact (b64decode_raises py _).bind fun name => (b64decode_raises py _).bind fun value =>
      onlyRaises_ok _
  · exact onlyRaises_error.mpr rfl

/-- **It fails with `ValueError`**, unless the JSON is nested too deeply for `json.loads`. -/
theorem parseResponseJson_raises (responseBody : Bytes) :
    OnlyRaises (fun e => e.isValueError = true ∨
      e = .recursionError ∧ py.loads responseBody = .error .recursionError)
      (parseResponseJson py responseBody) := by
  unfold parseResponseJson
  split
  · exact onlyRaises_error.mpr (.inl rfl)
  · exact onlyRaises_error.mpr (.inl rfl)
  · next hloads => exact onlyRaises_error.mpr (.inr ⟨rfl, hloads⟩)
  · have hvalue (s : String) := b64decode_raises py s
    split
    · exact onlyRaises_error.mpr (.inl rfl)
    · refine .mono (fun e he => .inl he) ?_
      exact (OnlyRaises.mapM fun hdrPair _ => decodeHeader_raises py hdrPair).bind fun headers =>
        (hvalue _).bind fun version => (hvalue _).bind fun body => (hvalue _).bind fun method =>
          (hvalue _).bind fun uri => onlyRaises_ok _

end

/-! ### HTTP/0.9 -/

/-- `(\d\d\d)`. -/
def threeDigits : Pattern UInt8 Bytes := do
  let a ← one isDigitByte
  let b ← one isDigitByte
  let c ← one isDigitByte
  return [a, b, c]

/-- `parse_http_0_9_response`. -/
def parseHttp09Response (data : Bytes) : Except ReplyError HTTPResponse :=
  if ¬ bytes "<" <+: data then .error (.value "Not HTML; probably not HTTP/0.9")
  else
    match threeDigits.search data with
    | none => .error (.value "No response code found in HTTP/0.9 response")
    | some (_, code, _) => .ok ⟨bytes "0.9", code, [], [], []⟩

end HttpGarden
