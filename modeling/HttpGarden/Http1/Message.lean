import Mathlib.Data.List.Sort
import HttpGarden.Python

/-!
# HttpGarden.Http1.Message

Parsed HTTP/1 messages and the operations on them (`http1.py`): equality up to
the framing headers, the validity check, and the three header edits from which
the comparison of two servers builds its normal form. The edits return a new
message, as the `copy.deepcopy` in each of them makes sure of.
-/

namespace HttpGarden

/-- A header: name and value. -/
abbrev Header := Bytes × Bytes

/-! ### Header order -/

/-- Python's order on `(name, value)` tuples of `bytes`. -/
def headerLE (h k : Header) : Prop := h.1 < k.1 ∨ (h.1 = k.1 ∧ h.2 ≤ k.2)

instance : DecidableRel headerLE := fun h k =>
  inferInstanceAs (Decidable (h.1 < k.1 ∨ (h.1 = k.1 ∧ h.2 ≤ k.2)))

instance : Std.Total headerLE where
  total h k := by
    rcases Std.le_total (a := h.1) (b := k.1) with hle | hle
    · by_cases heq : h.1 = k.1
      · rcases Std.le_total (a := h.2) (b := k.2) with h2 | h2
        · exact Or.inl (Or.inr ⟨heq, h2⟩)
        · exact Or.inr (Or.inr ⟨heq.symm, h2⟩)
      · exact Or.inl (Or.inl (Std.lt_of_le_of_ne hle heq))
    · by_cases heq : k.1 = h.1
      · rcases Std.le_total (a := h.2) (b := k.2) with h2 | h2
        · exact Or.inl (Or.inr ⟨heq.symm, h2⟩)
        · exact Or.inr (Or.inr ⟨heq, h2⟩)
      · exact Or.inr (Or.inl (Std.lt_of_le_of_ne hle heq))

instance : IsTrans Header headerLE where
  trans h k l hhk hkl := by
    rcases hhk with h1 | ⟨h1, h2⟩
    · rcases hkl with k1 | ⟨k1, -⟩
      · exact Or.inl (Std.lt_trans h1 k1)
      · exact Or.inl (k1 ▸ h1)
    · rcases hkl with k1 | ⟨k1, k2⟩
      · exact Or.inl (h1 ▸ k1)
      · exact Or.inr ⟨h1.trans k1, Std.le_trans h2 k2⟩

/-- `headers.sort()`. -/
def sortHeaders (hs : List Header) : List Header := hs.insertionSort headerLE

/-- Sorting changes nothing exactly when the headers are in order already. -/
theorem sortHeaders_eq_self_iff {hs : List Header} :
    sortHeaders hs = hs ↔ hs.Pairwise headerLE := by
  constructor
  · intro h
    rw [← h]
    exact List.pairwise_insertionSort headerLE hs
  · exact fun h => h.insertionSort_eq

/-! ### Requests -/

/-- `HTTPRequest`. -/
structure HTTPRequest where
  method : Bytes
  uri : Bytes
  headers : List Header
  body : Bytes
  version : Bytes
  deriving Repr, DecidableEq

/-- `METHODS` -/
def methods : List Bytes :=
  ["ACL", "ANNOUNCE", "BASELINE-CONTROL", "BIND", "CHECKIN", "CHECKOUT", "COPY", "DELETE", "DESCRIBE",
    "FLUSH", "GET", "GET_PARAMETER", "LABEL", "LINK", "LOCK", "M-SEARCH", "MERGE", "MKACTIVITY",
    "MKCALENDAR", "MKCOL", "MKREDIRECTREF", "MKWORKSPACE", "MOVE", "NOTIFY", "ORDERPATCH", "PATCH",
    "PAUSE", "PLAY", "POST", "PROPFIND", "PROPPATCH", "PURGE", "PUT", "QUERY", "REBIND", "RECORD",
    "REDIRECT", "REFRESH", "REPORT", "SEARCH", "SETUP", "SET_PARAMETER", "SOURCE", "SUBSCRIBE",
    "TEARDOWN", "UNBIND", "UNCHECKOUT", "UNKNOWN", "UNLINK", "UNLOCK", "UNSET", "UNSUBSCRIBE",
    "UPDATE", "UPDATEREDIRECTREF", "VERSION-CONTROL", "*"].map bytes

/-- The bytes of a token (`_TCHARS`). -/
def tchars : Bytes :=
  bytes "!#$%&'*+-.^_`|~abcdefghijklmnopqrstuvwxyzABCDEFGHIJKLMNOPQRSTUVWXYZ0123456789"

/-- `_INVALID_HEADER_VALUE_BYTES`. -/
def invalidHeaderValueBytes : Bytes := [13, 10, 0]

/-- The headers that `normalized_headers` leaves out. -/
def framingHeaders : List Bytes :=
  [bytes "content-length", bytes "content_length", bytes "transfer-encoding",
    bytes "transfer_encoding"]

namespace HTTPRequest

/-- `has_header`. The code compares `v`, the header's value, with `value`. -/
def hasHeader (r : HTTPRequest) (name : Bytes) (value : Option Bytes) : Bool :=
  r.headers.any fun h => lower h.1 == lower name && (value.isNone || value == some h.2)

/-- `normalized_headers`. -/
def normalizedHeaders (r : HTTPRequest) : List Header :=
  sortHeaders ((r.headers.filter fun h => !framingHeaders.contains (lower h.1)).map
    fun h => (lower h.1, h.2))

/-- `__eq__` between two requests. -/
def eqv (r s : HTTPRequest) : Bool :=
  r.method == s.method && r.uri == s.uri && r.normalizedHeaders == s.normalizedHeaders &&
    r.body == s.body && (r.version == s.version || s.version == [] || r.version == [])

/-- `set(s) < _TCHARS`: only token bytes, and not every one of them. -/
def properTchars (s : Bytes) : Bool :=
  s.all (tchars.contains ·) && !tchars.all (s.contains ·)

/-- `is_valid`. -/
def isValid (r : HTTPRequest) : Bool :=
  r.headers.all (fun h => properTchars h.1) &&
    r.headers.all (fun h => !h.2.any (invalidHeaderValueBytes.contains ·)) &&
    properTchars r.method

end HTTPRequest

/-- Equality of requests does not depend on the side. -/
theorem HTTPRequest.eqv_comm (r s : HTTPRequest) : r.eqv s = s.eqv r := by
  simp only [HTTPRequest.eqv, Bool.beq_comm (a := r.method), Bool.beq_comm (a := r.uri),
    Bool.beq_comm (a := r.normalizedHeaders), Bool.beq_comm (a := r.body),
    Bool.beq_comm (a := r.version) (b := s.version)]
  rw [Bool.or_assoc, Bool.or_comm (s.version == []), ← Bool.or_assoc]

/-! ### Responses -/

/-- `HTTPResponse`. -/
structure HTTPResponse where
  version : Bytes
  code : Bytes
  reason : Bytes
  headers : List Header
  body : Bytes
  deriving Repr, DecidableEq

/-- `__eq__` between two responses: the status code decides. -/
def HTTPResponse.eqv (r s : HTTPResponse) : Bool := r.code == s.code

theorem HTTPResponse.eqv_comm (r s : HTTPResponse) : r.eqv s = s.eqv r := Bool.beq_comm

/-! ### Header edits -/

/-- `remove_request_header`. -/
def removeRequestHeader (req : HTTPRequest) (key : Bytes) : HTTPRequest :=
  { req with headers := req.headers.filter fun h => lower h.1 != lower key }

/-- One iteration of the loop in `join_duplicate_headers`, on the dictionary in
insertion order: extend the value stored under the key `k`, or add the key. -/
def joinInto (joiner : Bytes) (headers : List Header) (k v : Bytes) : List Header :=
  if headers.any (·.1 == k) then
    headers.map fun h => if h.1 == k then (h.1, h.2 ++ (joiner ++ v)) else h
  else headers ++ [(k, v)]

/-- `join_duplicate_headers`. -/
def joinDuplicateHeaders (req : HTTPRequest) (joiner : Bytes) : HTTPRequest :=
  { req with
    headers := req.headers.foldl (fun headers h => joinInto joiner headers (lower h.1) h.2) [] }

/-- `util.translate`: apply the replacements of the dictionary one after another. -/
def translate (b : Bytes) (tr : List (Bytes × Bytes)) : Bytes :=
  tr.foldl (fun result p => replace p.1 p.2 result) b

/-- `translate_request_header_names`. -/
def translateRequestHeaderNames (req : HTTPRequest) (tr : List (Bytes × Bytes)) : HTTPRequest :=
  { req with headers := req.headers.map fun h => (translate h.1 tr, h.2) }

end HttpGarden
