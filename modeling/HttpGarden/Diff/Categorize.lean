import HttpGarden.Http1.Message

/-!
# HttpGarden.Diff.Categorize

The **differential oracle** (`diff.py`): what two servers made of one input is
put into a category, after the differences that the known quirks of the two
explain have been taken out.

`categorizeDiscrepancy` is the comparison of two result streams as values. That
the code also writes to the requests it compares is the subject of
`HttpGarden.Diff.Effects`.
-/

namespace HttpGarden

/-! ### Servers and results -/

/-- `Server`: the quirks that the comparison consults. -/
structure Server where
  allowsHttp09 : Bool
  addedHeaders : List Bytes
  requiresLengthInPost : Bool
  allowsMissingHostHeader : Bool
  headerNameTranslation : List (Bytes × Bytes)
  methodCharacterBlacklist : Bytes
  methodWhitelist : Option (List Bytes)
  removedHeaders : List Bytes
  trashedHeaders : List Bytes
  doesntSupportPersistence : Bool
  joinsDuplicateHeaders : Bool
  duplicateHeaderJoiner : Bytes
  deriving Repr, DecidableEq

/-- A server without quirks that allows HTTP/0.9: the defaults of
`_extract_services`, but for that one. -/
def plainServer : Server :=
  ⟨true, [], false, false, [], [], none, [], [], false, false, []⟩

/-- An element of a result stream. -/
inductive Parsed
  | request (r : HTTPRequest)
  | response (r : HTTPResponse)
  deriving Repr, DecidableEq

/-- `ErrorType`. -/
inductive ErrorType
  | ok
  | typeDiscrepancy
  | responseDiscrepancy
  | requestDiscrepancy
  | streamDiscrepancy
  | invalid
  | discrepancy
  deriving Repr, DecidableEq

/-! ### Normalizing a request -/

/-- The header names that `normalize_request(r1, s1, s2)` removes, in order. -/
def removedNames (s1 s2 : Server) : List Bytes :=
  s1.addedHeaders ++ s2.addedHeaders.map (translate · s1.headerNameTranslation) ++
    ((s2.removedHeaders ++ s2.trashedHeaders).map (translate · s1.headerNameTranslation) ++
      s1.trashedHeaders ++ s1.removedHeaders)

/-- `r1.headers.sort()`, as a function of the request's value. -/
def sortRequest (r : HTTPRequest) : HTTPRequest := { r with headers := sortHeaders r.headers }

/-- `normalize_request`, as a function of the request's value. -/
def normalizeRequest (r1 : HTTPRequest) (s1 s2 : Server) : HTTPRequest :=
  let r1 :=
    if s2.joinsDuplicateHeaders then joinDuplicateHeaders r1 s2.duplicateHeaderJoiner else r1
  let r1 := (removedNames s1 s2).foldl removeRequestHeader r1
  let r1 :=
    if s2.headerNameTranslation.length > 0 then
      translateRequestHeaderNames r1 s2.headerNameTranslation
    else r1
  sortRequest r1

/-! ### Comparing one position -/

/-- `isinstance(r, HTTPRequest) and p(r)`. -/
def isRequest (p : HTTPRequest → Bool) : Option Parsed → Bool
  | some (.request r) => p r
  | _ => false

/-- `isinstance(r, HTTPResponse) and p(r)`. -/
def isResponse (p : HTTPResponse → Bool) : Option Parsed → Bool
  | some (.response r) => p r
  | _ => false

/-- How an iteration of the comparison ends. -/
inductive Verdict
  | continue
  | break
  | return (e : ErrorType)
  deriving Repr, DecidableEq

section

variable (r1 r2 : Option Parsed) (s1 s2 : Server)

/-- One of the two requests is invalid. -/
def someInvalid : Bool := isRequest (!·.isValid) r1 || isRequest (!·.isValid) r2

/-- One server errored, and the other did not respond at all. -/
def erroredAlone : Bool :=
  (r1.isNone && isResponse (·.code != bytes "200") r2) ||
    (r2.isNone && isResponse (·.code != bytes "200") r1)

/-- One server did not respond. -/
def oneMissing : Bool := (r1.isNone || r2.isNone) && !(r1.isNone && r2.isNone)

/-- One server parsed a request as HTTP/0.9, and the other does not allow 0.9. In
both halves the code asks the second server. -/
def excusedByHttp09 : Bool :=
  (isRequest (·.version == bytes "0.9") r1 && isResponse (fun _ => true) r2 && !s2.allowsHttp09) ||
    (isRequest (·.version == bytes "0.9") r2 && isResponse (fun _ => true) r1 && !s2.allowsHttp09)

/-- One server requires a length in POST requests, and the other does not. -/
def excusedByLength : Bool :=
  (isResponse (·.code == bytes "411") r1 && s1.requiresLengthInPost &&
      isRequest (·.method == bytes "POST") r2 && !s2.requiresLengthInPost) ||
    (isResponse (·.code == bytes "411") r2 && s2.requiresLengthInPost &&
      isRequest (·.method == bytes "POST") r1 && !s1.requiresLengthInPost)

/-- One server requires the host header, and the other does not. -/
def excusedByHost : Bool :=
  ((r1.isNone || isResponse (·.code == bytes "400") r1) && !s1.allowsMissingHostHeader &&
      s2.allowsMissingHostHeader && isRequest (!·.hasHeader (bytes "host") none) r2) ||
    ((r2.isNone || isResponse (·.code == bytes "400") r2) && !s2.allowsMissingHostHeader &&
      s1.allowsMissingHostHeader && isRequest (!·.hasHeader (bytes "host") none) r1)

/-- One server has a method whitelist, and the request was not on it. -/
def excusedByWhitelist : Bool :=
  (isResponse (fun _ => true) r1 &&
      isRequest (fun r => s1.methodWhitelist.any (!·.contains r.method)) r2) ||
    (isResponse (fun _ => true) r2 &&
      isRequest (fun r => s2.methodWhitelist.any (!·.contains r.method)) r1)

/-- One server has a method character blacklist, and the method contains one of them. -/
def excusedByBlacklist : Bool :=
  (isResponse (fun _ => true) r1 &&
      isRequest (·.method.any (s1.methodCharacterBlacklist.contains ·)) r2) ||
    (isResponse (fun _ => true) r2 &&
      isRequest (·.method.any (s2.methodCharacterBlacklist.contains ·)) r1)

/-- One server rejected and the other accepted. -/
def mixedTypes : Bool :=
  (isRequest (fun _ => true) r1 && !isRequest (fun _ => true) r2) ||
    (!isRequest (fun _ => true) r1 && isRequest (fun _ => true) r2)

/-- The body of the loop in `categorize_discrepancy`, up to where two results of the
same kind are compared. -/
def earlyVerdict : Option Verdict :=
  if someInvalid r1 r2 then some (.return .invalid)
  else if erroredAlone r1 r2 then some .break
  else if oneMissing r1 r2 then some (.return .streamDiscrepancy)
  else if mixedTypes r1 r2 then
    if excusedByHttp09 r1 r2 s2 || excusedByLength r1 r2 s1 s2 || excusedByHost r1 r2 s1 s2 ||
        excusedByWhitelist r1 r2 s1 s2 || excusedByBlacklist r1 r2 s1 s2 then some .break
    else some (.return .typeDiscrepancy)
  else none

/-- `r1 != r2` for two responses, `new_r1 != new_r2` for two requests. -/
def compareSameType : Verdict :=
  match r1, r2 with
  | some (.response a), some (.response b) =>
    if a.eqv b then .continue else .return .responseDiscrepancy
  | some (.request a), some (.request b) =>
    if (normalizeRequest a s1 s2).eqv (normalizeRequest b s2 s1) then .continue
    else .return .requestDiscrepancy
  | _, _ => .continue

/-- The body of the loop in `categorize_discrepancy`. -/
def comparePosition : Verdict :=
  (earlyVerdict r1 r2 s1 s2).getD (compareSameType r1 r2 s1 s2)

end

/-! ### Comparing two streams -/

/-- `itertools.zip_longest`. -/
def zipLongest {α β : Type} : List α → List β → List (Option α × Option β)
  | a :: as, b :: bs => (some a, some b) :: zipLongest as bs
  | a :: as, [] => (some a, none) :: zipLongest as []
  | [], bs => bs.map fun b => (none, some b)

/-- The loop of `categorize_discrepancy`. -/
def comparePositions (s1 s2 : Server) : List (Option Parsed × Option Parsed) → ErrorType
  | [] => .ok
  | (r1, r2) :: positions =>
    match comparePosition r1 r2 s1 s2 with
    | .continue => comparePositions s1 s2 positions
    | .break => .ok
    | .return e => e

/-- The part of a stream that is compared: its first element only, when one of the
servers does not support persistent connections. -/
def consideredStream {α : Type} (s1 s2 : Server) (pts : List α) : List α :=
  if s1.doesntSupportPersistence || s2.doesntSupportPersistence then pts.take 1 else pts

/-- The positions that `categorize_discrepancy` goes through. -/
def positions {α : Type} (pts1 pts2 : List α) (s1 s2 : Server) : List (Option α × Option α) :=
  zipLongest (consideredStream s1 s2 pts1) (consideredStream s1 s2 pts2)

/-- `categorize_discrepancy`. -/
def categorizeDiscrepancy (pts1 pts2 : List Parsed) (s1 s2 : Server) : ErrorType :=
  comparePositions s1 s2 (positions pts1 pts2 s1 s2)

end HttpGarden
