import HttpGarden.Http1.Unparse
import HttpGarden.Mutations.Boundaries

/-!
# HttpGarden.Mutations.Headers

`mutations.py`: the mutations of **one header of a request**. An element of the stream is parsed, one
of its requests gets another header list, and the requests are written back.

The three functions differ in an assertion and in one slice expression. The one for an insertion is
the one for a replacement, so a header is lost where there is one at the position:
`editsOneHeader_iff`.
-/

namespace HttpGarden

open Lib

/-- `_SEED_HEADERS` -/
def seedHeaders : List Header :=
  [(bytes "Content-Length", bytes "0"), (bytes "Transfer-Encoding", bytes "chunked"),
    (bytes "Transfer-Encoding", bytes "identity"), (bytes "", bytes ""), (bytes "Test", bytes ""),
    (bytes "Connection", bytes "close"), (bytes "Connection", bytes "keep-alive")]

/-- What `random` returns: the choice of an element, of a request in it and of a header of that, the
seed header, and the choices made for the request at each index when it is written. -/
structure HeaderDraws where
  substreamIdx : Nat
  requestIdx : Nat
  idx : Nat
  header : Header
  chunks : Nat → ChunkDraws

variable (gunzip : Bytes → Except GzipError Bytes)

/-- The requests as they are serialised, and what is left behind them. In place of the request that
is chosen is what `edit` makes of it, which may assert something about it. -/
def editedRequests (edit : HTTPRequest → Except PyError HTTPRequest) (draws : HeaderDraws)
    (s : List Bytes) : Except PyError (List HTTPRequest × Bytes) := do
  if ¬ s.length ≥ 1 then throw .assertionError
  let substream ← listGet draws.substreamIdx s
  let (parsedSubstream, rest) ← parseRequestStream gunzip substream
  if ¬ parsedSubstream.length ≥ 1 then throw .assertionError
  let request ← listGet draws.requestIdx parsedSubstream
  let newRequest ← edit request
  let (_, parsedSubstream) ← listPop draws.requestIdx parsedSubstream
  return (listInsert draws.requestIdx newRequest parsedSubstream, rest)

/-- `b"".join(map(_unparse_request, parsed_substream)) + rest` -/
def serialise (draws : HeaderDraws) (requests : List HTTPRequest) (rest : Bytes) : Bytes :=
  (requests.zipIdx.flatMap fun p => unparseRequest (draws.chunks p.2) p.1) ++ rest

/-- The body that the mutations of a request share. -/
def rewriteRequest (edit : HTTPRequest → Except PyError HTTPRequest) (draws : HeaderDraws)
    (s : List Bytes) : Except PyError (List Bytes) := do
  let (parsedSubstream, rest) ← editedRequests gunzip edit draws s
  let newSubstream := serialise draws parsedSubstream rest
  return s.take draws.substreamIdx ++ [newSubstream] ++ s.drop (draws.substreamIdx + 1)

/-- The request has to have `minHeaders` headers, and `edit` makes the new ones. -/
def editHeaders (minHeaders : Nat) (edit : Nat → List Header → List Header) (idx : Nat)
    (request : HTTPRequest) : Except PyError HTTPRequest := do
  if ¬ request.headers.length ≥ minHeaders then throw .assertionError
  return { request with headers := edit idx request.headers }

/-- The body that the mutations of one header share. -/
def mutateHeaders (minHeaders : Nat) (edit : Nat → List Header → List Header) (draws : HeaderDraws)
    (s : List Bytes) : Except PyError (List Bytes) :=
  rewriteRequest gunzip (editHeaders minHeaders edit draws.idx) draws s

/-- `_delete_random_header` -/
def deleteRandomHeader (draws : HeaderDraws) (s : List Bytes) : Except PyError (List Bytes) :=
  mutateHeaders gunzip 1 (fun idx headers => headers.take idx ++ headers.drop (idx + 1)) draws s

/-- `_insert_random_header`, which asserts nothing about the headers. -/
def insertRandomHeader (draws : HeaderDraws) (s : List Bytes) : Except PyError (List Bytes) :=
  mutateHeaders gunzip 0
    (fun idx headers => headers.take idx ++ [draws.header] ++ headers.drop (idx + 1)) draws s

/-- `_replace_random_header` -/
def replaceRandomHeader (draws : HeaderDraws) (s : List Bytes) : Except PyError (List Bytes) :=
  mutateHeaders gunzip 1
    (fun idx headers => headers.take idx ++ [draws.header] ++ headers.drop (idx + 1)) draws s

/-! ### The list around the request -/

variable {gunzip}

theorem listGet_eq_ok {α : Type} {i : Nat} {s : List α} {a : α} :
    listGet i s = .ok a ↔ s[i]? = some a := by
  unfold listGet
  cases s[i]? <;> simp

/-- Popping an item and putting another one in its place. -/
theorem listPop_listInsert {α : Type} {i : Nat} {s : List α} {a : α} (h : s[i]? = some a) (b : α) :
    ∃ s', listPop i s = .ok (a, s') ∧ listInsert i b s' = s.set i b := by
  obtain ⟨hi, rfl⟩ := List.getElem?_eq_some_iff.mp h
  refine ⟨s.eraseIdx i, by rw [listPop, h], ?_⟩
  have hlen : (s.take i).length = i := List.length_take_of_le hi.le
  rw [List.eraseIdx_eq_take_drop_succ, List.set_eq_take_append_cons_drop, if_pos hi]
  exact (congrArg (listInsert · b _) hlen.symm).trans (listInsert_append _ b _)

/-- The choices that lead to the request. -/
structure Chosen (gunzip : Bytes → Except GzipError Bytes) (draws : HeaderDraws) (s : List Bytes)
    (requests : List HTTPRequest) (rest : Bytes) (request : HTTPRequest) : Prop where
  parsed : ∃ substream, s[draws.substreamIdx]? = some substream ∧
    parseRequestStream gunzip substream = .ok (requests, rest)
  request : requests[draws.requestIdx]? = some request

section

variable {draws : HeaderDraws} {s : List Bytes} {requests : List HTTPRequest} {rest : Bytes}
  {request : HTTPRequest}

/-- **Nothing around the request changes.** -/
theorem editedRequests_of_chosen (h : Chosen gunzip draws s requests rest request)
    {edit : HTTPRequest → Except PyError HTTPRequest} {newRequest : HTTPRequest}
    (hedit : edit request = .ok newRequest) : editedRequests gunzip edit draws s =
      .ok (requests.set draws.requestIdx newRequest, rest) := by
  obtain ⟨⟨substream, hsubstream, hparse⟩, hrequest⟩ := h
  have hs : ¬ ¬ s.length ≥ 1 := by
    have := (List.getElem?_eq_some_iff.mp hsubstream).1
    omega
  have hrequests : ¬ ¬ requests.length ≥ 1 := by
    have := (List.getElem?_eq_some_iff.mp hrequest).1
    omega
  obtain ⟨left, hpop, hinsert⟩ := listPop_listInsert hrequest newRequest
  rw [editedRequests, if_neg hs, listGet_eq_ok.mpr hsubstream, ok_bind, hparse, ok_bind]
  simp only [if_neg hrequests, listGet_eq_ok.mpr hrequest, ok_bind, hedit, hpop, hinsert, pure_eq_ok]

theorem rewriteRequest_of_chosen (h : Chosen gunzip draws s requests rest request)
    {edit : HTTPRequest → Except PyError HTTPRequest} {newRequest : HTTPRequest}
    (hedit : edit request = .ok newRequest) : rewriteRequest gunzip edit draws s =
      .ok (s.set draws.substreamIdx
        (serialise draws (requests.set draws.requestIdx newRequest) rest)) := by
  obtain ⟨substream, hsubstream, -⟩ := h.parsed
  rw [rewriteRequest, editedRequests_of_chosen h hedit, ok_bind]
  exact congrArg Except.ok
    (splice_one_singleton (List.getElem?_eq_some_iff.mp hsubstream).1 _)

theorem editHeaders_of_le {minHeaders : Nat} (hmin : minHeaders ≤ request.headers.length)
    (edit : Nat → List Header → List Header) (idx : Nat) :
    editHeaders minHeaders edit idx request =
      .ok { request with headers := edit idx request.headers } := by
  rw [editHeaders, if_neg (not_not.mpr hmin)]
  rfl

end

/-! ### One edit -/

inductive HeaderMutation
  | delete
  | insert
  | replace
  deriving Repr, DecidableEq

namespace HeaderMutation

/-- How many headers the request has to have. -/
def minHeaders : HeaderMutation → Nat
  | delete | replace => 1
  | insert => 0

/-- The slice expressions. -/
def edit (header : Header) : HeaderMutation → Nat → List Header → List Header
  | delete => fun idx headers => headers.take idx ++ headers.drop (idx + 1)
  | insert | replace => fun idx headers => headers.take idx ++ [header] ++ headers.drop (idx + 1)

def apply (gunzip : Bytes → Except GzipError Bytes) :
    HeaderMutation → HeaderDraws → List Bytes → Except PyError (List Bytes)
  | delete => deleteRandomHeader gunzip
  | insert => insertRandomHeader gunzip
  | replace => replaceRandomHeader gunzip

/-- How many headers are taken away. -/
def taken : HeaderMutation → Nat
  | delete | replace => 1
  | insert => 0

/-- The headers that are put there. -/
def given (header : Header) : HeaderMutation → List Header
  | delete => []
  | insert | replace => [header]

/-- What the draws can be, for a request with `n` headers. -/
def CanBeDrawn (m : HeaderMutation) (draws : HeaderDraws) (n : Nat) : Prop :=
  draws.header ∈ seedHeaders ∧
    match m with
    | delete | replace => 1 ≤ n ∧ draws.idx ≤ n - 1
    | insert => draws.idx ≤ n

/-- What should hold of the mutation: the header list of the chosen request is edited at the drawn
position, the other requests and the other elements stay as they are, and the edited requests are
what is serialised. -/
def EditsOneHeader (m : HeaderMutation) (gunzip : Bytes → Except GzipError Bytes)
    (draws : HeaderDraws) (s : List Bytes) (requests : List HTTPRequest) (rest : Bytes)
    (request : HTTPRequest) : Prop :=
  let edited := requests.set draws.requestIdx
    { request with headers := splice draws.idx m.taken (m.given draws.header) request.headers }
  editedRequests gunzip (editHeaders m.minHeaders (m.edit draws.header) draws.idx) draws s =
      .ok (edited, rest) ∧
    m.apply gunzip draws s = .ok (s.set draws.substreamIdx (serialise draws edited rest))

theorem apply_eq (m : HeaderMutation) (draws : HeaderDraws) (s : List Bytes) :
    m.apply gunzip draws s = mutateHeaders gunzip m.minHeaders (m.edit draws.header) draws s := by
  cases m <;> rfl

/-- The slice expression is the edit, except for an insertion in front of another header. -/
theorem edit_eq_iff {m : HeaderMutation} {header : Header} {idx : Nat} {headers : List Header}
    (h : idx ≤ headers.length) :
    m.edit header idx headers = splice idx m.taken (m.given header) headers ↔
      (m = insert → idx = headers.length) := by
  cases m with
  | delete =>
      refine iff_of_true ?_ fun hm => by cases hm
      rw [edit, splice, given, List.append_nil]
      rfl
  | replace => exact iff_of_true rfl fun hm => by cases hm
  | insert =>
      refine ⟨fun heq _ => ?_, fun hend => ?_⟩
      · have hlen := congrArg List.length (List.append_cancel_left heq)
        rw [List.length_drop, List.length_drop] at hlen
        simp only [taken] at hlen
        omega
      · rw [hend rfl]
        simp [edit, splice, given, taken]

variable {draws : HeaderDraws} {s : List Bytes} {requests : List HTTPRequest} {rest : Bytes}
  {request : HTTPRequest}

theorem minHeaders_le {m : HeaderMutation} {n : Nat} (h : m.CanBeDrawn draws n) : m.minHeaders ≤ n := by
  obtain ⟨-, h⟩ := h
  cases m with
  | delete | replace => exact h.1
  | insert => exact Nat.zero_le _

theorem idx_le {m : HeaderMutation} {n : Nat} (h : m.CanBeDrawn draws n) : draws.idx ≤ n := by
  obtain ⟨-, h⟩ := h
  cases m with
  | delete | replace => exact h.2.trans (Nat.sub_le _ _)
  | insert => exact h

/-- What is asked of the request list is asked of the slice expression. -/
theorem editsOneHeader_iff_edit {m : HeaderMutation} (h : Chosen gunzip draws s requests rest request)
    (hdraw : m.CanBeDrawn draws request.headers.length) :
    m.EditsOneHeader gunzip draws s requests rest request ↔
      m.edit draws.header draws.idx request.headers =
        splice draws.idx m.taken (m.given draws.header) request.headers := by
  unfold EditsOneHeader
  have hnew := editHeaders_of_le (minHeaders_le hdraw) (m.edit draws.header) draws.idx
  rw [apply_eq, mutateHeaders, editedRequests_of_chosen h hnew, rewriteRequest_of_chosen h hnew]
  refine ⟨fun hedits => ?_, fun hedit => by rw [hedit]; exact ⟨rfl, rfl⟩⟩
  have hset := (Prod.mk.inj (Except.ok.inj hedits.1)).1
  have hlt := (List.getElem?_eq_some_iff.mp h.request).1
  have hnew := congrArg (·[draws.requestIdx]?) hset
  simp only [List.getElem?_set_self hlt, Option.some.injEq, HTTPRequest.mk.injEq, true_and,
    and_true] at hnew
  exact hnew

/-- **A header mutation is one edit**, unless a header is inserted in front of another one. -/
theorem editsOneHeader_iff {m : HeaderMutation} (h : Chosen gunzip draws s requests rest request)
    (hdraw : m.CanBeDrawn draws request.headers.length) :
    m.EditsOneHeader gunzip draws s requests rest request ↔
      (m = insert → draws.idx = request.headers.length) :=
  (editsOneHeader_iff_edit h hdraw).trans (edit_eq_iff (idx_le hdraw))

def threeHeaders : List Header :=
  [(bytes "Host", bytes "a"), (bytes "A", bytes "b"), (bytes "C", [])]

def putRequestB : HTTPRequest := ⟨bytes "PUT", bytes "/b", threeHeaders, [], bytes "1.1"⟩

/-- Two requests on one connection, and the beginning of a third. -/
def pipelinedRequests : List HTTPRequest :=
  [⟨bytes "GET", bytes "/", threeHeaders, [], bytes "1.1"⟩, putRequestB]

def pipelinedElement : Bytes := (pipelinedRequests.map requestHead).flatten ++ bytes "GET"

/-- The second header of the second request in the second element. -/
def secondDraws : HeaderDraws :=
  ⟨1, 1, 1, (bytes "Connection", bytes "close"), fun _ => ⟨[], fun _ => false, false⟩⟩

theorem chosen_pipelined (gunzip : Bytes → Except GzipError Bytes) :
    Chosen gunzip secondDraws [bytes "x", pipelinedElement, []] pipelinedRequests (bytes "GET")
      putRequestB := by
  have hheaders : ∀ h ∈ threeHeaders, (h.1 ≠ [] ∧ (∀ c ∈ h.1, c ≠ colon ∧ c ≠ lf) ∧
      (∀ c ∈ h.2, c ≠ lf) ∧ Trimmed h.2) ∧ FramesNothing h := by
    simp [threeHeaders, bytes, Trimmed, Pattern.Stops, isBlank, colon, lf, FramesNothing, lower]
  have hbare (method uri : Bytes) (hmethod : IsToken method) (huri : IsToken uri) :
      IsBare ⟨method, uri, threeHeaders, [], bytes "1.1"⟩ := by
    refine ⟨⟨hmethod, huri, by simp [IsToken, bytes, isSpace], fun h hh => ?_⟩, rfl,
      scanHeaders_nothing fun h hh => (hheaders h hh).2⟩
    obtain ⟨⟨hne, hname, hvalue, htrimmed⟩, -⟩ := hheaders h hh
    exact ⟨hne, hname, fun hmem => hvalue lf hmem rfl, htrimmed⟩
  have hbares : ∀ r ∈ pipelinedRequests, IsBare r := by
    refine List.forall_mem_cons.mpr ⟨hbare _ _ ?_ ?_, List.forall_mem_singleton.mpr (hbare _ _ ?_ ?_)⟩
    all_goals simp [IsToken, bytes, isSpace]
  have hrest : parseRequestStream gunzip (bytes "GET") = .ok ([], bytes "GET") := by
    have hline : requestLine.first (bytes "GET") = none := by decide
    have herror : parseRequest gunzip (bytes "GET") =
        .error (.valueError "Invalid HTTP response line.") := by
      rw [parseRequest, hline]
    exact parseRequestStream_eq_ok.mpr (.stop (by decide) herror rfl)
  exact ⟨⟨_, rfl, parseRequestStream_bare hbares hrest⟩, rfl⟩

theorem editsOneHeader_iff_pipelined :
    replace.EditsOneHeader (fun _ => .error .badGzipFile) secondDraws
        [bytes "x", pipelinedElement, []] pipelinedRequests (bytes "GET") putRequestB ↔
      (replace = insert → secondDraws.idx = putRequestB.headers.length) :=
  editsOneHeader_iff (chosen_pipelined _) ⟨by decide, by decide⟩

/-- A request with one header. -/
def oneHeader : HTTPRequest :=
  ⟨bytes "GET", bytes "/", [(bytes "A", bytes "b")], [], bytes "1.1"⟩

/-- The first request of the first element, and its first header. -/
def firstDraws : HeaderDraws := ⟨0, 0, 0, (bytes "Test", []), fun _ => ⟨[], fun _ => false, false⟩⟩

theorem chosen_oneHeader : Chosen (fun _ => .error .badGzipFile) firstDraws
    [bytes "GET / HTTP/1.1\r\nA: b\r\n\r\n"] [oneHeader] [] oneHeader := by
  have hparse : parseRequest (fun _ => .error .badGzipFile)
      (bytes "GET / HTTP/1.1\r\nA: b\r\n\r\n") = .ok (oneHeader, []) := by
    decide +kernel
  exact ⟨⟨_, rfl, parseRequestStream_eq_ok.mpr (.more hparse .done)⟩, rfl⟩

/-- The only header is replaced by the one that is inserted. -/
theorem not_editsOneHeader : ¬ ∀ (m : HeaderMutation) (gunzip : Bytes → Except GzipError Bytes)
    (draws : HeaderDraws) (s : List Bytes) (requests : List HTTPRequest) (rest : Bytes)
    (request : HTTPRequest), Chosen gunzip draws s requests rest request →
    m.CanBeDrawn draws request.headers.length →
    m.EditsOneHeader gunzip draws s requests rest request := by
  intro h
  have hdraw : insert.CanBeDrawn firstDraws oneHeader.headers.length :=
    ⟨by decide, Nat.zero_le 1⟩
  have hedit := (editsOneHeader_iff_edit chosen_oneHeader hdraw).mp
    (h insert _ firstDraws _ _ _ _ chosen_oneHeader hdraw)
  have hend := (edit_eq_iff (Nat.zero_le 1)).mp hedit rfl
  cases hend

end HeaderMutation

end HttpGarden
