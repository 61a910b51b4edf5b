import HttpGarden.Mutations.Headers
import HttpGarden.Mutations.Positions

/-!
# HttpGarden.Mutations.Mutate

`mutations.py`: **`mutate`**, which tries the thirteen mutations in a random order until one of them
has no assertion that fails. What `random` returns is a parameter.

`Mutation.Edits` says what each of them does to a stream. An empty stream has no mutation, and the
loop goes on until there is none left to choose from. Any other stream has one, since an element can
always be duplicated: `mutate_spec`.
-/

namespace HttpGarden

open Lib

/-! ### The other mutations -/

variable (gunzip : Bytes → Except GzipError Bytes)

/-- `_replace_method` -/
def replaceMethod (method : Bytes) (draws : HeaderDraws) (s : List Bytes) :
    Except PyError (List Bytes) :=
  rewriteRequest gunzip (fun request => return { request with method }) draws s

/-- `_duplicate_random_request` -/
def duplicateRandomRequest (i : Nat) (s : List Bytes) : Except PyError (List Bytes) := do
  if ¬ s.length ≥ 1 then throw .assertionError
  return listInsert i (← listGet i s) s

/-- `_delete_random_request` -/
def deleteRandomRequest (i : Nat) (s : List Bytes) : Except PyError (List Bytes) := do
  if ¬ s.length ≥ 2 then throw .assertionError
  return (← listPop i s).2

/-! ### The loop -/

/-- What a mutation draws: a position in the stream or the index of an element, a byte, one of the
meaningful bytes, a place to cut at, the choices for a request, and a method. -/
structure Draws where
  idx : Nat
  byte : UInt8
  choice : Bytes
  boundary : Nat
  request : HeaderDraws
  method : Bytes

inductive Mutation
  | deleteRandomByte
  | replaceRandomByte
  | insertRandomByte
  | insertRandomMeaningfulByte
  | concatRandomRequests
  | shiftRandomRequestBoundaries
  | deleteRandomHeader
  | insertRandomHeader
  | replaceRandomHeader
  | replaceMethod
  | deleteRandomRequest
  | splitRandomRequest
  | duplicateRandomRequest
  deriving Repr, DecidableEq

/-- The list that `mutate` starts with. -/
def mutations : List Mutation :=
  [.deleteRandomByte, .replaceRandomByte, .insertRandomByte, .insertRandomMeaningfulByte,
    .concatRandomRequests, .shiftRandomRequestBoundaries, .deleteRandomHeader, .insertRandomHeader,
    .replaceRandomHeader, .replaceMethod, .deleteRandomRequest, .splitRandomRequest,
    .duplicateRandomRequest]

def Mutation.apply (draws : Draws) : Mutation → List Bytes → Except PyError (List Bytes)
  | deleteRandomByte => HttpGarden.deleteRandomByte draws.idx
  | replaceRandomByte => HttpGarden.replaceRandomByte draws.idx draws.byte
  | insertRandomByte => HttpGarden.insertRandomByte draws.idx draws.byte
  | insertRandomMeaningfulByte => HttpGarden.insertRandomMeaningfulByte draws.idx draws.choice
  | concatRandomRequests => HttpGarden.concatRandomRequests draws.idx
  | shiftRandomRequestBoundaries =>
    HttpGarden.shiftRandomRequestBoundaries draws.idx draws.boundary
  | deleteRandomHeader => HttpGarden.deleteRandomHeader gunzip draws.request
  | insertRandomHeader => HttpGarden.insertRandomHeader gunzip draws.request
  | replaceRandomHeader => HttpGarden.replaceRandomHeader gunzip draws.request
  | replaceMethod => HttpGarden.replaceMethod gunzip draws.method draws.request
  | deleteRandomRequest => HttpGarden.deleteRandomRequest draws.idx
  | splitRandomRequest => HttpGarden.splitRandomRequest draws.idx draws.boundary
  | duplicateRandomRequest => HttpGarden.duplicateRandomRequest draws.idx

/-- What `random` returns in a call of `mutate`. A round is told by the number of mutations that are
left: which of them is chosen, and what that one draws. -/
structure Random where
  choice : Nat → Nat
  draws : Nat → Mutation → Draws

/-- The rounds of the loop, with the mutations that are left. -/
def mutateFrom (random : Random) (s : List Bytes) (mutations : List Mutation) :
    Except PyError (List Bytes) :=
  match _h : mutations[random.choice mutations.length]? with
  | none => .error (.indexError "Cannot choose from an empty sequence")
  | some mutation =>
    match mutation.apply gunzip (random.draws mutations.length mutation) s with
    | .error .assertionError =>
      mutateFrom random s (mutations.eraseIdx (random.choice mutations.length))
    | result => result
termination_by mutations.length
decreasing_by
  have hlt := (List.getElem?_eq_some_iff.mp _h).1
  rw [List.length_eraseIdx_of_lt hlt]
  omega

/-- `mutate` -/
def mutate (random : Random) (s : List Bytes) : Except PyError (List Bytes) :=
  mutateFrom gunzip random s mutations

/-- The mutations that are chosen in the rounds, one after the other. -/
def triedFrom (random : Random) (s : List Bytes) (mutations : List Mutation) : List Mutation :=
  match _h : mutations[random.choice mutations.length]? with
  | none => []
  | some mutation =>
    match mutation.apply gunzip (random.draws mutations.length mutation) s with
    | .error .assertionError =>
      mutation :: triedFrom random s (mutations.eraseIdx (random.choice mutations.length))
    | _ => [mutation]
termination_by mutations.length
decreasing_by
  have hlt := (List.getElem?_eq_some_iff.mp _h).1
  rw [List.length_eraseIdx_of_lt hlt]
  omega

/-- The mutations that `mutate` tries. -/
def tried (random : Random) (s : List Bytes) : List Mutation := triedFrom gunzip random s mutations

/-! ### What can be drawn -/

/-- The choices for a request: an element, a request in it, of which the rest of the draws have to be
right, and the chunks that any of the requests is written in. -/
def HeaderDraws.CanBeDrawn (draws : HeaderDraws) (s : List Bytes) (P : HTTPRequest → Prop) : Prop :=
  draws.substreamIdx < s.length ∧
    ∀ substream requests rest, s[draws.substreamIdx]? = some substream →
      parseRequestStream gunzip substream = .ok (requests, rest) → requests ≠ [] →
      draws.requestIdx < requests.length ∧
      (∀ request, requests[draws.requestIdx]? = some request → P request) ∧
      ∀ i request, requests[i]? = some request → (draws.chunks i).ValidFor request.body

/-- What the draws can be, from a stream. Nothing is drawn behind an assertion that fails. -/
def Mutation.CanBeDrawn (draws : Draws) (s : List Bytes) (m : Mutation) : Prop :=
  s ≠ [] →
    match m with
    | deleteRandomByte | replaceRandomByte => 1 ≤ totalLen s → draws.idx ≤ totalLen s - 1
    | insertRandomByte => draws.idx ≤ totalLen s
    | insertRandomMeaningfulByte => draws.idx ≤ totalLen s ∧ draws.choice ∈ meaningfulBytes
    | concatRandomRequests => 2 ≤ s.length → draws.idx ≤ s.length - 2
    | shiftRandomRequestBoundaries => 2 ≤ s.length → draws.idx ≤ s.length - 2 ∧
        ∀ pre a b post, AdjacentAt draws.idx s pre a b post → draws.boundary ≤ (a ++ b).length
    | deleteRandomHeader => draws.request.CanBeDrawn gunzip s fun request =>
        1 ≤ request.headers.length → draws.request.idx ≤ request.headers.length - 1
    | insertRandomHeader => draws.request.header ∈ seedHeaders ∧
        draws.request.CanBeDrawn gunzip s fun request => draws.request.idx ≤ request.headers.length
    | replaceRandomHeader => draws.request.header ∈ seedHeaders ∧
        draws.request.CanBeDrawn gunzip s fun request =>
          1 ≤ request.headers.length → draws.request.idx ≤ request.headers.length - 1
    | replaceMethod => draws.method ∈ methods ∧ draws.request.CanBeDrawn gunzip s fun _ => True
    | deleteRandomRequest => 2 ≤ s.length → draws.idx ≤ s.length - 1
    | splitRandomRequest => draws.idx ≤ s.length - 1 ∧
        ∀ a, s[draws.idx]? = some a → 2 ≤ a.length → 1 ≤ draws.boundary ∧ draws.boundary ≤ a.length - 1
    | duplicateRandomRequest => draws.idx ≤ s.length - 1

/-- A choice is one of what is left, and what is drawn then can be. -/
structure Random.ValidFor (random : Random) (s : List Bytes) : Prop where
  choice : ∀ n, 0 < n → random.choice n < n
  draws : ∀ n (m : Mutation), m.CanBeDrawn gunzip (random.draws n m) s

/-! ### The edits -/

namespace Mutation

/-- What a mutation makes of the request that it has chosen. -/
def RewritesRequest (r r' : HTTPRequest) : Mutation → Prop
  | deleteRandomHeader => ∃ hs h hs', r.headers = hs ++ h :: hs' ∧ r' = { r with headers := hs ++ hs' }
  -- the header behind the place is lost
  | insertRandomHeader => ∃ hs hs', ∃ h ∈ seedHeaders,
      r.headers = hs ++ hs' ∧ r' = { r with headers := hs ++ h :: hs'.tail }
  | replaceRandomHeader => ∃ hs h hs', ∃ h' ∈ seedHeaders,
      r.headers = hs ++ h :: hs' ∧ r' = { r with headers := hs ++ h' :: hs' }
  | replaceMethod => ∃ method ∈ methods, r' = { r with method }
  | _ => False

/-- The element is parsed, one of its requests is rewritten, and all of them are written back. -/
def RewritesElement (a a' : Bytes) (m : Mutation) : Prop :=
  ∃ (requests : List HTTPRequest) (rest : Bytes) (i : Nat) (r r' : HTTPRequest) (draws : HeaderDraws),
    parseRequestStream gunzip a = .ok (requests, rest) ∧ requests[i]? = some r ∧
    m.RewritesRequest r r' ∧ a' = serialise draws (requests.set i r') rest ∧
    ∀ j request, (requests.set i r')[j]? = some request → (draws.chunks j).ValidFor request.body

/-- What a mutation makes of the element that it edits. Nothing is inserted behind the last byte. -/
def EditsElement (a a' : Bytes) (m : Mutation) : Prop :=
  match m with
  | deleteRandomByte => ∃ u c v, a = u ++ c :: v ∧ a' = u ++ v
  | replaceRandomByte => ∃ u c c' v, a = u ++ c :: v ∧ a' = u ++ c' :: v
  | insertRandomByte => ∃ u c c' v, a = u ++ c :: v ∧ a' = u ++ c' :: c :: v
  | insertRandomMeaningfulByte => ∃ u c v, ∃ word ∈ meaningfulBytes,
      a = u ++ c :: v ∧ a' = u ++ (word ++ c :: v)
  | m => m.RewritesElement gunzip a a'

/-- **What a mutation does to a stream.** In front of the place and behind it nothing changes. -/
def Edits (s t : List Bytes) (m : Mutation) : Prop :=
  match m with
  | concatRandomRequests => ∃ pre a b post, s = pre ++ a :: b :: post ∧ t = pre ++ (a ++ b) :: post
  -- the two parts change places
  | shiftRandomRequestBoundaries => ∃ pre a b c d post,
      s = pre ++ a :: b :: post ∧ a ++ b = c ++ d ∧ t = pre ++ d :: c :: post
  | splitRandomRequest => ∃ pre a b post,
      a ≠ [] ∧ b ≠ [] ∧ s = pre ++ (a ++ b) :: post ∧ t = pre ++ a :: b :: post
  | deleteRandomRequest => ∃ pre a post, pre ++ post ≠ [] ∧ s = pre ++ a :: post ∧ t = pre ++ post
  | duplicateRandomRequest => ∃ pre a post, s = pre ++ a :: post ∧ t = pre ++ a :: a :: post
  | m => ∃ pre a a' post, s = pre ++ a :: post ∧ t = pre ++ a' :: post ∧ m.EditsElement gunzip a a'

/-- The mutation changes how many elements or how many bytes there are. -/
def Resizes (m : Mutation) : Prop :=
  m ∈ [deleteRandomByte, insertRandomByte, insertRandomMeaningfulByte, concatRandomRequests,
    splitRandomRequest, deleteRandomRequest, duplicateRandomRequest]

variable {gunzip} {m : Mutation} {s t pre post : List Bytes} {a a' : Bytes} {r r' : HTTPRequest}

theorem RewritesRequest.body_eq (h : m.RewritesRequest r r') : r'.body = r.body := by
  cases m with
  | deleteRandomHeader =>
      obtain ⟨hs, k, hs', -, rfl⟩ := h
      rfl
  | insertRandomHeader =>
      obtain ⟨hs, hs', k, -, -, rfl⟩ := h
      rfl
  | replaceRandomHeader =>
      obtain ⟨hs, k, hs', k', -, -, rfl⟩ := h
      rfl
  | replaceMethod =>
      obtain ⟨method, -, rfl⟩ := h
      rfl
  | _ => exact h.elim

/-- Only the mutations of a request rewrite one. -/
theorem RewritesElement.editsElement (h : m.RewritesElement gunzip a a') :
    m.EditsElement gunzip a a' := by
  cases m with
  | deleteRandomByte | replaceRandomByte | insertRandomByte | insertRandomMeaningfulByte =>
      obtain ⟨_, _, _, _, _, _, _, _, hrewrites, _⟩ := h
      exact hrewrites.elim
  | _ => exact h

theorem EditsElement.edits (h : m.EditsElement gunzip a a') (pre post : List Bytes) :
    m.Edits gunzip (pre ++ a :: post) (pre ++ a' :: post) := by
  cases m with
  | concatRandomRequests | shiftRandomRequestBoundaries | splitRandomRequest | deleteRandomRequest
  | duplicateRandomRequest =>
      obtain ⟨_, _, _, _, _, _, _, _, hrewrites, _⟩ := h
      exact hrewrites.elim
  | _ => exact ⟨pre, a, a', post, rfl, rfl, h⟩

theorem Edits.ne_nil (h : m.Edits gunzip s t) : t ≠ [] := by
  cases m with
  | concatRandomRequests =>
      obtain ⟨pre, a, b, post, -, rfl⟩ := h
      simp
  | shiftRandomRequestBoundaries =>
      obtain ⟨pre, a, b, c, d, post, -, -, rfl⟩ := h
      simp
  | splitRandomRequest =>
      obtain ⟨pre, a, b, post, -, -, -, rfl⟩ := h
      simp
  | deleteRandomRequest =>
      obtain ⟨pre, a, post, hne, -, rfl⟩ := h
      exact hne
  | duplicateRandomRequest =>
      obtain ⟨pre, a, post, -, rfl⟩ := h
      simp
  | _ =>
      obtain ⟨pre, a, a', post, -, rfl, -⟩ := h
      simp

/-- An edit of one element that changes its length. -/
theorem ne_of_length (h : a'.length ≠ a.length) : pre ++ a' :: post ≠ pre ++ a :: post := by
  intro heq
  exact h (congrArg List.length (List.cons.inj (List.append_cancel_left heq)).1)

theorem Edits.ne (h : m.Edits gunzip s t) (hm : m.Resizes) : t ≠ s := by
  cases m with
  | deleteRandomByte =>
      obtain ⟨pre, _, _, post, rfl, rfl, u, c, v, rfl, rfl⟩ := h
      exact ne_of_length (by simp)
  | insertRandomByte =>
      obtain ⟨pre, _, _, post, rfl, rfl, u, c, c', v, rfl, rfl⟩ := h
      exact ne_of_length (by simp)
  | insertRandomMeaningfulByte =>
      obtain ⟨pre, _, _, post, rfl, rfl, u, c, v, word, hword, rfl, rfl⟩ := h
      have hpos : 0 < word.length := by
        have hall : ∀ word ∈ meaningfulBytes, 0 < word.length := by decide
        exact hall word hword
      refine ne_of_length ?_
      simp only [List.length_append, List.length_cons]
      omega
  | concatRandomRequests =>
      obtain ⟨pre, a, b, post, rfl, rfl⟩ := h
      intro heq
      simpa using congrArg List.length heq
  | splitRandomRequest =>
      obtain ⟨pre, a, b, post, -, -, rfl, rfl⟩ := h
      intro heq
      simpa using congrArg List.length heq
  | deleteRandomRequest =>
      obtain ⟨pre, a, post, -, rfl, rfl⟩ := h
      intro heq
      simpa using congrArg List.length heq
  | duplicateRandomRequest =>
      obtain ⟨pre, a, post, rfl, rfl⟩ := h
      intro heq
      simpa using congrArg List.length heq
  | _ => simp [Resizes] at hm

end Mutation

variable {gunzip}

/-! ### One mutation -/

/-- What a mutation comes to: an assertion fails, or there is a new stream, or an element was parsed
and that raised something. -/
def Settles (gunzip : Bytes → Except GzipError Bytes) (m : Mutation) (s : List Bytes)
    (result : Except PyError (List Bytes)) : Prop :=
  result = .error .assertionError ∨ (∃ t, result = .ok t ∧ m.Edits gunzip s t) ∨
    ∃ e, result = .error e ∧ ∃ substream ∈ s, parseRequestStream gunzip substream = .error e

variable {s : List Bytes} {m : Mutation}

/-- The indices of a choice are those of an element. -/
theorem exists_element {i : Nat} (hs : s ≠ []) (h : i ≤ s.length - 1) :
    ∃ pre a post, s = pre ++ a :: post ∧ pre.length = i := by
  have := List.length_pos_iff.mpr hs
  exact exists_append_cons (by omega)

theorem rewriteRequest_settles {edit : HTTPRequest → Except PyError HTTPRequest}
    {draws : HeaderDraws} {P : HTTPRequest → Prop} (h : draws.CanBeDrawn gunzip s P)
    (hedit : ∀ request, P request → edit request = .error .assertionError ∨
      ∃ r', edit request = .ok r' ∧ m.RewritesRequest request r') :
    Settles gunzip m s (rewriteRequest gunzip edit draws s) := by
  obtain ⟨hlt, hdraws⟩ := h
  obtain ⟨pre, substream, post, rfl, hpre⟩ := exists_append_cons hlt
  have hget : (pre ++ substream :: post)[draws.substreamIdx]? = some substream := by
    rw [← hpre, List.getElem?_append_right le_rfl, Nat.sub_self, List.getElem?_cons_zero]
  have hlen : ¬ ¬ (pre ++ substream :: post).length ≥ 1 := by omega
  cases hparse : parseRequestStream gunzip substream with
  | error e =>
      refine .inr (.inr ⟨e, ?_, _, List.mem_append_right _ List.mem_cons_self, hparse⟩)
      rw [rewriteRequest, editedRequests, if_neg hlen, listGet_eq_ok.mpr hget, ok_bind, hparse]
      rfl
  | ok p =>
      obtain ⟨requests, rest⟩ := p
      by_cases hrequests : requests = []
      · refine .inl ?_
        rw [rewriteRequest, editedRequests, if_neg hlen, listGet_eq_ok.mpr hget, ok_bind, hparse,
          hrequests]
        rfl
      obtain ⟨hrequest, hP, hchunks⟩ := hdraws _ _ _ hget hparse hrequests
      have hrequest' : requests[draws.requestIdx]? = some requests[draws.requestIdx] :=
        List.getElem?_eq_getElem hrequest
      rcases hedit _ (hP _ hrequest') with hassert | ⟨r', hok, hrewrites⟩
      · refine .inl ?_
        have hpos : ¬ ¬ requests.length ≥ 1 := by omega
        rw [rewriteRequest, editedRequests, if_neg hlen, listGet_eq_ok.mpr hget, ok_bind, hparse,
          ok_bind]
        simp only [if_neg hpos, listGet_eq_ok.mpr hrequest', ok_bind, hassert]
        rfl
      · have hrun := rewriteRequest_of_chosen ⟨⟨_, hget, hparse⟩, hrequest'⟩ hok
        rw [← hpre, List.set_append_right _ _ le_rfl, Nat.sub_self, List.set_cons_zero] at hrun
        refine .inr (.inl ⟨_, hrun, Mutation.EditsElement.edits (Mutation.RewritesElement.editsElement
          ⟨requests, rest, _, _, r', draws, hparse, hrequest', hrewrites, rfl, ?_⟩) pre post⟩)
        -- the body is written in the chunks that were drawn for it
        intro j request hj
        by_cases hidx : draws.requestIdx = j
        · rw [← hidx, List.getElem?_set_self hrequest, Option.some.injEq] at hj
          rw [← hj, hrewrites.body_eq, ← hidx]
          exact hchunks _ _ hrequest'
        · rw [List.getElem?_set_ne hidx] at hj
          exact hchunks _ _ hj

theorem mutateHeaders_settles {draws : HeaderDraws} {P : HTTPRequest → Prop} {minHeaders : Nat}
    {edit : Nat → List Header → List Header} (h : draws.CanBeDrawn gunzip s P)
    (hedit : ∀ request, P request → minHeaders ≤ request.headers.length →
      m.RewritesRequest request { request with headers := edit draws.idx request.headers }) :
    Settles gunzip m s (mutateHeaders gunzip minHeaders edit draws s) := by
  refine rewriteRequest_settles h fun request hP => ?_
  by_cases hmin : minHeaders ≤ request.headers.length
  · exact .inr ⟨_, editHeaders_of_le hmin edit draws.idx, hedit request hP hmin⟩
  · refine .inl ?_
    rw [editHeaders, if_pos hmin]
    rfl

/-- A byte mutation changes one element, or finds none. -/
theorem byteMutation_settles {b : ByteMutation} (h : b.CanBeDrawn s)
    (hedit : ∀ u c v, m.EditsElement gunzip (u ++ c :: v) (u ++ splice 0 b.taken b.given (c :: v))) :
    Settles gunzip m s (b.apply s) := by
  rw [ByteMutation.apply_eq h]
  by_cases hpos : b.position < s.flatten.length
  · obtain ⟨pre, req, post, i, hs, hi, -, hrun⟩ :=
      editFrom_of_lt (fun req idx => splice idx b.taken b.given req) [] hpos
    obtain ⟨u, c, v, rfl, rfl⟩ := exists_append_cons hi
    refine .inr (.inl ⟨_, hrun, ?_⟩)
    have hedits := (hedit u c v).edits pre post
    rwa [← splice_shift, ← hs] at hedits
  · exact .inl (editFrom_of_ge (not_lt.mp hpos))

theorem totalLen_guard (hs : s ≠ []) (h : totalLen s = 0) {x : Except PyError (List Bytes)} :
    (if ¬ s.length ≥ 1 then Except.error PyError.assertionError
      else if ¬ totalLen s ≥ 1 then Except.error PyError.assertionError else x) =
      .error .assertionError := by
  have hlen : ¬ ¬ s.length ≥ 1 := not_not.mpr (List.length_pos_iff.mpr hs)
  rw [if_neg hlen, if_pos (by omega)]

/-- Two elements next to each other, if there are two at all. -/
theorem exists_adjacent {i : Nat} (h : 2 ≤ s.length) (hi : i ≤ s.length - 2) :
    ∃ pre a b post, AdjacentAt i s pre a b post := by
  obtain ⟨pre, a, post, hs, hpre⟩ := exists_element (List.ne_nil_of_length_pos (by omega))
    (hi.trans (Nat.sub_le_sub_left (by decide) _))
  cases post with
  | nil =>
      rw [hs, List.length_append, List.length_singleton] at hi h
      omega
  | cons b post => exact ⟨pre, a, b, post, hs, hpre⟩

theorem duplicateRandomRequest_append (pre : List Bytes) (a : Bytes) (post : List Bytes) :
    duplicateRandomRequest pre.length (pre ++ a :: post) = .ok (pre ++ a :: a :: post) := by
  have hlen : ¬ ¬ (pre ++ a :: post).length ≥ 1 := by
    rw [List.length_append, List.length_cons]
    omega
  rw [duplicateRandomRequest, if_neg hlen, listGet_append]
  exact congrArg Except.ok (listInsert_append pre a (a :: post))

theorem deleteRandomRequest_append {pre : List Bytes} {a : Bytes} {post : List Bytes}
    (h : pre ++ post ≠ []) :
    deleteRandomRequest pre.length (pre ++ a :: post) = .ok (pre ++ post) := by
  have hlen : ¬ ¬ (pre ++ a :: post).length ≥ 2 := by
    have := List.length_pos_iff.mpr h
    rw [List.length_append] at this
    rw [List.length_append, List.length_cons]
    omega
  rw [deleteRandomRequest, if_neg hlen, listPop_append]
  rfl

theorem concatRandomRequests_append (pre : List Bytes) (a b : Bytes) (post : List Bytes) :
    concatRandomRequests pre.length (pre ++ a :: b :: post) = .ok (pre ++ (a ++ b) :: post) := by
  have hlen : ¬ ¬ (pre ++ a :: b :: post).length ≥ 2 := by
    rw [List.length_append, List.length_cons, List.length_cons]
    omega
  rw [concatRandomRequests, if_neg hlen, listPop_append, ok_bind]
  simp only [listGet_append, ok_bind, pure_eq_ok]
  rw [List.set_append_right _ _ le_rfl, Nat.sub_self, List.set_cons_zero]

theorem splitRandomRequest_append {pre : List Bytes} {a : Bytes} {post : List Bytes} (splitSpot : Nat)
    (h : 2 ≤ a.length) : splitRandomRequest pre.length splitSpot (pre ++ a :: post) =
      .ok (pre ++ a.take splitSpot :: a.drop splitSpot :: post) := by
  have hlen : ¬ ¬ (pre ++ a :: post).length ≥ 1 := by
    rw [List.length_append, List.length_cons]
    omega
  rw [splitRandomRequest, if_neg hlen, listPop_append, ok_bind]
  simp only [if_neg (not_not.mpr h), listInsert_append, pure_eq_ok]

/-- **One mutation**: it makes its edit, or it has an assertion that fails, or it passes on what the
parser raises. -/
theorem Mutation.apply_settles {m : Mutation} {draws : Draws} (hs : s ≠ [])
    (h : m.CanBeDrawn gunzip draws s) : Settles gunzip m s (m.apply gunzip draws s) := by
  have hdraw := h hs
  cases m with
  | deleteRandomByte =>
      by_cases hpos : totalLen s = 0
      · exact .inl (totalLen_guard hs hpos)
      · have hpos : 1 ≤ totalLen s := by omega
        exact byteMutation_settles (b := .delete draws.idx) ⟨hs, hpos, hdraw hpos⟩ fun u c v =>
          ⟨u, c, v, rfl, rfl⟩
  | replaceRandomByte =>
      by_cases hpos : totalLen s = 0
      · exact .inl (totalLen_guard hs hpos)
      · have hpos : 1 ≤ totalLen s := by omega
        exact byteMutation_settles (b := .replace draws.idx draws.byte) ⟨hs, hpos, hdraw hpos⟩
          fun u c v => ⟨u, c, draws.byte, v, rfl, rfl⟩
  | insertRandomByte =>
      exact byteMutation_settles (b := .insert draws.idx draws.byte) ⟨hs, hdraw⟩ fun u c v =>
        ⟨u, c, draws.byte, v, rfl, rfl⟩
  | insertRandomMeaningfulByte =>
      exact byteMutation_settles (b := .insertMeaningful draws.idx draws.choice) ⟨hs, hdraw⟩
        fun u c v => ⟨u, c, v, draws.choice, hdraw.2, rfl, rfl⟩
  | concatRandomRequests =>
      by_cases hlen : 2 ≤ s.length
      · obtain ⟨pre, a, b, post, rfl, hpre⟩ := exists_adjacent hlen (hdraw hlen)
        rw [apply, ← hpre, concatRandomRequests_append]
        exact .inr (.inl ⟨_, rfl, pre, a, b, post, rfl, rfl⟩)
      · exact .inl (if_pos hlen)
  | shiftRandomRequestBoundaries =>
      by_cases hlen : 2 ≤ s.length
      · obtain ⟨pre, a, b, post, hat⟩ := exists_adjacent hlen (hdraw hlen).1
        exact .inr (.inl ⟨_, BoundaryMutation.shiftRandomRequestBoundaries_of_adjacent hat _,
          pre, a, b, _, _, post, hat.1, (List.take_append_drop _ _).symm, rfl⟩)
      · exact .inl (if_pos hlen)
  | deleteRandomHeader =>
      refine mutateHeaders_settles hdraw fun request hidx hpos => ?_
      obtain ⟨hs, k, hs', heq, hlen⟩ := exists_append_cons (i := draws.request.idx)
        (s := request.headers) (by have := hidx hpos; omega)
      exact ⟨hs, k, hs', heq, by rw [heq, ← hlen]; simp⟩
  | insertRandomHeader =>
      refine mutateHeaders_settles hdraw.2 fun request hidx _ => ?_
      refine ⟨request.headers.take draws.request.idx, request.headers.drop draws.request.idx, _,
        hdraw.1, (List.take_append_drop _ _).symm, ?_⟩
      rw [List.tail_drop, List.append_assoc, List.singleton_append]
  | replaceRandomHeader =>
      refine mutateHeaders_settles hdraw.2 fun request hidx hpos => ?_
      obtain ⟨hs, k, hs', heq, hlen⟩ := exists_append_cons (i := draws.request.idx)
        (s := request.headers) (by have := hidx hpos; omega)
      exact ⟨hs, k, hs', _, hdraw.1, heq, by rw [heq, ← hlen]; simp⟩
  | replaceMethod =>
      exact rewriteRequest_settles hdraw.2 fun request _ => .inr ⟨_, rfl, _, hdraw.1, rfl⟩
  | deleteRandomRequest =>
      by_cases hlen : 2 ≤ s.length
      · obtain ⟨pre, a, post, rfl, hpre⟩ := exists_element hs (hdraw hlen)
        have hne : pre ++ post ≠ [] := by
          rw [List.length_append, List.length_cons] at hlen
          refine List.ne_nil_of_length_pos ?_
          rw [List.length_append]
          omega
        rw [apply, ← hpre, deleteRandomRequest_append hne]
        exact .inr (.inl ⟨_, rfl, pre, a, post, hne, rfl, rfl⟩)
      · exact .inl (if_pos hlen)
  | splitRandomRequest =>
      obtain ⟨pre, a, post, rfl, hpre⟩ := exists_element hs hdraw.1
      by_cases ha : 2 ≤ a.length
      · have hspot := hdraw.2 a (by
          rw [← hpre, List.getElem?_append_right le_rfl, Nat.sub_self, List.getElem?_cons_zero]) ha
        rw [apply, ← hpre, splitRandomRequest_append _ ha]
        refine .inr (.inl ⟨_, rfl, pre, a.take draws.boundary, a.drop draws.boundary, post, ?_, ?_, ?_,
          rfl⟩)
        · refine List.ne_nil_of_length_pos ?_
          rw [List.length_take]
          omega
        · refine List.ne_nil_of_length_pos ?_
          rw [List.length_drop]
          omega
        · rw [List.take_append_drop]
      · refine .inl ?_
        have hlen : ¬ ¬ (pre ++ a :: post).length ≥ 1 := by
          rw [List.length_append, List.length_cons]
          omega
        rw [apply, ← hpre, HttpGarden.splitRandomRequest, if_neg hlen, listPop_append, ok_bind]
        simp only [if_pos ha]
        rfl
  | duplicateRandomRequest =>
      obtain ⟨pre, a, post, rfl, hpre⟩ := exists_element hs hdraw
      rw [apply, ← hpre, duplicateRandomRequest_append]
      exact .inr (.inl ⟨_, rfl, pre, a, post, rfl, rfl⟩)

/-! ### All rounds -/

section

variable {random : Random} {ms : List Mutation}

/-- A round whose mutation has an assertion that fails. -/
theorem round_of_assertion (hm : ms[random.choice ms.length]? = some m)
    (h : m.apply gunzip (random.draws ms.length m) s = .error .assertionError) :
    mutateFrom gunzip random s ms =
        mutateFrom gunzip random s (ms.eraseIdx (random.choice ms.length)) ∧
      triedFrom gunzip random s ms =
        m :: triedFrom gunzip random s (ms.eraseIdx (random.choice ms.length)) := by
  rw [mutateFrom, triedFrom]
  split
  · rename_i hnone
    cases hm.symm.trans hnone
  · rename_i hsome
    cases hm.symm.trans hsome
    rw [h]
    exact ⟨rfl, rfl⟩

/-- The last round. -/
theorem round_of_settled (hm : ms[random.choice ms.length]? = some m)
    (h : m.apply gunzip (random.draws ms.length m) s ≠ .error .assertionError) :
    mutateFrom gunzip random s ms = m.apply gunzip (random.draws ms.length m) s ∧
      triedFrom gunzip random s ms = [m] := by
  rw [mutateFrom, triedFrom]
  split
  · rename_i hnone
    cases hm.symm.trans hnone
  · rename_i hsome
    cases hm.symm.trans hsome
    constructor
    · split
      · rename_i hassert
        exact absurd hassert h
      · rfl
    · split
      · rename_i hassert
        exact absurd hassert h
      · rfl

end

/-- **All rounds**: either the mutations run out, after every one of them was tried, or the last one
that is tried is the first one without an assertion that fails, and the loop returns what it comes
to. -/
theorem mutateFrom_spec {random : Random} (hchoice : ∀ n, 0 < n → random.choice n < n) (s : List Bytes)
    (ms : List Mutation) :
    (mutateFrom gunzip random s ms = .error (.indexError "Cannot choose from an empty sequence") ∧
      (triedFrom gunzip random s ms).Perm ms ∧
      ∀ m ∈ ms, ∃ n, m.apply gunzip (random.draws n m) s = .error .assertionError) ∨
    ∃ failed m n, triedFrom gunzip random s ms = failed ++ [m] ∧
      mutateFrom gunzip random s ms = m.apply gunzip (random.draws n m) s ∧
      m.apply gunzip (random.draws n m) s ≠ .error .assertionError := by
  induction hn : ms.length generalizing ms with
  | zero =>
      rw [List.length_eq_zero_iff.mp hn, mutateFrom, triedFrom]
      exact .inl ⟨rfl, .nil, by simp⟩
  | succ n ih =>
      have hlt : random.choice ms.length < ms.length := hchoice _ (by omega)
      obtain ⟨m, hm⟩ : ∃ m, ms[random.choice ms.length]? = some m := ⟨_, List.getElem?_eq_getElem hlt⟩
      by_cases hassert : m.apply gunzip (random.draws ms.length m) s = .error .assertionError
      · obtain ⟨hrun, htried⟩ := round_of_assertion hm hassert
        rw [hrun, htried]
        rw [List.getElem?_eq_getElem hlt, Option.some.injEq] at hm
        have hperm : (m :: ms.eraseIdx (random.choice ms.length)).Perm ms :=
          hm ▸ List.getElem_cons_eraseIdx_perm hlt
        rcases ih _ (by rw [List.length_eraseIdx_of_lt hlt]; omega) with
          ⟨h, hrest, hall⟩ | ⟨failed, m', n', hrest, h⟩
        · refine .inl ⟨h, (hrest.cons m).trans hperm, fun m' hm' => ?_⟩
          rcases List.mem_cons.mp (hperm.mem_iff.mpr hm') with rfl | hmem
          · exact ⟨_, hassert⟩
          · exact hall m' hmem
        · exact .inr ⟨m :: failed, m', n', by rw [hrest]; rfl, h⟩
      · obtain ⟨hrun, htried⟩ := round_of_settled hm hassert
        exact .inr ⟨[], m, _, htried, hrun, hassert⟩

theorem Mutation.apply_nil (m : Mutation) (draws : Draws) :
    m.apply gunzip draws [] = .error .assertionError := by
  cases m <;> rfl

theorem Mutation.mem_mutations (m : Mutation) : m ∈ mutations := by
  cases m <;> decide

/-- A duplicate can always be made. -/
theorem Mutation.duplicate_ne_assertionError {draws : Draws} (hs : s ≠ [])
    (h : duplicateRandomRequest.CanBeDrawn gunzip draws s) :
    duplicateRandomRequest.apply gunzip draws s ≠ .error .assertionError := by
  obtain ⟨pre, a, post, rfl, hpre⟩ := exists_element hs (h hs)
  rw [apply, ← hpre, duplicateRandomRequest_append]
  intro hne
  cases hne

/-! ### Draws for any stream -/

/-- The first element of the stream, its first request and the first header of that. -/
def firstRequestDraws : HeaderDraws :=
  ⟨0, 0, 0, (bytes "Test", []), fun _ => ⟨[], fun _ => false, false⟩⟩

/-- The first of everything. A cut is behind the first byte if an element is split, and in front of it
if two are joined. -/
def Mutation.firstDraws (m : Mutation) : Draws :=
  ⟨0, 0, bytes "\r\n", if m = splitRandomRequest then 1 else 0, firstRequestDraws, bytes "GET"⟩

/-- The first mutation that is left. -/
def firstRandom : Random := ⟨fun _ => 0, fun _ m => m.firstDraws⟩

theorem canBeDrawn_firstRequestDraws (hs : s ≠ []) {P : HTTPRequest → Prop}
    (h : ∀ request, P request) : firstRequestDraws.CanBeDrawn gunzip s P := by
  refine ⟨List.length_pos_iff.mpr hs, fun substream requests rest _ _ hrequests => ?_⟩
  exact ⟨List.length_pos_iff.mpr hrequests, fun request _ => h request,
    fun _ request _ => ⟨List.Pairwise.nil, by simp [firstRequestDraws]⟩⟩

theorem Mutation.canBeDrawn_firstDraws (m : Mutation) (s : List Bytes) :
    m.CanBeDrawn gunzip m.firstDraws s := by
  intro hs
  cases m with
  | deleteRandomByte | replaceRandomByte | concatRandomRequests | deleteRandomRequest =>
      exact fun _ => Nat.zero_le _
  | insertRandomByte | duplicateRandomRequest => exact Nat.zero_le _
  | insertRandomMeaningfulByte => exact ⟨Nat.zero_le _, by decide⟩
  | shiftRandomRequestBoundaries => exact fun _ => ⟨Nat.zero_le _, fun _ _ _ _ _ => Nat.zero_le _⟩
  | deleteRandomHeader => exact canBeDrawn_firstRequestDraws hs fun _ _ => Nat.zero_le _
  | insertRandomHeader =>
      exact ⟨by decide, canBeDrawn_firstRequestDraws hs fun _ => Nat.zero_le _⟩
  | replaceRandomHeader =>
      exact ⟨by decide, canBeDrawn_firstRequestDraws hs fun _ _ => Nat.zero_le _⟩
  | replaceMethod => exact ⟨by decide, canBeDrawn_firstRequestDraws hs fun _ => trivial⟩
  | splitRandomRequest =>
      refine ⟨Nat.zero_le _, fun a _ ha => ⟨le_rfl, ?_⟩⟩
      show 1 ≤ a.length - 1
      omega

theorem validFor_firstRandom (s : List Bytes) : firstRandom.ValidFor gunzip s :=
  ⟨fun _ hn => hn, fun _ m => m.canBeDrawn_firstDraws s⟩

/-! ### What `mutate` comes to -/

/-- **`mutate`** makes the edit of the mutation that it tries last, or passes on what the parser raises
on an element; the assertions stay inside. For an empty stream, and only there, it tries all mutations
and has nothing left to choose from. -/
theorem mutate_spec {random : Random} (h : random.ValidFor gunzip s) :
    (s = [] →
      mutate gunzip random s = .error (.indexError "Cannot choose from an empty sequence") ∧
        (tried gunzip random s).Perm mutations) ∧
    (s ≠ [] → ∃ failed m, tried gunzip random s = failed ++ [m] ∧
      ((∃ t, mutate gunzip random s = .ok t ∧ m.Edits gunzip s t ∧ (m.Resizes → t ≠ s)) ∨
        ∃ e, mutate gunzip random s = .error e ∧ e ≠ .assertionError ∧
          ∃ substream ∈ s, parseRequestStream gunzip substream = .error e)) := by
  refine ⟨fun hs => ?_, fun hs => ?_⟩
  · rcases mutateFrom_spec h.choice s mutations with ⟨hrun, htried, -⟩ | ⟨_, m, n, -, -, hne⟩
    · exact ⟨hrun, htried⟩
    · rw [hs] at hne
      exact absurd (m.apply_nil _) hne
  · rcases mutateFrom_spec h.choice s mutations with ⟨-, -, hall⟩ | ⟨failed, m, n, htried, hrun, hne⟩
    · obtain ⟨n, hassert⟩ := hall _ (Mutation.mem_mutations .duplicateRandomRequest)
      exact absurd hassert (Mutation.duplicate_ne_assertionError hs (h.draws n _))
    · refine ⟨failed, m, htried, ?_⟩
      rw [mutate, hrun]
      rcases m.apply_settles hs (h.draws n m) with hassert | ⟨t, ht, hedits⟩ | ⟨e, he, hparse⟩
      · exact absurd hassert hne
      · exact .inl ⟨t, ht, hedits, hedits.ne⟩
      · exact .inr ⟨e, he, fun heq => hne (heq ▸ he), hparse⟩

/-- A split is tried first, and then what comes first in the list. -/
def splitRandom : Random := ⟨fun n => if n = 13 then 11 else 0, fun _ m => m.firstDraws⟩

/-- The first element is empty and cannot be split. -/
theorem mutate_spec_get :
    ([[], bytes "GET /"] = [] →
      mutate (fun _ => .error .badGzipFile) splitRandom [[], bytes "GET /"] =
          .error (.indexError "Cannot choose from an empty sequence") ∧
        (tried (fun _ => .error .badGzipFile) splitRandom [[], bytes "GET /"]).Perm mutations) ∧
    ([[], bytes "GET /"] ≠ [] →
      ∃ failed m, tried (fun _ => .error .badGzipFile) splitRandom [[], bytes "GET /"] =
        failed ++ [m] ∧
      ((∃ t, mutate (fun _ => .error .badGzipFile) splitRandom [[], bytes "GET /"] = .ok t ∧
          m.Edits (fun _ => .error .badGzipFile) [[], bytes "GET /"] t ∧
          (m.Resizes → t ≠ [[], bytes "GET /"])) ∨
        ∃ e, mutate (fun _ => .error .badGzipFile) splitRandom [[], bytes "GET /"] = .error e ∧
          e ≠ .assertionError ∧ ∃ substream ∈ [[], bytes "GET /"],
            parseRequestStream (fun _ => .error .badGzipFile) substream = .error e)) := by
  refine mutate_spec ⟨fun n hn => ?_, fun _ m => m.canBeDrawn_firstDraws _⟩
  show (if n = 13 then 11 else 0) < n
  split <;> omega

end HttpGarden
