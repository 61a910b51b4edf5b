import HttpGarden.Lib.Loop
import HttpGarden.Http1.Parse

/-!
# HttpGarden.Targets.Transducer

The loop of `Transducer.unparsed_roundtrip`, which takes the bytes that come back
from a transducer's echo chain apart into the bodies of the echoed responses.

The loop keeps `response` and `new_remaining` across iterations. Its exception
handler leaves the loop only while no response has been parsed; later on, a tail
that `parse_response` rejects falls through to the code after the handler, which
then uses the values of the iteration before. `new_remaining` is by then what
`remaining` was set to, so that iteration changes nothing but `pieces`, and the
next one is the same again.
-/

namespace HttpGarden

open Lib

/-- The variables of the loop. `response` and `new_remaining` are assigned
together, so they are one value; `none` until the first response is parsed. -/
structure CollectState where
  remaining : Bytes
  response : Option (HTTPResponse × Bytes)
  pieces : List Bytes
  deriving Repr, DecidableEq

namespace CollectState

/-- The state before the loop, on the joined pieces of `raw_roundtrip`. -/
def init (raw : Bytes) : CollectState := ⟨raw, none, []⟩

end CollectState

/-- The piece that an iteration appends for `response`. -/
def collectPiece (response : HTTPResponse) (remaining newRemaining : Bytes) : Bytes :=
  if response.code = bytes "200" then response.body
  else remaining.take (remaining.length - newRemaining.length)

/-- The part of the loop body after the exception handler. -/
def CollectState.append (st : CollectState) (response : HTTPResponse) (newRemaining : Bytes) :
    CollectState :=
  { remaining := newRemaining
    response := some (response, newRemaining)
    pieces := st.pieces ++ [collectPiece response st.remaining newRemaining] }

section

variable (gunzip : Bytes → Except GzipError Bytes)

/-- The loop of `Transducer.unparsed_roundtrip`. It is left with the pieces, or by
an exception that is not a `ValueError`. -/
def collectLoop : Loop CollectState (Except PyError (List Bytes)) := fun st =>
  if st.remaining = [] then .leave (.ok st.pieces)
  else
    match parseResponse gunzip st.remaining with
    | .ok (response, newRemaining) => .again (st.append response newRemaining)
    | .error e =>
      if e.isValueError then
        match st.response with
        | none => .leave (.ok (st.pieces ++ [stripHttp09Headers st.remaining]))
        | some (response, newRemaining) => .again (st.append response newRemaining)
      else .leave (.error e)

/-! ### One iteration -/

/-- An iteration that goes on has parsed a response, or reuses an old one because
`parse_response` raised `ValueError`. -/
theorem collectLoop_again {st st' : CollectState} (h : collectLoop gunzip st = .again st') :
    st.remaining ≠ [] ∧
    ((∃ response newRemaining, parseResponse gunzip st.remaining = .ok (response, newRemaining) ∧
        st' = st.append response newRemaining) ∨
      (∃ e response newRemaining, parseResponse gunzip st.remaining = .error e ∧
        e.isValueError = true ∧ st.response = some (response, newRemaining) ∧
        st' = st.append response newRemaining)) := by
  unfold collectLoop at h
  split at h
  · cases h
  · rename_i hne
    refine ⟨hne, ?_⟩
    split at h
    · rename_i response newRemaining hp
      cases h
      exact Or.inl ⟨response, newRemaining, hp, rfl⟩
    · rename_i e hp
      split at h
      · rename_i he
        split at h
        · cases h
        · rename_i response newRemaining hr
          cases h
          exact Or.inr ⟨e, response, newRemaining, hp, he, hr, rfl⟩
      · cases h

theorem collectLoop_of_ok (st : CollectState) {response newRemaining}
    (h : parseResponse gunzip st.remaining = .ok (response, newRemaining)) :
    collectLoop gunzip st = .again (st.append response newRemaining) := by
  have hne : st.remaining ≠ [] := by
    intro hnil
    have := parseResponse_length gunzip h
    simp [hnil] at this
  rw [collectLoop, if_neg hne, h]

/-- A tail that is rejected after a parsed response does not end the loop. -/
theorem collectLoop_of_stale {st : CollectState} {e response newRemaining}
    (hne : st.remaining ≠ []) (h : parseResponse gunzip st.remaining = .error e)
    (he : e.isValueError = true) (hr : st.response = some (response, newRemaining)) :
    collectLoop gunzip st = .again (st.append response newRemaining) := by
  rw [collectLoop, if_neg hne, h]
  simp [he, hr]

theorem collectLoop_of_first (st : CollectState) {e} (hr : st.response = none)
    (h : parseResponse gunzip st.remaining = .error e) (he : e.isValueError = true) :
    ∃ pieces, collectLoop gunzip st = .leave (.ok pieces) := by
  unfold collectLoop
  split
  · exact ⟨_, rfl⟩
  · rw [h]
    simp [he, hr]

/-! ### What the loop should do, and when it does -/

/-- The loop on `raw` works: it ends; every iteration that goes on shortens
`remaining` and appends one piece, taken from a response parsed in that
iteration; and a tail that `parse_response` rejects with `ValueError` ends it. -/
structure CollectsFreshPieces (raw : Bytes) : Prop where
  terminates : (collectLoop gunzip).Terminates (.init raw)
  shrinks : ∀ st st', (collectLoop gunzip).Reaches (.init raw) st →
    collectLoop gunzip st = .again st' → st'.remaining.length < st.remaining.length
  fresh : ∀ st st', (collectLoop gunzip).Reaches (.init raw) st →
    collectLoop gunzip st = .again st' → ∃ response newRemaining,
      parseResponse gunzip st.remaining = .ok (response, newRemaining) ∧
      st'.pieces = st.pieces ++ [collectPiece response st.remaining newRemaining]
  leaves : ∀ st e, (collectLoop gunzip).Reaches (.init raw) st → st.remaining ≠ [] →
    parseResponse gunzip st.remaining = .error e → e.isValueError = true →
    ∃ result, collectLoop gunzip st = .leave result

/-- Taking responses off the front of the bytes uses them up, or runs into an
exception that is not a `ValueError`. -/
inductive UsedUpByResponses : Bytes → Prop
  | nil : UsedUpByResponses []
  | cons {raw response rest} (h : parseResponse gunzip raw = .ok (response, rest))
      (hrest : UsedUpByResponses rest) : UsedUpByResponses raw
  | raises {raw e} (h : parseResponse gunzip raw = .error e) (he : e.isValueError = false) :
      UsedUpByResponses raw

variable {gunzip}

/-- On such bytes `parse_response` raises no `ValueError` before the end. -/
theorem UsedUpByResponses.not_rejected {raw e} (h : UsedUpByResponses gunzip raw)
    (hne : raw ≠ []) (hp : parseResponse gunzip raw = .error e) : e.isValueError = false := by
  cases h with
  | nil => exact absurd rfl hne
  | cons h _ => rw [h] at hp; cases hp
  | raises h he => rw [h] at hp; cases hp; exact he

theorem UsedUpByResponses.rest {raw response rest} (h : UsedUpByResponses gunzip raw)
    (hp : parseResponse gunzip raw = .ok (response, rest)) : UsedUpByResponses gunzip rest := by
  cases h with
  | nil =>
      have := parseResponse_length gunzip hp
      simp at this
  | cons h hrest => rw [h] at hp; cases hp; exact hrest
  | raises h _ => rw [h] at hp; cases hp

/-- From bytes that are used up, every iteration that goes on has just parsed a
response. -/
theorem collectLoop_again_of_usedUp {st st' : CollectState}
    (hu : UsedUpByResponses gunzip st.remaining) (h : collectLoop gunzip st = .again st') :
    ∃ response newRemaining, parseResponse gunzip st.remaining = .ok (response, newRemaining) ∧
      st' = st.append response newRemaining := by
  obtain ⟨hne, hok | ⟨e, _, _, hp, he, -, -⟩⟩ := collectLoop_again gunzip h
  · exact hok
  · rw [hu.not_rejected hne hp] at he
    cases he

theorem collectLoop_usedUp_step {st st' : CollectState}
    (hu : UsedUpByResponses gunzip st.remaining) (h : collectLoop gunzip st = .again st') :
    UsedUpByResponses gunzip st'.remaining ∧ st'.remaining.length < st.remaining.length := by
  obtain ⟨response, newRemaining, hp, rfl⟩ := collectLoop_again_of_usedUp hu h
  exact ⟨hu.rest hp, parseResponse_length gunzip hp⟩

theorem collectsFreshPieces_of_usedUp {raw : Bytes} (hu : UsedUpByResponses gunzip raw) :
    CollectsFreshPieces gunzip raw := by
  have hreach : ∀ st, (collectLoop gunzip).Reaches (.init raw) st →
      UsedUpByResponses gunzip st.remaining := fun st h =>
    h.invariant (I := fun st => UsedUpByResponses gunzip st.remaining)
      (fun _ _ hs hstep => (collectLoop_usedUp_step hs hstep).1) hu
  refine ⟨?_, ?_, ?_, ?_⟩
  · exact Loop.terminates_of_decreasing (I := fun st => UsedUpByResponses gunzip st.remaining)
      (fun st => st.remaining.length)
      (fun _ _ hs hstep => (collectLoop_usedUp_step hs hstep).1)
      (fun _ _ hs hstep => (collectLoop_usedUp_step hs hstep).2) hu
  · intro st st' h hstep
    exact (collectLoop_usedUp_step (hreach st h) hstep).2
  · intro st st' h hstep
    obtain ⟨response, newRemaining, hp, rfl⟩ := collectLoop_again_of_usedUp (hreach st h) hstep
    exact ⟨response, newRemaining, hp, rfl⟩
  · intro st e h hne hp he
    rw [(hreach st h).not_rejected hne hp] at he
    cases he

theorem collectsFreshPieces_of_rejected {raw : Bytes} {e}
    (hp : parseResponse gunzip raw = .error e) (he : e.isValueError = true) :
    CollectsFreshPieces gunzip raw := by
  obtain ⟨pieces, hleave⟩ := collectLoop_of_first gunzip (.init raw) rfl hp he
  have honly : ∀ st, (collectLoop gunzip).Reaches (.init raw) st → st = .init raw := fun st h =>
    h.invariant (I := fun st => st = .init raw)
      (fun s s' hs hstep => by rw [hs, hleave] at hstep; cases hstep) rfl
  refine ⟨⟨_, _, Loop.Reaches.refl _ _, hleave⟩, ?_, ?_, ?_⟩
  · intro st st' h hstep
    rw [honly st h, hleave] at hstep
    cases hstep
  · intro st st' h hstep
    rw [honly st h, hleave] at hstep
    cases hstep
  · intro st e' h _ _ _
    rw [honly st h]
    exact ⟨_, hleave⟩

/-- Once a response is parsed, a loop that works uses up the rest: a rejected
tail would make an iteration go on without leaving. -/
theorem usedUp_of_collectsFreshPieces {raw : Bytes} (hc : CollectsFreshPieces gunzip raw)
    {st : CollectState} (h : (collectLoop gunzip).Reaches (.init raw) st)
    (hr : st.response.isSome) : UsedUpByResponses gunzip st.remaining := by
  induction hn : st.remaining.length using Nat.strong_induction_on generalizing st with
  | _ n ih =>
      by_cases hne : st.remaining = []
      · rw [hne]
        exact .nil
      cases hp : parseResponse gunzip st.remaining with
      | ok m =>
          obtain ⟨response, rest⟩ := m
          have hstep := collectLoop_of_ok gunzip _ hp
          have hlt := hn ▸ hc.shrinks st _ h hstep
          exact .cons hp (ih _ hlt (h.step hstep) rfl rfl)
      | error e =>
          cases he : e.isValueError with
          | false => exact .raises hp he
          | true =>
              obtain ⟨⟨response, rest⟩, hresp⟩ := Option.isSome_iff_exists.mp hr
              obtain ⟨result, hleave⟩ := hc.leaves st e h hne hp he
              rw [collectLoop_of_stale gunzip hne hp he hresp] at hleave
              cases hleave

/-- **When the collector works**: exactly when `parse_response` rejects the bytes
outright, or no tail is left over that it rejects after a parsed response. -/
theorem collectsFreshPieces_iff (raw : Bytes) :
    CollectsFreshPieces gunzip raw ↔
      (∃ e, parseResponse gunzip raw = .error e ∧ e.isValueError = true) ∨
        UsedUpByResponses gunzip raw := by
  constructor
  · intro hc
    cases hp : parseResponse gunzip raw with
    | ok m =>
        obtain ⟨response, rest⟩ := m
        have hstep := collectLoop_of_ok gunzip (.init raw) hp
        have hrest := usedUp_of_collectsFreshPieces hc ((Loop.Reaches.refl _ _).step hstep) rfl
        exact Or.inr (.cons hp hrest)
    | error e =>
        cases he : e.isValueError with
        | true => exact Or.inl ⟨e, rfl, he⟩
        | false => exact Or.inr (.raises hp he)
  · rintro (⟨e, hp, he⟩ | hu)
    · exact collectsFreshPieces_of_rejected hp he
    · exact collectsFreshPieces_of_usedUp hu

end

/-! ### A tail after a complete response -/

/-- An echoed response followed by one stray byte. -/
def strayTail : Bytes := bytes "HTTP/1.1 200 OK\r\nContent-Length: 2\r\n\r\nhiX"

/-- On a stray byte after a complete response the loop goes on without end: the
second iteration leaves `remaining` as it is and appends the first body again. -/
theorem not_collectsFreshPieces_strayTail :
    ¬ CollectsFreshPieces (fun _ => .error .badGzipFile) strayTail := by
  intro hc
  let st : CollectState :=
    ⟨bytes "X", some (⟨bytes "1.1", bytes "200", bytes "OK", [(bytes "Content-Length", bytes "2")],
      bytes "hi"⟩, bytes "X"), [bytes "hi"]⟩
  have h1 : collectLoop (fun _ => .error .badGzipFile) (.init strayTail) = .again st := by
    decide +kernel
  have h2 : collectLoop (fun _ => .error .badGzipFile) st =
      .again { st with pieces := [bytes "hi", bytes "hi"] } := by
    decide
  have := hc.shrinks st _ ((Loop.Reaches.refl _ _).step h1) h2
  exact absurd this (lt_irrefl _)

end HttpGarden
