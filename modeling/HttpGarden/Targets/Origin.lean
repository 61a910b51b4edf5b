import HttpGarden.Lib.Loop
import HttpGarden.Diff.Categorize
import HttpGarden.Http1.ResponseJson
import HttpGarden.Http2.Framing
import HttpGarden.Http2.Layout

/-!
# HttpGarden.Targets.Origin

The loop of `Origin.parsed_roundtrip`, which takes the bytes that come back from an origin server
apart into what the server reports.

An iteration makes up to four attempts on the bytes that remain. `Origin.extract` is what they
come to; all that the loop does with it is to append the message and go on behind it. One attempt
leaves the loop before its message is appended: `Origin.reportsDecoded_iff` says on which bytes
nothing is lost. The attempt before it takes the payloads of HTTP/2 frames as they are, padding
included: `Origin.collectedPayloads_eq_data_iff`.
-/

namespace HttpGarden.Origin

open Lib

/-! ### The attempts -/

/-- The attempts of an iteration, in order. -/
inductive Attempt
  | http1
  | http2
  | http09Json
  | http09Page
  deriving Repr, DecidableEq

/-- `extracted` and `new_remaining` after an attempt that succeeds. No other attempt leaves anything
behind: `new_remaining` is set anew whenever it is used. -/
structure Extracted where
  attempt : Attempt
  message : Parsed
  newRemaining : Bytes
  deriving DecidableEq

/-- `try: …; except …: pass`. -/
def tryExcept {α : Type} (caught : ReplyError → Bool) (x : Except ReplyError α) :
    Except ReplyError (Option α) :=
  match x with
  | .ok a => .ok (some a)
  | .error e => if caught e then .ok none else .error e

/-- `if extracted is None: …`. -/
def ifNone {α : Type} (x y : Except ReplyError (Option α)) : Except ReplyError (Option α) :=
  match x with
  | .ok none => y
  | x => x

/-- `collected_payloads`. -/
def collectedPayloads (remaining : Bytes) : Except PyError Bytes := do
  let frames ← Http2.parseGenericFrames remaining
  return ((frames.filter (·.typ = Http2.H2FrameType.DATA)).map (·.payload)).flatten

section

variable (py : JsonRuntime) (gunzip : Bytes → Except GzipError Bytes)

def http1Attempt (remaining : Bytes) : Except ReplyError Extracted :=
  match parseResponse gunzip remaining with
  | .error e => .error (.raised e)
  | .ok (parsedResponse, newRemaining) =>
    if parsedResponse.code ≠ bytes "200" then
      .ok ⟨.http1, .response parsedResponse, newRemaining⟩
    else do
      let extracted ← parseResponseJson py parsedResponse.body
      return ⟨.http1, .request extracted, newRemaining⟩

def http2Attempt (remaining : Bytes) : Except ReplyError Extracted :=
  match collectedPayloads remaining with
  | .error e => .error (.raised e)
  | .ok payloads => do
    let extracted ← parseResponseJson py payloads
    return ⟨.http2, .request extracted, []⟩

def http09JsonAttempt (remaining : Bytes) : Except ReplyError Extracted := do
  let extracted ← parseResponseJson py (stripHttp09Headers remaining)
  return ⟨.http09Json, .request extracted, []⟩

def http09PageAttempt (remaining : Bytes) : Except ReplyError Extracted := do
  let extracted ← parseHttp09Response (stripHttp09Headers remaining)
  return ⟨.http09Page, .response extracted, []⟩

variable (allowsHttp2 allowsHttp09 : Bool)

/-- What the attempts of an iteration come to. -/
def extract (remaining : Bytes) : Except ReplyError (Option Extracted) :=
  ifNone (tryExcept (·.isValueError) (http1Attempt py gunzip remaining)) <|
  ifNone
    (if allowsHttp2 then
      tryExcept (fun e => e.isH2Error || e.isValueError) (http2Attempt py remaining)
    else .ok none) <|
  if allowsHttp09 then
    ifNone (tryExcept (·.isValueError) (http09JsonAttempt py remaining))
      (tryExcept (·.isValueError) (http09PageAttempt remaining))
  else .ok none

/-! ### The loop -/

/-- The variables of the loop. -/
structure State where
  remaining : Bytes
  result : List Parsed

/-- The state before the loop, on the joined pieces of `unparsed_roundtrip`. -/
def State.init (raw : Bytes) : State := ⟨raw, []⟩

/-- The loop of `Origin.parsed_roundtrip`. It is left with the result, or by an exception that no
attempt catches. -/
def loop : Loop State (Except ReplyError (List Parsed)) := fun st =>
  if st.remaining = [] then .leave (.ok st.result)
  else
    match extract py gunzip allowsHttp2 allowsHttp09 st.remaining with
    | .error e => .leave (.error e)
    | .ok none => .again ⟨[], st.result⟩
    | .ok (some x) =>
      -- this attempt ends in `break`
      if x.attempt = .http09Json then .leave (.ok st.result)
      else .again ⟨x.newRemaining, st.result ++ [x.message]⟩

/-! ### One iteration -/

theorem ifNone_eq_some {α : Type} {x y : Except ReplyError (Option α)} {a : α}
    (h : ifNone x y = .ok (some a)) : x = .ok (some a) ∨ y = .ok (some a) := by
  unfold ifNone at h
  split at h
  · exact .inr h
  · exact .inl h

theorem tryExcept_eq_some {α : Type} {caught : ReplyError → Bool} {x : Except ReplyError α} {a : α}
    (h : tryExcept caught x = .ok (some a)) : x = .ok a := by
  unfold tryExcept at h
  split at h
  · cases h
    rfl
  · split at h <;> cases h

variable {py gunzip allowsHttp2 allowsHttp09}

/-- Every attempt that succeeds leaves less to parse. -/
theorem extract_length {raw : Bytes} {x : Extracted} (hne : raw ≠ [])
    (h : extract py gunzip allowsHttp2 allowsHttp09 raw = .ok (some x)) :
    x.newRemaining.length < raw.length := by
  have hpos : 0 < raw.length := List.length_pos_of_ne_nil hne
  have hnil {x : Extracted} (hx : x.newRemaining = []) : x.newRemaining.length < raw.length := by
    rw [hx]
    exact hpos
  rcases ifNone_eq_some h with h | h
  · have h := tryExcept_eq_some h
    unfold http1Attempt at h
    split at h
    · cases h
    · next hparse =>
        have hlt := parseResponse_length gunzip hparse
        split at h
        · cases h
          exact hlt
        · obtain ⟨extracted, -, h⟩ := bind_eq_ok.mp h
          cases h
          exact hlt
  · rcases ifNone_eq_some h with h | h
    · split at h
      · have h := tryExcept_eq_some h
        unfold http2Attempt at h
        split at h
        · cases h
        · obtain ⟨extracted, -, h⟩ := bind_eq_ok.mp h
          cases h
          exact hpos
      · cases h
    · split at h
      · rcases ifNone_eq_some h with h | h
        · obtain ⟨extracted, -, h⟩ := bind_eq_ok.mp (tryExcept_eq_some h)
          cases h
          exact hpos
        · obtain ⟨extracted, -, h⟩ := bind_eq_ok.mp (tryExcept_eq_some h)
          cases h
          exact hpos
      · cases h

theorem onlyRaises_ifNone {α : Type} {P : ReplyError → Prop} {x y : Except ReplyError (Option α)}
    (hx : OnlyRaises P x) (hy : OnlyRaises P y) : OnlyRaises P (ifNone x y) := by
  unfold ifNone
  split
  · exact hy
  · exact hx

theorem onlyRaises_tryExcept {α : Type} {P : ReplyError → Prop} {caught : ReplyError → Bool}
    {x : Except ReplyError α} (hx : OnlyRaises (fun e => caught e = true ∨ P e) x) :
    OnlyRaises P (tryExcept caught x) := by
  unfold tryExcept
  split
  · exact onlyRaises_ok _
  · split
    · exact onlyRaises_ok _
    · next e hcaught => exact onlyRaises_error.mpr ((hx e rfl).resolve_left hcaught)

/-- What leaves an iteration: an exception of `parse_response` that is not a `ValueError`, or that
JSON is nested too deeply. -/
theorem extract_raises (raw : Bytes) :
    OnlyRaises (fun e => e = .recursionError ∨
      ∃ e', e = .raised e' ∧ parseResponse gunzip raw = .error e' ∧ e'.isValueError = false)
      (extract py gunzip allowsHttp2 allowsHttp09 raw) := by
  have hjson {α : Type} (text : Bytes) (f : HTTPRequest → α) (P : ReplyError → Prop) :
      OnlyRaises (fun e => e.isValueError = true ∨ e = .recursionError ∨ P e)
        (do return f (← parseResponseJson py text)) :=
    ((parseResponseJson_raises py text).mono fun e he => he.imp_right fun h => .inl h.1).bind
      fun request => onlyRaises_ok _
  refine onlyRaises_ifNone (onlyRaises_tryExcept ?_) (onlyRaises_ifNone ?_ ?_)
  · unfold http1Attempt
    split
    · next e hparse =>
        rw [onlyRaises_error]
        cases hvalue : e.isValueError with
        | true => exact .inl hvalue
        | false => exact .inr (.inr ⟨e, rfl, hparse, hvalue⟩)
    · split
      · exact onlyRaises_ok _
      · exact hjson _ _ _
  · split
    · refine onlyRaises_tryExcept ?_
      unfold http2Attempt
      split
      · next e hpayloads =>
          rcases Http2.parseGenericFrames_cases raw with ⟨fs, hfs⟩ | ⟨⟨msg, hmsg⟩, -⟩
          · rw [collectedPayloads, Http2.parseGenericFrames_of_layouts hfs] at hpayloads
            cases hpayloads
          · rw [collectedPayloads, hmsg] at hpayloads
            cases hpayloads
            exact onlyRaises_error.mpr (.inl rfl)
      · exact (hjson _ _ _).mono fun e he => he.imp_left fun h => by rw [h, Bool.or_true]
    · exact onlyRaises_ok _
  · split
    · refine onlyRaises_ifNone (onlyRaises_tryExcept (hjson _ _ _)) (onlyRaises_tryExcept ?_)
      have hpage : OnlyRaises (·.isValueError = true)
          (parseHttp09Response (stripHttp09Headers raw)) := by
        unfold parseHttp09Response
        split
        · exact onlyRaises_error.mpr rfl
        · split
          · exact onlyRaises_error.mpr rfl
          · exact onlyRaises_ok _
      exact (hpage.mono fun e he => .inl he).bind fun response => onlyRaises_ok _
    · exact onlyRaises_ok _

/-- **The loop terminates** on every input. -/
theorem loop_terminates (raw : Bytes) :
    (loop py gunzip allowsHttp2 allowsHttp09).Terminates (.init raw) := by
  refine Loop.terminates_of_decreasing (I := fun _ => True) (fun st => st.remaining.length)
    (fun _ _ _ _ => trivial) (fun st st' _ hstep => ?_) trivial
  unfold loop at hstep
  split at hstep
  · cases hstep
  · next hne =>
      split at hstep
      · cases hstep
      · cases hstep
        exact List.length_pos_of_ne_nil hne
      · next hx =>
          split at hstep
          · cases hstep
          · cases hstep
            exact extract_length hne hx

/-! ### What is reported -/

variable (py gunzip allowsHttp2 allowsHttp09)

/-- Every message that is decoded is appended to the list that is returned, after the messages
decoded before it. -/
structure ReportsDecoded (raw : Bytes) : Prop where
  terminates : (loop py gunzip allowsHttp2 allowsHttp09).Terminates (.init raw)
  reported : ∀ st x, (loop py gunzip allowsHttp2 allowsHttp09).Reaches (.init raw) st →
    st.remaining ≠ [] → extract py gunzip allowsHttp2 allowsHttp09 st.remaining = .ok (some x) →
    ∃ result, (loop py gunzip allowsHttp2 allowsHttp09).Returns (.init raw) (.ok result) ∧
      st.result ++ [x.message] <+: result

/-- Taking messages off the front of the bytes uses them up or ends at bytes that no attempt
decodes, and the JSON of HTTP/0.9 is not needed on the way. -/
inductive UsedUp : Bytes → Prop
  | nil : UsedUp []
  | undecoded {raw} (h : extract py gunzip allowsHttp2 allowsHttp09 raw = .ok none) : UsedUp raw
  | cons {raw x} (h : extract py gunzip allowsHttp2 allowsHttp09 raw = .ok (some x))
      (hx : x.attempt ≠ .http09Json) (hrest : UsedUp x.newRemaining) : UsedUp raw

variable {py gunzip allowsHttp2 allowsHttp09}

theorem loop_of_nil (result : List Parsed) :
    loop py gunzip allowsHttp2 allowsHttp09 ⟨[], result⟩ = .leave (.ok result) := rfl

theorem loop_of_none {raw : Bytes} (hne : raw ≠ [])
    (h : extract py gunzip allowsHttp2 allowsHttp09 raw = .ok none) (result : List Parsed) :
    loop py gunzip allowsHttp2 allowsHttp09 ⟨raw, result⟩ = .again ⟨[], result⟩ := by
  rw [loop, if_neg hne, h]

theorem loop_of_error {raw : Bytes} {e : ReplyError} (hne : raw ≠ [])
    (h : extract py gunzip allowsHttp2 allowsHttp09 raw = .error e) (result : List Parsed) :
    loop py gunzip allowsHttp2 allowsHttp09 ⟨raw, result⟩ = .leave (.error e) := by
  rw [loop, if_neg hne, h]

theorem loop_of_some {raw : Bytes} {x : Extracted} (hne : raw ≠ [])
    (h : extract py gunzip allowsHttp2 allowsHttp09 raw = .ok (some x))
    (hx : x.attempt ≠ .http09Json) (result : List Parsed) :
    loop py gunzip allowsHttp2 allowsHttp09 ⟨raw, result⟩ =
      .again ⟨x.newRemaining, result ++ [x.message]⟩ := by
  rw [loop, if_neg hne, h]
  exact if_neg hx

theorem loop_of_break {raw : Bytes} {x : Extracted} (hne : raw ≠ [])
    (h : extract py gunzip allowsHttp2 allowsHttp09 raw = .ok (some x))
    (hx : x.attempt = .http09Json) (result : List Parsed) :
    loop py gunzip allowsHttp2 allowsHttp09 ⟨raw, result⟩ = .leave (.ok result) := by
  rw [loop, if_neg hne, h]
  exact if_pos hx

variable (py gunzip allowsHttp2 allowsHttp09) in
/-- From `raw` with `acc` reported before, the loop returns a list with all messages. -/
def ReturnsAll (raw : Bytes) (acc : List Parsed) : Prop :=
  ∃ result, (loop py gunzip allowsHttp2 allowsHttp09).Returns ⟨raw, acc⟩ (.ok result) ∧
    acc <+: result ∧
    ∀ st x, (loop py gunzip allowsHttp2 allowsHttp09).Reaches ⟨raw, acc⟩ st →
      st.remaining ≠ [] →
      extract py gunzip allowsHttp2 allowsHttp09 st.remaining = .ok (some x) →
      st.result ++ [x.message] <+: result

theorem returnsAll_nil (acc : List Parsed) :
    ReturnsAll py gunzip allowsHttp2 allowsHttp09 [] acc := by
  refine ⟨acc, ⟨_, Loop.Reaches.refl _ _, loop_of_nil acc⟩, List.prefix_refl acc, ?_⟩
  intro st x hreach hne _
  rw [hreach.eq_of_leave (loop_of_nil acc)] at hne
  exact absurd rfl hne

/-- One iteration more. -/
theorem ReturnsAll.of_again {raw rest : Bytes} {acc new : List Parsed}
    (hstep : loop py gunzip allowsHttp2 allowsHttp09 ⟨raw, acc⟩ = .again ⟨rest, acc ++ new⟩)
    (hnew : ∀ x, extract py gunzip allowsHttp2 allowsHttp09 raw = .ok (some x) → new = [x.message])
    (h : ReturnsAll py gunzip allowsHttp2 allowsHttp09 rest (acc ++ new)) :
    ReturnsAll py gunzip allowsHttp2 allowsHttp09 raw acc := by
  obtain ⟨result, hreturns, hprefix, hall⟩ := h
  refine ⟨result, .of_again hstep hreturns, (List.prefix_append acc new).trans hprefix, ?_⟩
  intro st x hreach hne hx
  rcases hreach.eq_or_again with rfl | ⟨st', hagain, hrest⟩
  · rw [hnew x hx] at hprefix
    exact hprefix
  · rw [hstep] at hagain
    cases hagain
    exact hall st x hrest hne hx

theorem UsedUp.returnsAll {raw : Bytes} (h : UsedUp py gunzip allowsHttp2 allowsHttp09 raw)
    (acc : List Parsed) : ReturnsAll py gunzip allowsHttp2 allowsHttp09 raw acc := by
  induction h generalizing acc with
  | nil => exact returnsAll_nil acc
  | @undecoded raw h =>
      by_cases hne : raw = []
      · rw [hne]
        exact returnsAll_nil acc
      · have hstep : loop py gunzip allowsHttp2 allowsHttp09 ⟨raw, acc⟩ = .again ⟨[], acc ++ []⟩ := by
          rw [loop_of_none hne h, List.append_nil]
        refine .of_again hstep (fun x hx => ?_) (returnsAll_nil _)
        rw [h] at hx
        cases hx
  | @cons raw x h hx _ ih =>
      by_cases hne : raw = []
      · rw [hne]
        exact returnsAll_nil acc
      · refine .of_again (loop_of_some hne h hx acc) (fun x' hx' => ?_) (ih _)
        rw [h] at hx'
        cases hx'
        rfl

/-- If the loop reports what it decodes and returns a list, it uses up what it reaches. -/
theorem usedUp_of_reaches {raw : Bytes}
    (hc : ReportsDecoded py gunzip allowsHttp2 allowsHttp09 raw) {result : List Parsed}
    (hreturns : (loop py gunzip allowsHttp2 allowsHttp09).Returns (.init raw) (.ok result))
    {st : State} (hreach : (loop py gunzip allowsHttp2 allowsHttp09).Reaches (.init raw) st) :
    UsedUp py gunzip allowsHttp2 allowsHttp09 st.remaining := by
  induction hn : st.remaining.length using Nat.strong_induction_on generalizing st with
  | _ n ih =>
      obtain ⟨remaining, acc⟩ := st
      by_cases hne : remaining = []
      · rw [hne]
        exact .nil
      cases h : extract py gunzip allowsHttp2 allowsHttp09 remaining with
      | error e =>
          have hraises := Loop.Returns.of_reaches hreach ⟨_, .refl _ _, loop_of_error hne h acc⟩
          cases hreturns.unique hraises
      | ok extracted =>
          cases extracted with
          | none => exact .undecoded h
          | some x =>
              by_cases hx : x.attempt = .http09Json
              · -- the loop is left with a list that lacks the message
                have hbreak := Loop.Returns.of_reaches hreach
                  ⟨_, .refl _ _, loop_of_break hne h hx acc⟩
                obtain ⟨result', hreturns', hprefix⟩ := hc.reported _ x hreach hne h
                cases hreturns'.unique hbreak
                have hlength := hprefix.length_le
                rw [List.length_append, List.length_singleton] at hlength
                exact absurd hlength (Nat.not_succ_le_self _)
              · have hstep := hreach.step (loop_of_some hne h hx acc)
                exact .cons h hx (ih _ (hn ▸ extract_length hne h) hstep rfl)

/-- **When nothing is lost**: exactly when the bytes are used up without the JSON of HTTP/0.9, or
an exception leaves the loop before anything is decoded. -/
theorem reportsDecoded_iff (raw : Bytes) :
    ReportsDecoded py gunzip allowsHttp2 allowsHttp09 raw ↔
      UsedUp py gunzip allowsHttp2 allowsHttp09 raw ∨
        ∃ e, extract py gunzip allowsHttp2 allowsHttp09 raw = .error e := by
  refine ⟨fun hc => ?_, fun h => ?_⟩
  · by_cases hne : raw = []
    · rw [hne]
      exact .inl .nil
    cases h : extract py gunzip allowsHttp2 allowsHttp09 raw with
    | error e => exact .inr ⟨e, rfl⟩
    | ok extracted =>
        left
        cases extracted with
        | none => exact .undecoded h
        | some x =>
            obtain ⟨result, hreturns, -⟩ := hc.reported _ x (.refl _ _) hne h
            exact usedUp_of_reaches hc hreturns (.refl _ _)
  · refine ⟨loop_terminates raw, ?_⟩
    rcases h with h | ⟨e, h⟩
    · obtain ⟨result, hreturns, -, hall⟩ := h.returnsAll []
      exact fun st x hreach hne hx => ⟨result, hreturns, hall st x hreach hne hx⟩
    · intro st x hreach hne hx
      -- the first iteration is the only one
      by_cases hraw : raw = []
      · subst hraw
        rw [hreach.eq_of_leave (loop_of_nil [])] at hne
        exact absurd rfl hne
      · rw [hreach.eq_of_leave (loop_of_error hraw h []), State.init, h] at hx
        cases hx

end

/-- What a server reports about an HTTP/0.9 request: JSON, without a status line before it. -/
def bareReply : Bytes :=
  bytes ("\x7b\"headers\": [], \"uri\": \"Lw==\", \"body\": \"\", \"method\": \"R0VU\", " ++
    "\"version\": \"MC45\"\x7d")

/-- An object without members. -/
def dataText : Bytes := bytes "\x7b\x7d"

/-- The readers of text, as they read that reply and the empty object. -/
def bareReplyRuntime : JsonRuntime where
  loads text :=
    if text = bareReply then
      .ok (.dict [("headers", .list []), ("uri", .str "Lw=="), ("body", .str ""),
        ("method", .str "R0VU"), ("version", .str "MC45")])
    else if text = dataText then .ok (.dict [])
    else .error .jsonDecodeError
  b64decode s :=
    if s = "Lw==" then .ok (bytes "/")
    else if s = "" then .ok []
    else if s = "R0VU" then .ok (bytes "GET")
    else if s = "MC45" then .ok (bytes "0.9")
    else .error .binasciiError

/-- The reply is decoded, and the loop is left without it. -/
theorem not_reportsDecoded_bareReply :
    ¬ ∀ py gunzip allowsHttp2 allowsHttp09 raw,
      ReportsDecoded py gunzip allowsHttp2 allowsHttp09 raw := by
  intro hall
  have hc := hall bareReplyRuntime (fun _ => .error .badGzipFile) false true bareReply
  have hne : bareReply ≠ [] := by decide
  have hx : extract bareReplyRuntime (fun _ => .error .badGzipFile) false true bareReply =
      .ok (some ⟨.http09Json, .request ⟨bytes "GET", bytes "/", [], [], bytes "0.9"⟩, []⟩) := by
    decide
  obtain ⟨result, hreturns, hprefix⟩ := hc.reported _ _ (.refl _ _) hne hx
  have hbreak : (loop bareReplyRuntime (fun _ => .error .badGzipFile) false true).Returns
      (.init bareReply) (.ok []) := ⟨_, .refl _ _, loop_of_break hne hx rfl []⟩
  cases hreturns.unique hbreak
  exact absurd hprefix.length_le (by simp)

/-! ### Padding -/

open Http2

/-- The payload of a DATA frame is its data, or is longer. -/
theorem payload_of_fromH2Frame {f : H2GenericFrame} {d : H2DataFrame}
    (h : H2DataFrame.fromH2Frame f = .ok d) :
    (f.flags.padded = false ∧ f.payload = d.data) ∨
      (f.flags.padded = true ∧ d.data.length < f.payload.length) := by
  obtain ⟨-, -, -, hpadded, hpayload⟩ := H2DataFrame.fromH2Frame_eq_ok.mp h
  cases hpad : d.padLength with
  | none =>
      rw [hpad] at hpadded hpayload
      exact .inl ⟨hpadded, hpayload⟩
  | some n =>
      rw [hpad] at hpadded hpayload
      obtain ⟨b, padding, hpayload, -, -⟩ := hpayload
      refine .inr ⟨hpadded, ?_⟩
      rw [hpayload, List.length_cons, List.length_append]
      omega

/-- The payloads together are the data together if no frame is padded, and longer otherwise. -/
theorem flatten_payload {frames : List H2GenericFrame} {datas : List H2DataFrame}
    (h : List.Forall₂ (fun f d => H2DataFrame.fromH2Frame f = .ok d) frames datas) :
    ((∀ f ∈ frames, f.flags.padded = false) ∧
        (frames.map (·.payload)).flatten = (datas.map (·.data)).flatten) ∨
      ((¬ ∀ f ∈ frames, f.flags.padded = false) ∧
        (datas.map (·.data)).flatten.length < (frames.map (·.payload)).flatten.length) := by
  induction h with
  | nil => exact .inl ⟨List.forall_mem_nil _, rfl⟩
  | @cons f d frames datas hd _ ih =>
      simp only [List.map_cons, List.flatten_cons, List.length_append, List.forall_mem_cons]
      rcases payload_of_fromH2Frame hd with ⟨hpad, hdata⟩ | ⟨hpad, hlt⟩
      · rcases ih with ⟨hall, heq⟩ | ⟨hnot, hlt⟩
        · exact .inl ⟨⟨hpad, hall⟩, by rw [hdata, heq]⟩
        · exact .inr ⟨fun h => hnot h.2, by rw [hdata]; omega⟩
      · refine .inr ⟨fun h => by rw [hpad] at h; exact absurd h.1 (by decide), ?_⟩
        rcases ih with ⟨-, heq⟩ | ⟨-, hlt'⟩
        · rw [heq]
          omega
        · omega

variable {py : JsonRuntime} {gunzip : Bytes → Except GzipError Bytes} {allowsHttp09 : Bool}

/-- **The text of an HTTP/2 reply** that `parse_response` rejects. The message is what
`parse_response_json` makes of the payloads of the DATA frames, and these are the data exactly if
no DATA frame is padded. -/
theorem collectedPayloads_eq_data_iff {frames : List H2GenericFrame} {raw : Bytes}
    {datas : List H2DataFrame} {e : PyError} (hraw : joinFrames frames = .ok raw)
    (hdata : List.Forall₂ (fun f d => H2DataFrame.fromH2Frame f = .ok d)
      (frames.filter (·.typ = H2FrameType.DATA)) datas)
    (hreject : parseResponse gunzip raw = .error e) (he : e.isValueError = true) :
    ∃ text, collectedPayloads raw = .ok text ∧
      (∀ request, parseResponseJson py text = .ok request →
        extract py gunzip true allowsHttp09 raw = .ok (some ⟨.http2, .request request, []⟩)) ∧
      (text = (datas.map (·.data)).flatten ↔
        ∀ f ∈ frames, f.typ = H2FrameType.DATA → f.flags.padded = false) := by
  have htext : collectedPayloads raw =
      .ok ((frames.filter (·.typ = H2FrameType.DATA)).map (·.payload)).flatten := by
    rw [collectedPayloads, parseGenericFrames_of_joinFrames hraw]
    rfl
  refine ⟨_, htext, fun request hrequest => ?_, ?_⟩
  · rw [extract, http1Attempt, hreject, tryExcept]
    simp only [ReplyError.isValueError, he, if_true, ifNone]
    rw [http2Attempt, htext]
    simp only [hrequest]
    rfl
  · have hpadded : (∀ f ∈ frames.filter (·.typ = H2FrameType.DATA), f.flags.padded = false) ↔
        ∀ f ∈ frames, f.typ = H2FrameType.DATA → f.flags.padded = false := by
      simp only [List.mem_filter, decide_eq_true_eq, and_imp]
    rw [← hpadded]
    rcases flatten_payload hdata with ⟨hall, heq⟩ | ⟨hnot, hlt⟩
    · exact iff_of_true heq hall
    · refine iff_of_false (fun heq => ?_) hnot
      rw [heq] at hlt
      exact lt_irrefl _ hlt

/-- The empty object in a DATA frame, with or without a byte of padding. -/
def dataFrame (padded : Bool) : H2GenericFrame where
  typ := H2FrameType.DATA
  flags := { padded := padded }
  streamId := 1
  payload := if padded then 1 :: (dataText ++ [0]) else dataText
  post_init := by cases padded <;> decide

/-- A SETTINGS frame without settings. -/
def settingsFrame : H2GenericFrame where
  typ := H2FrameType.SETTINGS
  post_init := by decide

/-- A reply: a SETTINGS frame, and then the text. -/
def http2Reply (padded : Bool) : Bytes :=
  [0, 0, 0, 4, 0, 0, 0, 0, 0] ++
    (if padded then [0, 0, 4, 0, 8, 0, 0, 0, 1, 1, 123, 125, 0]
    else [0, 0, 2, 0, 0, 0, 0, 0, 1, 123, 125])

/-- The frame read as a DATA frame. -/
def decodedData (padded : Bool) : H2DataFrame where
  endStream := false
  streamId := 1
  data := dataText
  padLength := if padded then some 1 else none
  post_init := by cases padded <;> decide

theorem joinFrames_http2Reply (padded : Bool) :
    joinFrames [settingsFrame, dataFrame padded] = .ok (http2Reply padded) := by
  cases padded <;> decide

theorem fromH2Frame_dataFrame (padded : Bool) :
    H2DataFrame.fromH2Frame (dataFrame padded) = .ok (decodedData padded) := by
  cases padded <;> decide

theorem dataFrames_http2Reply (padded : Bool) :
    List.Forall₂ (fun f d => H2DataFrame.fromH2Frame f = .ok d)
      ([settingsFrame, dataFrame padded].filter (·.typ = H2FrameType.DATA))
      [decodedData padded] :=
  .cons (fromH2Frame_dataFrame padded) .nil

theorem parseResponse_http2Reply (padded : Bool) :
    parseResponse (fun _ => .error .badGzipFile) (http2Reply padded) =
      .error (.valueError "Invalid HTTP response line.") := by
  cases padded <;> decide

/-- The reply without padding. -/
theorem collectedPayloads_eq_data_iff_http2Reply :
    ∃ text, collectedPayloads (http2Reply false) = .ok text ∧
      (∀ request, parseResponseJson bareReplyRuntime text = .ok request →
        extract bareReplyRuntime (fun _ => .error .badGzipFile) true false (http2Reply false) =
          .ok (some ⟨.http2, .request request, []⟩)) ∧
      (text = ([decodedData false].map (·.data)).flatten ↔
        ∀ f ∈ [settingsFrame, dataFrame false], f.typ = H2FrameType.DATA →
          f.flags.padded = false) :=
  collectedPayloads_eq_data_iff (joinFrames_http2Reply false) (dataFrames_http2Reply false)
    (parseResponse_http2Reply false) rfl

/-- The reply with a byte of padding: the pad length and the padding are part of the text. -/
theorem not_collectedPayloads_eq_data :
    ¬ ∀ gunzip frames raw datas e, joinFrames frames = .ok raw →
      List.Forall₂ (fun f d => H2DataFrame.fromH2Frame f = .ok d)
        (frames.filter (·.typ = H2FrameType.DATA)) datas →
      parseResponse gunzip raw = .error e → e.isValueError = true →
      collectedPayloads raw = .ok (datas.map (·.data)).flatten := by
  intro h
  have htext := h _ _ _ _ _ (joinFrames_http2Reply true) (dataFrames_http2Reply true)
    (parseResponse_http2Reply true) rfl
  revert htext
  decide +kernel

end HttpGarden.Origin
