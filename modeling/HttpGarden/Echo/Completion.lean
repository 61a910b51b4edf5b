import HttpGarden.Echo.H2

/-!
# HttpGarden.Echo.Completion

**When the HTTP/2 handler responds.** A request is complete at the first frame after which
its stream has received END_HEADERS and END_STREAM.

The handler remembers a stream whose HEADERS frame has only END_STREAM in
`streams_ending`, but the branch that CONTINUATION frames fall into does not ask for it.
`respondsOnce_iff` says for which requests there is still exactly one response, in the
right place.
-/

namespace HttpGarden.Echo

open Lib Http2

/-! ### Requests -/

/-- END_HEADERS is a flag of two types of frames. -/
def CarriesEndHeaders (frame : H2GenericFrame) : Prop :=
  (frame.typ = H2FrameType.HEADERS ∨ frame.typ = H2FrameType.CONTINUATION) ∧
    frame.flags.endHeaders = true

/-- END_STREAM is a flag of two types of frames. -/
def CarriesEndStream (frame : H2GenericFrame) : Prop :=
  (frame.typ = H2FrameType.DATA ∨ frame.typ = H2FrameType.HEADERS) ∧
    frame.flags.endStreamOrAck = true

/-- With the frame at `k`, the stream has received a frame that carries a flag. -/
def Received (carries : H2GenericFrame → Prop) (frames : List H2GenericFrame) (streamId : Int)
    (k : Nat) : Prop :=
  ∃ i ≤ k, ∃ frame, frames[i]? = some frame ∧ frame.streamId = streamId ∧ carries frame

/-- The frame at `k` is the first after which the stream has received both flags. -/
def CompletesAt (frames : List H2GenericFrame) (streamId : Int) (k : Nat) : Prop :=
  (Received CarriesEndHeaders frames streamId k ∧ Received CarriesEndStream frames streamId k) ∧
    ∀ j < k, ¬ (Received CarriesEndHeaders frames streamId j ∧
      Received CarriesEndStream frames streamId j)

/-- The frames of the stream are HEADERS, CONTINUATIONs and then DATA. -/
def IsRequest (streamId : Int) (frames : List H2GenericFrame) : Prop :=
  ∃ headers continuations data,
    frames.filter (·.streamId == streamId) = headers :: (continuations ++ data) ∧
    headers.typ = H2FrameType.HEADERS ∧
    (∀ f ∈ continuations, f.typ = H2FrameType.CONTINUATION) ∧
    ∀ f ∈ data, f.typ = H2FrameType.DATA

/-! ### Runs -/

/-- The handler comes to the frame at `k`, on a connection that begins with `frameCounter`. -/
def ComesTo (frameCounter : Nat) (frames : List H2GenericFrame) (k : Nat) (st : H2EchoState) :
    Prop :=
  (handleFrame.run { frameCounter := frameCounter } (frames.take k)).next = .again st

/-- How often `respond_and_close_stream` is called for the stream while the frame at `k` is
handled. -/
def calls (frameCounter : Nat) (frames : List H2GenericFrame) (streamId : Int) (k : Nat) : Nat :=
  match (handleFrame.run { frameCounter := frameCounter } (frames.take k)).next, frames[k]? with
  | .again st, some frame => (handleFrame st frame).out.count (.responds streamId)
  | _, _ => 0

/-- **One response**, to the frame that completes the request. -/
def RespondsOnce (frameCounter : Nat) (frames : List H2GenericFrame) (streamId : Int) : Prop :=
  ∀ k, (CompletesAt frames streamId k → calls frameCounter frames streamId k = 1) ∧
    (¬ CompletesAt frames streamId k → calls frameCounter frames streamId k = 0)

/-! ### One frame -/

theorem count_sendAll (st : H2EchoState) (data : Except PyError Bytes) (streamId : Int) :
    (sendAll st data).out.count (.responds streamId) = 0 := by
  cases data <;> rfl

theorem out_closeStream (st : H2EchoState) (streamId : Int) : (closeStream st streamId).out = [] := by
  unfold closeStream
  split <;> rfl

theorem count_respondAndCloseStream (st : H2EchoState) (id streamId : Int) :
    (respondAndCloseStream st id).out.count (.responds streamId) = if id = streamId then 1 else 0 := by
  -- what follows the call sends and closes, but does not call again
  have hrest : (respondAndCloseStream st id).out.count (.responds streamId) =
      ([.responds id] : List H2Event).count (.responds streamId) := by
    refine Emits.count_andThen fun st => ?_
    cases st.collectedFrames id with
    | none => rfl
    | some frames =>
        refine (Emits.count_andThen fun st => ?_).trans (count_sendAll st _ streamId)
        rw [out_closeStream]
        rfl
  rw [hrest, List.count_singleton]
  by_cases h : id = streamId
  · simp [h]
  · simp [h]

/-- **One frame** is answered at most once. -/
theorem count_handleFrame (st : H2EchoState) (frame : H2GenericFrame) (streamId : Int) :
    (handleFrame st frame).out.count (.responds streamId) =
      if Answered frame ∧ frame.streamId = streamId then 1 else 0 := by
  have hrespond (st : H2EchoState) := count_respondAndCloseStream st frame.streamId streamId
  unfold handleFrame
  by_cases hdata : frame.typ = H2FrameType.DATA
  · have hanswered : Answered frame ↔ frame.flags.endStreamOrAck = true := by
      simp [Answered, hdata, H2FrameType.DATA, H2FrameType.HEADERS]
    rw [if_pos hdata]
    cases hend : frame.flags.endStreamOrAck with
    | true => simp [hanswered, hend, hrespond]
    | false => simp [hanswered, hend, Emits.again]
  rw [if_neg hdata]
  by_cases hheaders : frame.typ = H2FrameType.HEADERS
  · have hanswered : Answered frame ↔
        frame.flags.endHeaders = true ∧ frame.flags.endStreamOrAck = true := by
      simp [Answered, hheaders, H2FrameType.DATA, H2FrameType.HEADERS]
    rw [if_pos hheaders]
    cases hend : frame.flags.endHeaders <;> cases hstream : frame.flags.endStreamOrAck <;>
      simp [hanswered, hend, hstream, hrespond, Emits.again]
  -- no other branch responds
  have hanswered : ¬ (Answered frame ∧ frame.streamId = streamId) := by
    simp [Answered, hdata, hheaders]
  rw [if_neg hheaders, if_neg hanswered]
  split_ifs with hpass hreset hsettings hack hping hack
  · rfl
  · rw [out_closeStream]
    rfl
  · rfl
  · exact count_sendAll _ _ streamId
  · rfl
  · exact count_sendAll _ _ streamId
  · rfl
  · rfl

/-! ### All frames -/

theorem calls_eq_one_iff {frameCounter : Nat} {frames : List H2GenericFrame} {streamId : Int}
    {k : Nat} : calls frameCounter frames streamId k = 1 ↔
      (∃ st, ComesTo frameCounter frames k st) ∧
        ∃ frame, frames[k]? = some frame ∧ frame.streamId = streamId ∧ Answered frame := by
  unfold calls ComesTo
  cases hrun : (handleFrame.run { frameCounter := frameCounter } (frames.take k)).next with
  | leave r =>
      refine ⟨fun h => absurd h Nat.zero_ne_one, ?_⟩
      intro ⟨⟨st, hst⟩, _⟩
      cases hst
  | again st =>
      cases hframe : frames[k]? with
      | none =>
          refine ⟨fun h => absurd h Nat.zero_ne_one, ?_⟩
          intro ⟨_, frame, h, _⟩
          cases h
      | some frame =>
          show (handleFrame st frame).out.count (.responds streamId) = 1 ↔ _
          rw [count_handleFrame]
          constructor
          · intro h
            by_cases hanswered : Answered frame ∧ frame.streamId = streamId
            · exact ⟨⟨st, rfl⟩, frame, rfl, hanswered.2, hanswered.1⟩
            · rw [if_neg hanswered] at h
              exact absurd h Nat.zero_ne_one
          · intro ⟨_, frame', hframe', hid, hanswered⟩
            cases hframe'
            rw [if_pos ⟨hanswered, hid⟩]

theorem calls_le_one (frameCounter : Nat) (frames : List H2GenericFrame) (streamId : Int)
    (k : Nat) : calls frameCounter frames streamId k ≤ 1 := by
  unfold calls
  split
  · rw [count_handleFrame]
    split
    · exact le_rfl
    · exact Nat.zero_le 1
  · exact Nat.zero_le 1

/-- One response means that the frames that are answered are the ones that complete the
request. -/
theorem respondsOnce_iff_forall {frameCounter : Nat} {frames : List H2GenericFrame}
    {streamId : Int} : RespondsOnce frameCounter frames streamId ↔
      ∀ k, CompletesAt frames streamId k ↔ calls frameCounter frames streamId k = 1 := by
  refine forall_congr' fun k => ?_
  have hle := calls_le_one frameCounter frames streamId k
  refine ⟨fun h => ?_, fun h => ?_⟩
  · refine ⟨h.1, fun hcalls => ?_⟩
    by_contra hnot
    rw [h.2 hnot] at hcalls
    exact absurd hcalls Nat.zero_ne_one
  · refine ⟨h.mp, fun hnot => ?_⟩
    have := mt h.mpr hnot
    omega

/-! ### Requests as they arrive -/

/-- The frames of a request are of three types, and HEADERS comes first. -/
theorem IsRequest.typ {streamId : Int} {frames : List H2GenericFrame} (h : IsRequest streamId frames)
    {k : Nat} {frame : H2GenericFrame} (hframe : frames[k]? = some frame)
    (hid : frame.streamId = streamId) :
    (frame.typ = H2FrameType.HEADERS ∧
        ∀ i < k, ∀ f, frames[i]? = some f → f.streamId ≠ streamId) ∨
      frame.typ = H2FrameType.CONTINUATION ∨ frame.typ = H2FrameType.DATA := by
  obtain ⟨headers, continuations, data, hfilter, hheaders, hcontinuations, hdata⟩ := h
  obtain ⟨hk, hget⟩ := List.getElem?_eq_some_iff.mp hframe
  have hsplit : frames = frames.take k ++ frame :: frames.drop (k + 1) := by
    rw [← hget, ← List.drop_eq_getElem_cons hk, List.take_append_drop]
  have hmine : (frame.streamId == streamId) = true := beq_iff_eq.mpr hid
  rw [hsplit, List.filter_append, List.filter_cons, if_pos hmine] at hfilter
  cases hbefore : (frames.take k).filter (·.streamId == streamId) with
  | nil =>
      rw [hbefore] at hfilter
      refine .inl ⟨(List.cons.inj hfilter).1 ▸ hheaders, ?_⟩
      intro i hi f hf hfid
      have hmem : f ∈ (frames.take k).filter (·.streamId == streamId) := by
        refine List.mem_filter.mpr ⟨?_, beq_iff_eq.mpr hfid⟩
        rw [← List.getElem?_take_of_lt hi] at hf
        exact List.mem_of_getElem? hf
      rw [hbefore] at hmem
      cases hmem
  | cons f fs =>
      -- the frame comes after the first frame of the stream
      rw [hbefore] at hfilter
      have hmem : frame ∈ continuations ++ data := by
        rw [← (List.cons.inj hfilter).2]
        exact List.mem_append_right fs List.mem_cons_self
      rcases List.mem_append.mp hmem with hmem | hmem
      · exact .inr (.inl (hcontinuations frame hmem))
      · exact .inr (.inr (hdata frame hmem))

theorem Received.mono {carries : H2GenericFrame → Prop} {frames : List H2GenericFrame}
    {streamId : Int} {j k : Nat} (h : Received carries frames streamId j) (hjk : j ≤ k) :
    Received carries frames streamId k := by
  obtain ⟨i, hi, hrest⟩ := h
  exact ⟨i, hi.trans hjk, hrest⟩

/-- What is received with a frame and not before is carried by that frame. -/
theorem Received.carried {carries : H2GenericFrame → Prop} {frames : List H2GenericFrame}
    {streamId : Int} {k : Nat} (h : Received carries frames streamId k)
    (hbefore : ∀ j < k, ¬ Received carries frames streamId j) :
    ∃ frame, frames[k]? = some frame ∧ frame.streamId = streamId ∧ carries frame := by
  obtain ⟨i, hi, hrest⟩ := h
  rcases Nat.lt_or_eq_of_le hi with hlt | rfl
  · exact absurd ⟨i, le_rfl, hrest⟩ (hbefore i hlt)
  · exact hrest

/-- The frame that completes a request carries one of the flags, and END_STREAM if it is
DATA. -/
theorem CompletesAt.carried {frames : List H2GenericFrame} {streamId : Int} {k : Nat}
    (h : CompletesAt frames streamId k) : ∃ frame, frames[k]? = some frame ∧
      frame.streamId = streamId ∧ (CarriesEndHeaders frame ∨ CarriesEndStream frame) := by
  obtain ⟨⟨hheaders, hstream⟩, hbefore⟩ := h
  -- one of the two flags was there before, or this frame brings END_HEADERS
  by_cases hearlier : ∃ j < k, Received CarriesEndHeaders frames streamId j
  · obtain ⟨j, hj, hheaders⟩ := hearlier
    obtain ⟨frame, hframe, hid, hcarries⟩ := hstream.carried fun i hi hstream =>
      hbefore (max i j) (max_lt hi hj)
        ⟨hheaders.mono (le_max_right i j), hstream.mono (le_max_left i j)⟩
    exact ⟨frame, hframe, hid, .inr hcarries⟩
  · push Not at hearlier
    obtain ⟨frame, hframe, hid, hcarries⟩ := hheaders.carried hearlier
    exact ⟨frame, hframe, hid, .inl hcarries⟩

/-- **When there is one response, in the right place**: if the handler comes to the frame that
completes the request, and that is no CONTINUATION; and if no DATA frame brings END_STREAM
before END_HEADERS, or once more. -/
theorem respondsOnce_iff {frameCounter : Nat} {frames : List H2GenericFrame} {streamId : Int}
    (h : IsRequest streamId frames) :
    RespondsOnce frameCounter frames streamId ↔
      (∀ k frame, CompletesAt frames streamId k → frames[k]? = some frame →
        frame.typ ≠ H2FrameType.CONTINUATION ∧ ∃ st, ComesTo frameCounter frames k st) ∧
      ∀ k frame st, ComesTo frameCounter frames k st → frames[k]? = some frame →
        frame.streamId = streamId → frame.typ = H2FrameType.DATA → CarriesEndStream frame →
        Received CarriesEndHeaders frames streamId k ∧
          ∀ j < k, ¬ Received CarriesEndStream frames streamId j := by
  rw [respondsOnce_iff_forall]
  simp only [calls_eq_one_iff]
  constructor
  · intro hiff
    refine ⟨fun k frame hcompletes hframe => ?_, fun k frame st hrun hframe hid hdata hstream => ?_⟩
    · obtain ⟨hrun, frame', hframe', -, hanswered⟩ := (hiff k).mp hcompletes
      rw [hframe, Option.some.injEq] at hframe'
      refine ⟨?_, hrun⟩
      rw [hframe']
      rcases hanswered with h | h <;> rw [h.1] <;> decide
    · have hcompletes := (hiff k).mpr ⟨⟨st, hrun⟩, frame, hframe, hid, .inl ⟨hdata, hstream.2⟩⟩
      refine ⟨hcompletes.1.1, fun j hj hbefore => ?_⟩
      -- END_HEADERS came before this frame, since DATA does not carry it
      obtain ⟨i, hi, f, hf, hfid, hcarries⟩ := hcompletes.1.1
      have hlt : i < k := by
        refine lt_of_le_of_ne hi fun hik => ?_
        rw [hik, hframe, Option.some.injEq] at hf
        have htyp := hcarries.1
        rw [← hf, hdata] at htyp
        exact absurd htyp (by decide)
      exact hcompletes.2 (max i j) (max_lt hlt hj)
        ⟨⟨i, le_max_left i j, f, hf, hfid, hcarries⟩, hbefore.mono (le_max_right i j)⟩
  · intro ⟨hgood, hdataOnce⟩ k
    constructor
    · intro hcompletes
      obtain ⟨frame, hframe, hid, hcarries⟩ := hcompletes.carried
      obtain ⟨hnot, hrun⟩ := hgood k frame hcompletes hframe
      refine ⟨hrun, frame, hframe, hid, ?_⟩
      -- by the type of the frame that completes the request
      rcases h.typ hframe hid with ⟨hheaders, hfirst⟩ | hcontinuation | hdata
      · -- HEADERS is the first frame, so it carries both flags
        have honly (carries : H2GenericFrame → Prop) (hr : Received carries frames streamId k) :
            carries frame := by
          obtain ⟨f, hf, -, hc⟩ := hr.carried fun j hj hbefore => by
            obtain ⟨i, hi, f, hf, hfid, -⟩ := hbefore
            exact hfirst i (hi.trans_lt hj) f hf hfid
          rw [hframe, Option.some.injEq] at hf
          rwa [hf]
        exact .inr ⟨hheaders, (honly _ hcompletes.1.1).2, (honly _ hcompletes.1.2).2⟩
      · exact absurd hcontinuation hnot
      · refine .inl ⟨hdata, ?_⟩
        rcases hcarries with hcarries | hcarries
        · have htyp := hcarries.1
          rw [hdata] at htyp
          exact absurd htyp (by decide)
        · exact hcarries.2
    · intro ⟨⟨st, hrun⟩, frame, hframe, hid, hanswered⟩
      rcases hanswered with ⟨hdata, hstream⟩ | ⟨hheaders, hend, hstream⟩
      · obtain ⟨hreceived, honce⟩ :=
          hdataOnce k frame st hrun hframe hid hdata ⟨.inl hdata, hstream⟩
        exact ⟨⟨hreceived, k, le_rfl, frame, hframe, hid, .inl hdata, hstream⟩,
          fun j hj hboth => honce j hj hboth.2⟩
      · refine ⟨⟨⟨k, le_rfl, frame, hframe, hid, .inl hheaders, hend⟩,
          ⟨k, le_rfl, frame, hframe, hid, .inr hheaders, hstream⟩⟩, ?_⟩
        intro j hj hboth
        obtain ⟨i, hi, f, hf, hfid, -⟩ := hboth.1
        rcases h.typ hframe hid with ⟨-, hfirst⟩ | htyp | htyp
        · exact hfirst i (hi.trans_lt hj) f hf hfid
        · rw [hheaders] at htyp
          exact absurd htyp (by decide)
        · rw [hheaders] at htyp
          exact absurd htyp (by decide)

/-- A request with a body, in two frames. -/
def postFrames : List H2GenericFrame :=
  [⟨H2FrameType.HEADERS, { endHeaders := true }, false, 1, [0x83], rfl⟩,
    ⟨H2FrameType.DATA, { endStreamOrAck := true }, false, 1, [], rfl⟩]

theorem respondsOnce_iff_post : RespondsOnce 0 postFrames 1 := by
  refine (respondsOnce_iff ⟨_, [], [_], rfl, rfl, by simp, by simp⟩).mpr ⟨?_, ?_⟩
  · intro k frame hcompletes hframe
    match k, hframe with
    | 0, rfl => exact ⟨by decide, _, rfl⟩
    | 1, rfl => exact ⟨by decide, _, rfl⟩
  · intro k frame st _ hframe _ hdata _
    match k, hframe with
    | 0, rfl => exact absurd hdata (by decide)
    | 1, rfl =>
        refine ⟨⟨0, Nat.zero_le 1, _, rfl, rfl, .inl rfl, rfl⟩, fun j hj hbefore => ?_⟩
        obtain ⟨i, hi, f, hf, -, hstream⟩ := hbefore
        obtain rfl : i = 0 := by omega
        cases hf
        exact absurd hstream.2 (by decide)

/-- A request without a body, whose headers take two frames. -/
def splitFrames : List H2GenericFrame :=
  [⟨H2FrameType.HEADERS, { endStreamOrAck := true }, false, 1, [0x82], rfl⟩,
    ⟨H2FrameType.CONTINUATION, { endHeaders := true }, false, 1, [0x84], rfl⟩]

/-- It is complete with the CONTINUATION, and never answered. -/
theorem not_respondsOnce_split :
    ¬ ∀ (frameCounter : Nat) (frames : List H2GenericFrame) (streamId : Int), streamId ≠ 0 →
      IsRequest streamId frames → RespondsOnce frameCounter frames streamId := by
  intro h
  have hrequest : IsRequest 1 splitFrames :=
    ⟨_, [_], [], rfl, rfl, by simp, by simp⟩
  have hcompletes : CompletesAt splitFrames 1 1 := by
    refine ⟨⟨⟨1, le_rfl, _, rfl, rfl, .inr rfl, rfl⟩, ⟨0, Nat.zero_le 1, _, rfl, rfl, .inr rfl, rfl⟩⟩, ?_⟩
    intro j hj hboth
    obtain ⟨i, hi, f, hf, -, hheaders⟩ := hboth.1
    obtain rfl : i = 0 := by omega
    cases hf
    exact absurd hheaders.2 (by decide)
  have hcalls := (h 0 splitFrames 1 (by decide) hrequest 1).1 hcompletes
  exact absurd hcalls (by decide)

end HttpGarden.Echo
