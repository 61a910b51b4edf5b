import HttpGarden.Echo.Segmentation
import HttpGarden.Http2.TypedLayout
import HttpGarden.Lib.Ledger

/-!
# HttpGarden.Echo.Collected

**What the HTTP/2 handler gives back.** An answer carries the frames that have been collected
on its stream and on stream 0, in the order in which they came.

The frames collected are a ledger, whose clock is `frame_counter`. `respond_echoes` says what is
in it when a stream is answered: of each of the two streams, what came since the stream was last
answered or reset.
-/

namespace HttpGarden.Echo

open Lib Http2 Hpack

/-! ### What is received -/

/-- The pieces consist of complete frames, which are `frames`. -/
def Delivers (pieces : List Bytes) (frames : List H2GenericFrame) : Prop :=
  ∃ parts, List.Forall₂ Layouts parts pieces ∧ frames = parts.flatten

theorem delivers_singleton {b : Bytes} {frames : List H2GenericFrame}
    (h : parseGenericFrames b = .ok frames) : Delivers [b] frames := by
  rcases parseGenericFrames_cases b with ⟨fs, hlayouts⟩ | ⟨⟨msg, hmsg⟩, -⟩
  · rw [parseGenericFrames_of_layouts hlayouts] at h
    cases h
    exact ⟨[frames], .cons hlayouts .nil, (List.flatten_singleton).symm⟩
  · rw [hmsg] at h
    cases h

/-- **Complete frames** are handled one by one. -/
theorem run_handlePiece_of_delivers {pieces : List Bytes} {frames : List H2GenericFrame}
    (h : Delivers pieces frames) (st : H2EchoState) :
    handlePiece.run st pieces = handleFrame.run st frames := by
  obtain ⟨parts, hparts, rfl⟩ := h
  induction hparts generalizing st with
  | nil => rfl
  | cons hpart _ ih =>
      rw [List.flatten_cons, Process.run_append, Process.run_cons, handlePiece_of_layouts hpart]
      congr 1
      funext st
      exact ih st

theorem handleH2Connection_of_delivers {pieces : List Bytes} {frames : List H2GenericFrame}
    (h : Delivers pieces frames) (frameCounter : Nat) :
    (handleH2Connection frameCounter pieces).next =
      (handleFrame.run { frameCounter := frameCounter } frames).next := by
  rw [handleH2Connection, settingsBytes_first, ← run_handlePiece_of_delivers h]
  rfl

theorem typ_range_of_layouts {frames : List H2GenericFrame} {b : Bytes} (h : Layouts frames b) :
    ∀ f ∈ frames, 0 ≤ f.typ ∧ f.typ ≤ 255 := by
  obtain ⟨encs, hencs, -⟩ := h
  induction hencs with
  | nil => exact List.forall_mem_nil _
  | cons henc _ ih =>
      have hbytes := H2GenericFrame.toBytes_of_layout henc
      exact List.forall_mem_cons.mpr ⟨typ_range_of_toBytes hbytes, ih⟩

/-- The type of a frame that is received is a byte. -/
theorem Delivers.typ_range {pieces : List Bytes} {frames : List H2GenericFrame}
    (h : Delivers pieces frames) : ∀ f ∈ frames, 0 ≤ f.typ ∧ f.typ ≤ 255 := by
  obtain ⟨parts, hparts, rfl⟩ := h
  induction hparts with
  | nil => exact List.forall_mem_nil _
  | cons hpart _ ih => exact List.forall_mem_append.mpr ⟨typ_range_of_layouts hpart, ih⟩

/-! ### What is collected -/

/-- The frames that `collect_frame` is called for. -/
def Collects (frame : H2GenericFrame) : Prop :=
  frame.typ ∉ [H2FrameType.PRIORITY, H2FrameType.WINDOW_UPDATE, H2FrameType.RST_STREAM,
    H2FrameType.PING, H2FrameType.GOAWAY]

instance : DecidablePred Collects := fun frame => inferInstanceAs (Decidable (frame.typ ∉ _))

theorem Answered.typ {frame : H2GenericFrame} (h : Answered frame) :
    frame.typ = H2FrameType.DATA ∨ frame.typ = H2FrameType.HEADERS :=
  h.imp And.left And.left

theorem collects_of_typ {frame : H2GenericFrame} {typ : Int} (h : frame.typ = typ)
    (htyp : typ ∉ [H2FrameType.PRIORITY, H2FrameType.WINDOW_UPDATE, H2FrameType.RST_STREAM,
      H2FrameType.PING, H2FrameType.GOAWAY]) : Collects frame := by
  rwa [Collects, h]

/-- A stream is reset. -/
def Resets (frame : H2GenericFrame) : Prop := frame.typ = H2FrameType.RST_STREAM

instance : DecidablePred Resets := fun frame => inferInstanceAs (Decidable (frame.typ = _))

/-- A stream is answered or reset. -/
def Closes (frame : H2GenericFrame) : Prop := Answered frame ∨ Resets frame

instance : DecidablePred Closes := fun frame => inferInstanceAs (Decidable (Answered frame ∨ _))

/-- The frames that are collected, and whose stream has not been answered or reset since. -/
def collected : List H2GenericFrame → List H2GenericFrame :=
  Ledger.remaining (·.streamId) Collects Closes

/-- The frames collected on the stream since it was last answered or reset, and those collected
on stream 0 since it was last reset by a frame that is one of `resets`. -/
def echoed (resets : H2GenericFrame → Prop) [DecidablePred resets] (streamId : Int) :
    List H2GenericFrame → List H2GenericFrame :=
  keep fun frame later => Collects frame ∧
    (frame.streamId = streamId ∧ (∀ f ∈ frame :: later, f.streamId = streamId → ¬ Closes f) ∨
      frame.streamId = 0 ∧ ∀ f ∈ frame :: later, f.streamId = 0 → ¬ resets f)

/-! ### One frame -/

/-- `collected_frames`, and the time. -/
def H2EchoState.ledger (st : H2EchoState) : Ledger Int H2GenericFrame :=
  ⟨st.frameCounter, st.collectedFrames⟩

theorem ledger_collectFrame (st : H2EchoState) (frame : H2GenericFrame) :
    (collectFrame st frame).ledger = st.ledger.add frame.streamId frame := rfl

theorem ledger_closeStream {st st' : H2EchoState} {streamId : Int}
    (h : (closeStream st streamId).next = .again st') : st'.ledger = st.ledger.drop streamId := by
  unfold closeStream at h
  split at h
  · cases h
  · cases h
    rfl

theorem sendAll_again {st st' : H2EchoState} {data : Except PyError Bytes}
    (h : (sendAll st data).next = .again st') : st' = st := by
  cases data with
  | ok sent =>
      cases h
      rfl
  | error e => cases h

/-- What an answer to the frame gives back, once the frame has been collected. -/
def given (st : H2EchoState) (frame : H2GenericFrame) : List H2GenericFrame :=
  ((collectFrame st frame).ledger.merge frame.streamId 0).map (·.2)

theorem given_eq_relevantFrames (st : H2EchoState) (frame : H2GenericFrame) :
    given st frame = (relevantFrames (collectFrame st frame)
      ((st.collectedFrames frame.streamId).getD [] ++ [(st.frameCounter, frame)])).map (·.2) := by
  have hcollected : (collectFrame st frame).collectedFrames frame.streamId = some
      ((st.collectedFrames frame.streamId).getD [] ++ [(st.frameCounter, frame)]) :=
    Function.update_self ..
  rw [given, Ledger.merge, H2EchoState.ledger]
  simp only [hcollected]
  rfl

/-- A frame that is answered is collected, and then its stream is answered. -/
theorem handleFrame_of_answered {st : H2EchoState} {frame : H2GenericFrame} (h : Answered frame) :
    handleFrame st frame = respondAndCloseStream (collectFrame st frame) frame.streamId := by
  unfold handleFrame
  rcases h with ⟨htyp, hstream⟩ | ⟨htyp, hheaders, hstream⟩
  · rw [if_pos htyp, if_pos hstream]
  · have hdata : frame.typ ≠ H2FrameType.DATA := by
      rw [htyp]
      decide
    rw [if_neg hdata, if_pos htyp, hheaders, hstream]
    rfl

/-- **One frame** is added to what has been collected, and may close its stream. -/
theorem ledger_handleFrame {st st' : H2EchoState} {frame : H2GenericFrame}
    (h : (handleFrame st frame).next = .again st') :
    st'.ledger = st.ledger.handle (·.streamId) Collects Closes frame := by
  by_cases hanswered : Answered frame
  · have hcollects : Collects frame := by
      rcases hanswered.typ with hdata | hheaders
      · exact collects_of_typ hdata (by decide)
      · exact collects_of_typ hheaders (by decide)
    rw [handleFrame_of_answered hanswered] at h
    rw [Ledger.handle, if_pos hcollects, if_pos (.inl hanswered)]
    obtain ⟨sent, st₁, -, heq, hclose⟩ | ⟨e, -, heq⟩ :=
      respondAndCloseStream_collectFrame (given_eq_relevantFrames st frame)
    · rw [heq] at h
      cases h
      exact ledger_closeStream (congrArg Emits.next hclose)
    · rw [heq] at h
      cases h
  -- what is collected and not answered stays
  have hadd (hcollects : Collects frame) :
      st.ledger.handle (·.streamId) Collects Closes frame = st.ledger.add frame.streamId frame := by
    have hcloses : ¬ Closes frame := by
      rintro (h | h)
      · exact hanswered h
      · rw [Collects, h] at hcollects
        exact hcollects (by decide)
    rw [Ledger.handle, if_pos hcollects, if_neg hcloses]
  have hpass (hcollects : ¬ Collects frame) (hreset : ¬ Resets frame) :
      st.ledger.handle (·.streamId) Collects Closes frame = st.ledger := by
    rw [Ledger.handle, if_neg hcollects, if_neg fun h => h.elim hanswered hreset]
  unfold handleFrame at h
  split_ifs at h with hdata hend hheaders hboth hend hother hreset hsettings hack hping hack hgoaway
  · exact absurd (.inl ⟨hdata, hend⟩) hanswered
  · cases h
    rw [hadd (collects_of_typ hdata (by decide)), ledger_collectFrame]
  · rw [Bool.and_eq_true] at hboth
    exact absurd (.inr ⟨hheaders, hboth⟩) hanswered
  · cases h
    exact (hadd (collects_of_typ hheaders (by decide))).symm
  · cases h
    exact (hadd (collects_of_typ hheaders (by decide))).symm
  · cases h
    refine (hpass ?_ ?_).symm
    · rcases hother with htyp | htyp <;> rw [Collects, htyp] <;> decide
    · rcases hother with htyp | htyp <;> rw [Resets, htyp] <;> decide
  · have hcollects : ¬ Collects frame := by
      rw [Collects, hreset]
      decide
    rw [Ledger.handle, if_neg hcollects, if_pos (.inr hreset)]
    exact ledger_closeStream h
  · cases h
    exact (hadd (collects_of_typ hsettings (by decide))).symm
  · rw [sendAll_again h]
    exact (hadd (collects_of_typ hsettings (by decide))).symm
  · cases h
    exact (hpass (by rw [Collects, hping]; decide) (by rw [Resets, hping]; decide)).symm
  · rw [sendAll_again h]
    exact (hpass (by rw [Collects, hping]; decide) (by rw [Resets, hping]; decide)).symm
  · cases h
  · cases h
    refine (hadd ?_).symm
    simp only [not_or] at hother
    simp [Collects, hother, hreset, hping, hgoaway]

/-! ### The bytes of an answer -/

/-- The length of the frames, as they were received. -/
def wireLength (frames : List H2GenericFrame) : Nat := (frames.map fun f => 9 + f.payload.length).sum

theorem length_of_layouts {frames : List H2GenericFrame} {b : Bytes} (h : Layouts frames b) :
    b.length = wireLength frames := by
  obtain ⟨encs, hencs, rfl⟩ := h
  induction hencs with
  | nil => rfl
  | cons henc _ ih =>
      obtain ⟨length, typ, flags, id, rfl, hlength, -, -, -, hid, -, -⟩ := henc
      rw [List.flatten_cons, List.length_append, ih, wireLength, wireLength, List.map_cons,
        List.sum_cons]
      simp only [List.length_append, List.length_cons]
      omega

/-- A typed frame whose payload is `payload` is written so that it is read back. -/
theorem exists_layout_of_payload {x : TypedFrame} {payload : Bytes} (hx : x.payload = .ok payload)
    (hlen : payload.length < 2 ^ 24) :
    ∃ (g : H2GenericFrame) (enc : Bytes), x.toBytes = .ok enc ∧ g.Layout enc ∧ g.typ = x.typ ∧
      g.streamId = x.streamId ∧ g.payload = payload := by
  obtain ⟨hpost, hgeneric⟩ := TypedFrame.toGeneric_of_payload hx hlen
  let g : H2GenericFrame := ⟨x.typ, x.flags, false, x.streamId, payload, hpost⟩
  have htyp : 0 ≤ x.typ ∧ x.typ ≤ 255 := by
    cases x <;> exact ⟨by rw [TypedFrame.typ]; decide, by rw [TypedFrame.typ]; decide⟩
  obtain ⟨enc, henc⟩ : ∃ enc, g.Layout enc := H2GenericFrame.layout_of_typ htyp.1 htyp.2
  refine ⟨g, enc, ?_, henc, rfl, rfl, rfl⟩
  rw [TypedFrame.toBytes, hgeneric, ok_bind]
  exact H2GenericFrame.toBytes_of_layout henc

/-- A typed frame that is written has no longer payload. -/
theorem length_lt_of_toBytes {x : TypedFrame} {payload enc : Bytes} (hx : x.payload = .ok payload)
    (h : x.toBytes = .ok enc) : payload.length < 2 ^ 24 := by
  obtain ⟨g, hgeneric, -⟩ := bind_eq_ok.mp h
  rw [TypedFrame.toGeneric_eq, hx, ok_bind] at hgeneric
  obtain ⟨hpost, -⟩ := build_eq_ok.mp hgeneric
  exact (H2GenericFrame.postInit_eq_ok.mp hpost).2.2

theorem joinTypedFrames_eq_ok {xs : List TypedFrame} {b : Bytes} : joinTypedFrames xs = .ok b ↔
    ∃ encs, List.Forall₂ (fun x enc => x.toBytes = .ok enc) xs encs ∧ b = encs.flatten := by
  simp only [joinTypedFrames, bind_eq_ok, mapM_eq_ok, pure_eq_ok, Except.ok.injEq, eq_comm (b := b)]

/-- `:status: 200`, as a literal. -/
def statusField : Bytes := [0, 7, 58, 115, 116, 97, 116, 117, 115, 3, 50, 48, 48]

/-- The answer, if it can be built, is two frames, of which the second carries what is given
back. -/
theorem exists_responseBytes {streamId : Int} {frames : List H2GenericFrame} {data : Bytes}
    (hid : streamId ≠ 0) (hrange : 0 ≤ streamId ∧ streamId < 2 ^ 31)
    (hdata : joinFrames frames = .ok data) (hlen : data.length < 2 ^ 24) :
    ∃ sent headers dataFrame, responseBytes streamId frames = .ok sent ∧
      parseGenericFrames sent = .ok [headers, dataFrame] ∧
      dataFrame.typ = H2FrameType.DATA ∧ dataFrame.streamId = streamId ∧
      dataFrame.payload = data := by
  have hcheck : checkStreamId streamId false = .ok () :=
    checkStreamId_eq_ok.mpr ⟨fun _ => hid, nofun, hrange⟩
  have hheaders : H2HeadersFrame.postInit streamId none none none none = .ok () := by
    rw [H2HeadersFrame.postInit, hcheck]
    rfl
  have hdataFrame : H2DataFrame.postInit streamId none = .ok () := hcheck
  let x : TypedFrame :=
    .headers ⟨true, false, streamId, none, none, none, statusField, none, hheaders⟩
  let y : TypedFrame := .data ⟨true, streamId, data, none, hdataFrame⟩
  have hstatus : x.payload = .ok statusField := rfl
  have hpayload : y.payload = .ok data := rfl
  obtain ⟨g, enc, hx, hg, -⟩ := exists_layout_of_payload hstatus (by decide)
  obtain ⟨g', enc', hy, hg', htyp, hid', hpayload⟩ := exists_layout_of_payload hpayload hlen
  refine ⟨enc ++ enc', g, g', ?_, ?_, htyp, hid', hpayload⟩
  · rw [responseBytes, statusBytes, ok_bind, H2HeadersFrame.new, build_of_ok hheaders, ok_bind,
      hdata, ok_bind, H2DataFrame.new, build_of_ok hdataFrame, ok_bind]
    refine joinTypedFrames_eq_ok.mpr ⟨[enc, enc'], .cons hx (.cons hy .nil), ?_⟩
    rw [List.flatten_cons, List.flatten_singleton]
  · refine parseGenericFrames_of_layouts ⟨[enc, enc'], .cons hg (.cons hg' .nil), ?_⟩
    rw [List.flatten_cons, List.flatten_singleton]

theorem of_responseBytes_eq_ok {streamId : Int} {frames : List H2GenericFrame} {sent : Bytes}
    (h : responseBytes streamId frames = .ok sent) :
    streamId ≠ 0 ∧ ∃ data, joinFrames frames = .ok data ∧ data.length < 2 ^ 24 := by
  rw [responseBytes, statusBytes, ok_bind] at h
  obtain ⟨headersFrame, hheaders, h⟩ := bind_eq_ok.mp h
  obtain ⟨data, hdata, h⟩ := bind_eq_ok.mp h
  obtain ⟨dataFrame, hdataFrame, h⟩ := bind_eq_ok.mp h
  obtain ⟨hpost, rfl⟩ := build_eq_ok.mp hdataFrame
  refine ⟨(checkStreamId_eq_ok.mp hpost).1 rfl, data, hdata, ?_⟩
  obtain ⟨encs, hencs, -⟩ := joinTypedFrames_eq_ok.mp h
  cases hencs with
  | cons _ hencs =>
      cases hencs with
      | cons henc _ => exact length_lt_of_toBytes rfl henc

/-! ### Runs -/

/-- The handler comes to the end of `frames`. -/
abbrev Handles (frameCounter : Nat) (frames : List H2GenericFrame) (st : H2EchoState) : Prop :=
  (handleFrame.run { frameCounter := frameCounter } frames).next = .again st

section

variable {frameCounter : Nat} {frames : List H2GenericFrame} {st : H2EchoState}

/-- **The bookkeeping**: what is collected is what remains of the frames. -/
theorem Handles.records (h : Handles frameCounter frames st) :
    st.ledger.Records (·.streamId) (collected frames) := by
  refine Process.run_invariant (I := fun frames st =>
    st.ledger.Records (·.streamId) (collected frames)) ?_ ?_ h
  · intro before st frame st' hrecords hnext
    rw [ledger_handleFrame hnext]
    exact hrecords.handle frame
  · exact Ledger.records_nil frameCounter

/-- Where the handler goes on, no frame was answered on stream 0. -/
theorem Handles.streamId_ne_zero (h : Handles frameCounter frames st) :
    ∀ f ∈ frames, Answered f → f.streamId ≠ 0 := by
  refine Process.run_invariant (I := fun frames _ => ∀ f ∈ frames, Answered f → f.streamId ≠ 0) ?_
    (List.forall_mem_nil _) h
  intro before st frame st' hbefore hnext
  refine List.forall_mem_append.mpr ⟨hbefore, List.forall_mem_singleton.mpr fun hanswered => ?_⟩
  rw [handleFrame_of_answered hanswered] at hnext
  obtain ⟨sent, st₁, hsent, -, -⟩ | ⟨e, -, heq⟩ :=
    respondAndCloseStream_collectFrame (given_eq_relevantFrames st frame)
  · exact (of_responseBytes_eq_ok hsent).1
  · rw [heq] at hnext
    cases hnext

/-- **What is given back** is what has been collected on the stream and on stream 0. -/
theorem Handles.given_eq (h : Handles frameCounter frames st) {frame : H2GenericFrame}
    (hid : frame.streamId ≠ 0) :
    given st frame = echoed Resets frame.streamId frames ++ [frame] := by
  have hrecords := h.records.add frame
  rw [given, ledger_collectFrame, hrecords.merge hid, List.filter_append, collected, Ledger.remaining,
    filter_keep, List.filter_cons_of_pos (by simp), List.filter_nil]
  congr 1
  refine keep_congr fun before f later hframes => ?_
  -- no frame of stream 0 is answered, so that only a reset closes it
  have hzero : (∀ g ∈ f :: later, g.streamId = 0 → ¬ Closes g) ↔
      ∀ g ∈ f :: later, g.streamId = 0 → ¬ Resets g := by
    refine forall₂_congr fun g hg => forall_congr' fun hgid => not_congr ⟨fun hcloses => ?_, .inr⟩
    have hmem : g ∈ frames := hframes ▸ List.mem_append_right before hg
    exact hcloses.resolve_left fun hanswered => h.streamId_ne_zero g hmem hanswered hgid
  rw [← hzero, and_assoc]
  refine and_congr_right fun _ => ⟨fun hopen => ?_, fun hopen => ?_⟩
  · obtain ⟨hopen, hf | hf⟩ := hopen
    · exact .inl ⟨hf, hf ▸ hopen⟩
    · exact .inr ⟨hf, hf ▸ hopen⟩
  · obtain ⟨hf, hopen⟩ | ⟨hf, hopen⟩ := hopen
    · exact ⟨hf ▸ hopen, .inl hf⟩
    · exact ⟨hf ▸ hopen, .inr hf⟩

end

/-! ### Answers -/

/-- The answer to the frame, whose DATA frame carries `frames` as they were received. -/
def AnswersWith (st : H2EchoState) (frame : H2GenericFrame) (frames : List H2GenericFrame) : Prop :=
  ∃ data sent headers dataFrame, joinFrames frames = .ok data ∧
    (handleFrame st frame).out = [.responds frame.streamId, .sends sent] ∧
    parseGenericFrames sent = .ok [headers, dataFrame] ∧
    dataFrame.typ = H2FrameType.DATA ∧ dataFrame.streamId = frame.streamId ∧
    dataFrame.payload = data

/-- What is given back can be written. -/
theorem exists_layouts_echoed {before : List H2GenericFrame} {frame : H2GenericFrame}
    (h : ∀ f ∈ before ++ [frame], 0 ≤ f.typ ∧ f.typ ≤ 255) :
    ∃ data, Layouts (echoed Resets frame.streamId before ++ [frame]) data := by
  refine exists_layouts fun f hf => h f ?_
  rcases List.mem_append.mp hf with hf | hf
  · exact List.mem_append_left _ (keep_sublist.mem hf)
  · exact List.mem_append_right before hf

/-- **What comes back** in an answer: what was collected on the stream since it was last answered
or reset, and what was collected on stream 0 since it was last reset, in the order in which it
came. -/
theorem respond_echoes {frameCounter : Nat} {pieces : List Bytes} {before after : List H2GenericFrame}
    {frame : H2GenericFrame} {st : H2EchoState} (h : Delivers pieces (before ++ frame :: after))
    (hrun : (handleFrame.run { frameCounter := frameCounter } before).next = .again st)
    (hanswered : Answered frame) (hid : frame.streamId ≠ 0)
    (hlen : wireLength (echoed Resets frame.streamId before ++ [frame]) < 2 ^ 24) :
    AnswersWith st frame (echoed Resets frame.streamId before ++ [frame]) := by
  have hfront : before ++ [frame] <+: before ++ frame :: after :=
    ⟨after, (List.append_cons before frame after).symm⟩
  have htyp := fun f hf => h.typ_range f (hfront.subset hf)
  obtain ⟨data, hlayouts⟩ := exists_layouts_echoed htyp
  have hdata := joinFrames_of_layouts hlayouts
  rw [← length_of_layouts hlayouts] at hlen
  obtain ⟨sent, headers, dataFrame, hsent, hparse, hframe⟩ :=
    exists_responseBytes hid frame.streamId_range hdata hlen
  refine ⟨data, sent, headers, dataFrame, hdata, ?_, hparse, hframe⟩
  rw [handleFrame_of_answered hanswered]
  obtain ⟨sent', st', hsent', heq, -⟩ | ⟨e, herror, -⟩ :=
    respondAndCloseStream_collectFrame (given_eq_relevantFrames st frame)
  · rw [Handles.given_eq hrun hid, hsent] at hsent'
    cases hsent'
    rw [heq]
  · rw [Handles.given_eq hrun hid, hsent] at herror
    cases herror

/-- SETTINGS, a request with a body, and a frame of another stream in between. -/
def interleavedFrames : List H2GenericFrame :=
  [⟨H2FrameType.SETTINGS, { endStreamOrAck := true }, false, 0, [], rfl⟩,
    ⟨H2FrameType.HEADERS, { endHeaders := true }, false, 1, [0x87], rfl⟩,
    ⟨H2FrameType.HEADERS, { endHeaders := true }, false, 3, [0x87], rfl⟩]

/-- The rest of the body. -/
def lastFrame : H2GenericFrame :=
  ⟨H2FrameType.DATA, { endStreamOrAck := true }, false, 1, [0x61], rfl⟩

def interleavedBytes : Bytes :=
  [0, 0, 0, 4, 1, 0, 0, 0, 0] ++ [0, 0, 1, 1, 4, 0, 0, 0, 1, 0x87] ++
    [0, 0, 1, 1, 4, 0, 0, 0, 3, 0x87] ++ [0, 0, 1, 0, 1, 0, 0, 0, 1, 0x61]

theorem respond_echoes_interleaved :
    ∃ st, (handleFrame.run { frameCounter := 0 } interleavedFrames).next = .again st ∧
      AnswersWith st lastFrame (interleavedFrames.filter (·.streamId ≠ 3) ++ [lastFrame]) := by
  have hdelivers : Delivers [interleavedBytes] (interleavedFrames ++ [lastFrame]) :=
    delivers_singleton (by decide +kernel)
  have hechoed : echoed Resets lastFrame.streamId interleavedFrames =
      interleavedFrames.filter (·.streamId ≠ 3) := by decide
  refine ⟨_, rfl, ?_⟩
  rw [← hechoed]
  exact respond_echoes hdelivers rfl (by decide) (by decide) (by decide)

/-- SETTINGS and an RST_STREAM, both on stream 0. -/
def resetFrames : List H2GenericFrame :=
  [⟨H2FrameType.SETTINGS, { endStreamOrAck := true }, false, 0, [], rfl⟩,
    ⟨H2FrameType.RST_STREAM, {}, false, 0, [0, 0, 0, 0], rfl⟩]

def lastBytes : Bytes := [0, 0, 1, 0, 1, 0, 0, 0, 1, 0x61]

def resetBytes : Bytes :=
  [0, 0, 0, 4, 1, 0, 0, 0, 0] ++ [0, 0, 4, 3, 0, 0, 0, 0, 0, 0, 0, 0, 0] ++ lastBytes

/-- The two frames of the answer to `lastFrame` after that. -/
def resetAnswer : List H2GenericFrame :=
  [⟨H2FrameType.HEADERS, { endHeaders := true }, false, 1, statusField, rfl⟩,
    ⟨H2FrameType.DATA, { endStreamOrAck := true }, false, 1, lastBytes, rfl⟩]

def resetAnswerBytes : Bytes :=
  [0, 0, 13, 1, 4, 0, 0, 0, 1] ++ statusField ++ [0, 0, 10, 0, 1, 0, 0, 0, 1] ++ lastBytes

/-- The SETTINGS frame does not come back after the RST_STREAM. -/
theorem not_respond_echoes :
    ¬ ∀ (frameCounter : Nat) (pieces : List Bytes) (before after : List H2GenericFrame)
      (frame : H2GenericFrame) (st : H2EchoState), Delivers pieces (before ++ frame :: after) →
      (handleFrame.run { frameCounter := frameCounter } before).next = .again st →
      Answered frame → frame.streamId ≠ 0 →
      wireLength (echoed (fun _ => False) frame.streamId before ++ [frame]) < 2 ^ 24 →
      AnswersWith st frame (echoed (fun _ => False) frame.streamId before ++ [frame]) := by
  intro h
  have hdelivers : Delivers [resetBytes] (resetFrames ++ [lastFrame]) :=
    delivers_singleton (by decide +kernel)
  obtain ⟨data, sent, headers, dataFrame, hdata, hout, hparse, -, -, hpayload⟩ :=
    h 0 [resetBytes] resetFrames [] lastFrame _ hdelivers rfl (by decide) (by decide)
      (by decide)
  have hsent : [H2Event.responds lastFrame.streamId, .sends sent] =
      [.responds 1, .sends resetAnswerBytes] := hout.symm.trans (by decide +kernel)
  obtain rfl : sent = resetAnswerBytes :=
    H2Event.sends.inj (List.head_eq_of_cons_eq (List.cons.inj hsent).2)
  have hanswer : parseGenericFrames resetAnswerBytes = .ok resetAnswer := by decide +kernel
  rw [hanswer] at hparse
  obtain rfl : data = lastBytes := by
    cases hparse
    exact hpayload.symm
  exact absurd hdata (by decide)

end HttpGarden.Echo
