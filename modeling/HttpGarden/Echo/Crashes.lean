import HttpGarden.Echo.Collected

/-!
# HttpGarden.Echo.Crashes

**Frames at which an exception leaves the HTTP/2 handler.** `close_stream` deletes what has been
collected on a stream without asking whether there is anything; and an answer is built from what
came in, whether or not that fits into frames.

`handleH2Connection_raises_iff` names the frames, by what came before them.
-/

namespace HttpGarden.Echo

open Lib Http2 Hpack

/-- The frame, which comes after `before`, is one of:

* an RST_STREAM for a stream on which nothing is collected;
* a PING with less than eight bytes;
* the end of a request on stream 0, or of one that is too long to be given back. -/
def Breaks (before : List H2GenericFrame) (frame : H2GenericFrame) : Prop :=
  (Resets frame ∧ ∀ f ∈ collected before, f.streamId ≠ frame.streamId) ∨
  (frame.typ = H2FrameType.PING ∧ frame.flags.endStreamOrAck = false ∧ frame.payload.length < 8) ∨
  (Answered frame ∧ (frame.streamId = 0 ∨
    2 ^ 24 ≤ wireLength (echoed Resets frame.streamId before ++ [frame])))

instance (before : List H2GenericFrame) (frame : H2GenericFrame) : Decidable (Breaks before frame) :=
  inferInstanceAs (Decidable (_ ∨ _))

/-! ### Replies -/

/-- When an answer can be built. -/
theorem responseBytes_ok_iff {streamId : Int} {frames : List H2GenericFrame} {data : Bytes}
    (hrange : 0 ≤ streamId ∧ streamId < 2 ^ 31) (h : Layouts frames data) :
    (∃ sent, responseBytes streamId frames = .ok sent) ↔
      streamId ≠ 0 ∧ wireLength frames < 2 ^ 24 := by
  have hdata := joinFrames_of_layouts h
  rw [← length_of_layouts h]
  refine ⟨fun hok => ?_, fun hok => ?_⟩
  · obtain ⟨sent, hsent⟩ := hok
    obtain ⟨hid, data', hdata', hlen⟩ := of_responseBytes_eq_ok hsent
    rw [hdata] at hdata'
    cases hdata'
    exact ⟨hid, hlen⟩
  · obtain ⟨sent, -, -, hsent, -⟩ := exists_responseBytes hok.1 hrange hdata hok.2
    exact ⟨sent, hsent⟩

/-- When a PING can be acknowledged. -/
theorem pingBytes_ok_iff {frame : H2GenericFrame} :
    (∃ sent, pingBytes frame = .ok sent) ↔ 8 ≤ frame.payload.length := by
  have hlength : (frame.payload.take 8).length = 8 ↔ 8 ≤ frame.payload.length := by
    rw [List.length_take]
    omega
  rw [← hlength]
  refine ⟨fun hok => ?_, fun hlen => ?_⟩
  · obtain ⟨sent, hsent⟩ := hok
    obtain ⟨ping, hping, -⟩ := bind_eq_ok.mp hsent
    obtain ⟨hpost, -⟩ := build_eq_ok.mp hping
    by_contra hne
    rw [H2PingFrame.postInit, if_pos hne] at hpost
    cases hpost
  · have hpost : H2PingFrame.postInit (frame.payload.take 8) = .ok () := by
      rw [H2PingFrame.postInit, if_neg (not_not.mpr hlen)]
    let x : TypedFrame := .ping ⟨true, frame.payload.take 8, hpost⟩
    have hpayload : x.payload = .ok (frame.payload.take 8) := rfl
    obtain ⟨g, enc, henc, -⟩ := exists_layout_of_payload hpayload (by rw [hlen]; decide)
    refine ⟨enc, ?_⟩
    rw [pingBytes, H2PingFrame.new, build_of_ok hpost]
    exact henc

/-! ### One frame -/

theorem handleFrame_of_resets {st : H2EchoState} {frame : H2GenericFrame} (h : Resets frame) :
    handleFrame st frame = closeStream st frame.streamId := by
  rw [Resets] at h
  simp only [handleFrame, h]
  rfl

theorem handleFrame_of_ping {st : H2EchoState} {frame : H2GenericFrame}
    (h : frame.typ = H2FrameType.PING) :
    handleFrame st frame =
      if frame.flags.endStreamOrAck then .again st else sendAll st (pingBytes frame) := by
  simp only [handleFrame, h]
  rfl

theorem handleFrame_of_goAway {st : H2EchoState} {frame : H2GenericFrame}
    (h : frame.typ = H2FrameType.GOAWAY) : handleFrame st frame = .leave none := by
  simp only [handleFrame, h]
  rfl

/-- The handler returns at a GOAWAY and nowhere else. -/
theorem handleFrame_returns_iff {st : H2EchoState} {frame : H2GenericFrame} :
    (handleFrame st frame).next = .leave none ↔ frame.typ = H2FrameType.GOAWAY := by
  refine ⟨fun h => ?_, fun h => ?_⟩
  · obtain ⟨htyp, -⟩ | ⟨-, -, hr⟩ | ⟨-, e, -, hr⟩ | ⟨-, frames, e, -, hr⟩ := handleFrame_leave h
    · exact htyp
    all_goals cases hr
  · rw [handleFrame_of_goAway h]
    rfl

section

variable {frameCounter : Nat} {before : List H2GenericFrame} {st : H2EchoState}
  {frame : H2GenericFrame}

theorem Handles.answered_raises_iff (h : Handles frameCounter before st)
    (htyp : ∀ f ∈ before ++ [frame], 0 ≤ f.typ ∧ f.typ ≤ 255) (hanswered : Answered frame) :
    (∃ e, (handleFrame st frame).next = .leave (some e)) ↔
      frame.streamId = 0 ∨ 2 ^ 24 ≤ wireLength (echoed Resets frame.streamId before ++ [frame]) := by
  obtain ⟨data, hlayouts⟩ := exists_layouts_echoed htyp
  have hok := responseBytes_ok_iff frame.streamId_range hlayouts
  rw [handleFrame_of_answered hanswered]
  obtain ⟨sent, st', hsent, heq, -⟩ | ⟨e, herror, heq⟩ :=
    respondAndCloseStream_collectFrame (given_eq_relevantFrames st frame)
  · have hid := (of_responseBytes_eq_ok hsent).1
    rw [h.given_eq hid] at hsent
    have hlen := (hok.mp ⟨sent, hsent⟩).2
    rw [heq]
    refine ⟨fun hraises => ?_, fun hbad => ?_⟩
    · obtain ⟨e, he⟩ := hraises
      cases he
    · exact absurd hbad (not_or.mpr ⟨hid, Nat.not_le.mpr hlen⟩)
  · rw [heq]
    refine ⟨fun _ => ?_, fun _ => ⟨_, rfl⟩⟩
    by_contra hbad
    obtain ⟨hid, hlen⟩ := not_or.mp hbad
    obtain ⟨sent, hsent⟩ := hok.mpr ⟨hid, Nat.not_le.mp hlen⟩
    rw [h.given_eq hid, hsent] at herror
    cases herror

theorem Handles.reset_raises_iff (h : Handles frameCounter before st) (hreset : Resets frame) :
    (∃ e, (handleFrame st frame).next = .leave (some e)) ↔
      ∀ f ∈ collected before, f.streamId ≠ frame.streamId := by
  rw [handleFrame_of_resets hreset, ← h.records.entries_eq_none frame.streamId, closeStream]
  cases hcollected : st.collectedFrames frame.streamId with
  | none => exact ⟨fun _ => hcollected, fun _ => ⟨_, rfl⟩⟩
  | some frames =>
      refine ⟨fun hraises => ?_, fun hnone => ?_⟩
      · obtain ⟨e, he⟩ := hraises
        cases he
      · cases hcollected.symm.trans hnone

theorem ping_raises_iff (hping : frame.typ = H2FrameType.PING) :
    (∃ e, (handleFrame st frame).next = .leave (some e)) ↔
      frame.flags.endStreamOrAck = false ∧ frame.payload.length < 8 := by
  have hok : (∃ sent, pingBytes frame = .ok sent) ↔ _ := pingBytes_ok_iff
  rw [handleFrame_of_ping hping, ← Nat.not_le, ← hok]
  cases hack : frame.flags.endStreamOrAck with
  | true =>
      refine ⟨fun hraises => ?_, fun hbad => Bool.noConfusion hbad.1⟩
      obtain ⟨e, he⟩ := hraises
      cases he
  | false =>
      cases hdata : pingBytes frame with
      | ok sent =>
          refine ⟨fun hraises => ?_, fun hbad => absurd ⟨sent, rfl⟩ hbad.2⟩
          obtain ⟨e, he⟩ := hraises
          cases he
      | error e =>
          refine ⟨fun _ => ⟨rfl, fun hsent => ?_⟩, fun _ => ⟨_, rfl⟩⟩
          obtain ⟨sent, hsent⟩ := hsent
          cases hsent

/-- **One frame.** An exception leaves the handler exactly if the frame is one of those. -/
theorem Handles.raises_iff (h : Handles frameCounter before st)
    (htyp : ∀ f ∈ before ++ [frame], 0 ≤ f.typ ∧ f.typ ≤ 255) :
    (∃ e, (handleFrame st frame).next = .leave (some e)) ↔ Breaks before frame := by
  -- a frame is of one type
  have hexclusive {typ typ' : Int} (hne : typ ≠ typ') (h : frame.typ = typ) : frame.typ ≠ typ' :=
    h ▸ hne
  by_cases hreset : Resets frame
  · have hping : frame.typ ≠ H2FrameType.PING := hexclusive (by decide) hreset
    have hanswered : ¬ Answered frame := fun hanswered =>
      hanswered.typ.elim (hexclusive (by decide) hreset) (hexclusive (by decide) hreset)
    rw [h.reset_raises_iff hreset, Breaks]
    simp [hreset, hping, hanswered]
  by_cases hping : frame.typ = H2FrameType.PING
  · have hanswered : ¬ Answered frame := fun hanswered =>
      hanswered.typ.elim (hexclusive (by decide) hping) (hexclusive (by decide) hping)
    rw [ping_raises_iff hping, Breaks]
    simp [hreset, hping, hanswered]
  by_cases hanswered : Answered frame
  · rw [h.answered_raises_iff htyp hanswered, Breaks]
    simp [hreset, hping, hanswered]
  -- no other frame raises an exception
  refine ⟨fun hraises => ?_, fun hbad => ?_⟩
  · obtain ⟨e, he⟩ := hraises
    obtain ⟨-, hr⟩ | ⟨hreset', -⟩ | ⟨hping', -⟩ | ⟨hanswered', -⟩ := handleFrame_leave he
    · cases hr
    · exact absurd hreset' hreset
    · exact absurd hping' hping
    · exact absurd hanswered' hanswered
  · obtain h | h | h := hbad
    · exact absurd h.1 hreset
    · exact absurd h.1 hping
    · exact absurd h.1 hanswered

end

/-! ### Whole connections -/

/-- As long as the handler goes on, there is no GOAWAY. -/
theorem Handles.no_goAway {frameCounter : Nat} {frames : List H2GenericFrame} {st : H2EchoState}
    (h : Handles frameCounter frames st) : ∀ f ∈ frames, f.typ ≠ H2FrameType.GOAWAY := by
  refine Process.run_invariant (I := fun frames _ => ∀ f ∈ frames, f.typ ≠ H2FrameType.GOAWAY) ?_
    (List.forall_mem_nil _) h
  intro before st frame st' hbefore hnext
  refine List.forall_mem_append.mpr ⟨hbefore, List.forall_mem_singleton.mpr fun htyp => ?_⟩
  rw [handleFrame_of_goAway htyp] at hnext
  cases hnext

/-- **A run.** An exception leaves the handler exactly if there is one of those frames before any
GOAWAY. -/
theorem run_raises_iff {frameCounter : Nat} {frames : List H2GenericFrame}
    (htyp : ∀ f ∈ frames, 0 ≤ f.typ ∧ f.typ ≤ 255) :
    (∃ e, (handleFrame.run { frameCounter := frameCounter } frames).next = .leave (some e)) ↔
      ∃ before frame after, frames = before ++ frame :: after ∧
        (∀ f ∈ before, f.typ ≠ H2FrameType.GOAWAY) ∧ Breaks before frame := by
  have hsplit {before after : List H2GenericFrame} {frame : H2GenericFrame}
      (hframes : frames = before ++ frame :: after) :
      ∀ f ∈ before ++ [frame], 0 ≤ f.typ ∧ f.typ ≤ 255 := by
    have hfront : before ++ [frame] <+: frames := ⟨after, hframes ▸ (List.append_cons ..).symm⟩
    exact fun f hf => htyp f (hfront.subset hf)
  refine ⟨fun hraises => ?_, fun hbad => ?_⟩
  · obtain ⟨e, he⟩ := hraises
    obtain ⟨st, frame, ⟨before, after, hframes, hrun⟩, hleave⟩ := Process.run_next_eq_leave.mp he
    exact ⟨before, frame, after, hframes, Handles.no_goAway hrun,
      (Handles.raises_iff hrun (hsplit hframes)).mp ⟨e, hleave⟩⟩
  · obtain ⟨before, frame, after, hframes, hgoAway, hbreaks⟩ := hbad
    -- the handler comes to the frame, or an exception has left it before
    cases hrun : (handleFrame.run { frameCounter := frameCounter } before).next with
    | again st =>
        obtain ⟨e, hleave⟩ := (Handles.raises_iff hrun (hsplit hframes)).mpr hbreaks
        exact ⟨e, Process.run_next_eq_leave.mpr ⟨st, frame, ⟨before, after, hframes, hrun⟩, hleave⟩⟩
    | leave r =>
        cases r with
        | some e =>
            rw [hframes, Process.run_append_of_leave hrun]
            exact ⟨e, hrun⟩
        | none =>
            obtain ⟨st, f, ⟨pre, post, hbefore, -⟩, hleave⟩ := Process.run_next_eq_leave.mp hrun
            have hmem : f ∈ before := hbefore ▸ List.mem_append_right pre List.mem_cons_self
            exact absurd (handleFrame_returns_iff.mp hleave) (hgoAway f hmem)

/-- **When no exception leaves the handler**: exactly if none of the frames before a GOAWAY is one
of those. -/
theorem handleH2Connection_raises_iff {frameCounter : Nat} {pieces : List Bytes}
    {frames : List H2GenericFrame} (h : Delivers pieces frames) :
    (¬ ∃ e, (handleH2Connection frameCounter pieces).next = .leave (some e)) ↔
      ∀ before frame after, frames = before ++ frame :: after →
        (∀ f ∈ before, f.typ ≠ H2FrameType.GOAWAY) → ¬ Breaks before frame := by
  rw [handleH2Connection_of_delivers h, run_raises_iff h.typ_range]
  refine ⟨fun hnone before frame after hframes hgoAway hbreaks => ?_, fun hall hbad => ?_⟩
  · exact hnone ⟨before, frame, after, hframes, hgoAway, hbreaks⟩
  · obtain ⟨before, frame, after, hframes, hgoAway, hbreaks⟩ := hbad
    exact hall before frame after hframes hgoAway hbreaks

theorem handleH2Connection_raises_iff_request :
    ¬ ∃ e, (handleH2Connection 0 [lastBytes]).next = .leave (some e) := by
  have hdelivers : Delivers [lastBytes] [lastFrame] := delivers_singleton (by decide +kernel)
  refine (handleH2Connection_raises_iff hdelivers).mpr fun before frame after hframes _ => ?_
  cases before with
  | nil =>
      cases hframes
      decide
  | cons f before => cases before <;> cases hframes

/-- An RST_STREAM for a stream of which nothing has been received. -/
def strayReset : H2GenericFrame := ⟨H2FrameType.RST_STREAM, {}, false, 1, [0, 0, 0, 0], rfl⟩

def strayResetBytes : Bytes := [0, 0, 4, 3, 0, 0, 0, 0, 1, 0, 0, 0, 0]

/-- It is a `KeyError`. -/
theorem not_handleH2Connection_raises :
    ¬ ∀ (frameCounter : Nat) (pieces : List Bytes) (frames : List H2GenericFrame),
      Delivers pieces frames →
        ¬ ∃ e, (handleH2Connection frameCounter pieces).next = .leave (some e) := by
  intro h
  have hdelivers : Delivers [strayResetBytes] [strayReset] :=
    delivers_singleton (by decide +kernel)
  refine h 0 [strayResetBytes] [strayReset] hdelivers ⟨.keyError, ?_⟩
  rw [handleH2Connection_of_delivers hdelivers]
  rfl

end HttpGarden.Echo
