import HttpGarden.Echo.H1
import HttpGarden.Hpack.Field
import HttpGarden.Http2.Framing
import HttpGarden.Http2.Types
import HttpGarden.Lib.Process
import Mathlib.Logic.Function.Basic

/-!
# HttpGarden.Echo.H2

`echo_server.py`: **`handle_h2_connection`**, as a process that takes the frames of a
connection one at a time, and on top of it one that takes what successive calls of
`recvall` return.

`frame_counter` is a variable of the module; what it is when the connection begins is a
parameter. The socket takes everything it is sent.
-/

namespace HttpGarden.Echo

open Lib Http2 Hpack

/-! ### State -/

/-- The exceptions that leave the handler. -/
inductive HandlerError
  | keyError
  | raised (e : PyError)
  deriving DecidableEq

/-- The variables of the handler. `collected_frames` is a dictionary. -/
structure H2EchoState where
  frameCounter : Nat
  collectedFrames : Int → Option (List (Nat × H2GenericFrame)) := fun _ => none
  streamsEnding : List Int := []

/-- What the handler does: it calls `respond_and_close_stream`, or gives bytes to `sendall`. -/
inductive H2Event
  | responds (streamId : Int)
  | sends (data : Bytes)
  deriving DecidableEq

/-- The events, and then the next state, or how the handler ends: it returns, or an
exception leaves it. -/
abbrev H2Emits := Emits H2Event H2EchoState (Option HandlerError)

abbrev H2Process (α : Type) := Process H2EchoState α H2Event (Option HandlerError)

/-- `collect_frame` -/
def collectFrame (st : H2EchoState) (frame : H2GenericFrame) : H2EchoState :=
  let collected := (st.collectedFrames frame.streamId).getD []
  { st with
    collectedFrames := Function.update st.collectedFrames frame.streamId
      (some (collected ++ [(st.frameCounter, frame)]))
    frameCounter := st.frameCounter + 1 }

/-- `close_stream` -/
def closeStream (st : H2EchoState) (streamId : Int) : H2Emits :=
  match st.collectedFrames streamId with
  | none => .leave (some .keyError)
  | some _ =>
    .again { st with
      collectedFrames := Function.update st.collectedFrames streamId none
      streamsEnding := st.streamsEnding.filter (· != streamId) }

/-! ### Responses -/

/-- `sendall`, of bytes that may not be possible to build. -/
def sendAll (st : H2EchoState) (data : Except PyError Bytes) : H2Emits :=
  match data with
  | .ok data => ⟨[.sends data], .again st⟩
  | .error e => .leave (some (.raised e))

/-- The frames of the stream and those of stream 0, in the order in which they came. -/
def relevantFrames (st : H2EchoState) (frames : List (Nat × H2GenericFrame)) :
    List (Nat × H2GenericFrame) :=
  (frames ++ (st.collectedFrames 0).getD []).mergeSort fun a b => a.1 ≤ b.1

/-- The two frames of a response, joined. -/
def responseBytes (streamId : Int) (frames : List H2GenericFrame) : Except PyError Bytes := do
  let status ← (HPACKField.literal ⟨bytes ":status", false, none, none⟩
    ⟨bytes "200", false, none, none⟩).toBytes
  let headersFrame ← H2HeadersFrame.new true false streamId none none none status none
  let dataFrame ← H2DataFrame.new true streamId (← joinFrames frames) none
  joinTypedFrames [.headers headersFrame, .data dataFrame]

/-- `respond_and_close_stream` -/
def respondAndCloseStream (st : H2EchoState) (streamId : Int) : H2Emits :=
  Emits.andThen ⟨[.responds streamId], .again st⟩ fun st =>
    match st.collectedFrames streamId with
    | none => .leave (some (.raised .assertionError))
    | some frames =>
      let frames := (relevantFrames st frames).map (·.2)
      (sendAll st (responseBytes streamId frames)).andThen fun st => closeStream st streamId

/-- `H2SettingsFrame(ack=ack).to_bytes()` -/
def settingsBytes (ack : Bool) : Except PyError Bytes := do
  (TypedFrame.settings (← H2SettingsFrame.new ack [])).toBytes

/-- `H2PingFrame(ack=True, opaque_data=frame.payload[:8]).to_bytes()` -/
def pingBytes (frame : H2GenericFrame) : Except PyError Bytes := do
  (TypedFrame.ping (← H2PingFrame.new true (frame.payload.take 8))).toBytes

/-! ### The handler -/

/-- The `match` statement of `handle_h2_connection`. -/
def handleFrame : H2Process H2GenericFrame := fun st frame =>
  let streamId := frame.streamId
  if frame.typ = H2FrameType.DATA then
    let st := collectFrame st frame
    if frame.flags.endStreamOrAck then respondAndCloseStream st streamId
    else .again st
  else if frame.typ = H2FrameType.HEADERS then
    let st := collectFrame st frame
    if frame.flags.endHeaders && frame.flags.endStreamOrAck then respondAndCloseStream st streamId
    else if frame.flags.endStreamOrAck then
      .again { st with streamsEnding := st.streamsEnding.insert streamId }
    else .again st
  else if frame.typ = H2FrameType.PRIORITY ∨ frame.typ = H2FrameType.WINDOW_UPDATE then .again st
  else if frame.typ = H2FrameType.RST_STREAM then closeStream st streamId
  else if frame.typ = H2FrameType.SETTINGS then
    let st := collectFrame st frame
    if frame.flags.endStreamOrAck then .again st
    else sendAll st (settingsBytes true)
  else if frame.typ = H2FrameType.PING then
    if frame.flags.endStreamOrAck then .again st
    else sendAll st (pingBytes frame)
  else if frame.typ = H2FrameType.GOAWAY then .leave none
  -- CONTINUATION, PUSH_PROMISE or an unrecognized type
  else .again (collectFrame st frame)

/-- One iteration of the loop of `handle_h2_connection`, on what was received. -/
def handlePiece : H2Process Bytes := fun st bytesRecved =>
  match parseGenericFrames bytesRecved with
  | .error e => .leave (some (.raised e))
  | .ok frames => handleFrame.run st frames

/-- `handle_h2_connection`: `pieces` are the argument and what `recvall` returns. -/
def handleH2Connection (frameCounter : Nat) (pieces : List Bytes) : H2Emits :=
  (sendAll { frameCounter := frameCounter } (settingsBytes false)).andThen fun st =>
    handlePiece.run st pieces

def H2_PREFACE : Bytes := bytes "PRI * HTTP/2.0\r\n\r\nSM\r\n\r\n"

/-- `handle_connection`: `preamble` and `pieces` are what `recvall` returns. -/
def handleConnection (frameCounter : Nat) (preamble : Bytes) (pieces : List Bytes) :
    H2Emits ⊕ List Bytes :=
  if H2_PREFACE <+: preamble then
    .inl (handleH2Connection frameCounter (preamble.drop H2_PREFACE.length :: pieces))
  else .inr (handleH1Connection preamble (pieces.map .recvs))

/-! ### Where the handler stops -/

/-- The frames to which the handler responds, whatever the state. -/
def Answered (frame : H2GenericFrame) : Prop :=
  frame.typ = H2FrameType.DATA ∧ frame.flags.endStreamOrAck = true ∨
    frame.typ = H2FrameType.HEADERS ∧ frame.flags.endHeaders = true ∧
      frame.flags.endStreamOrAck = true

instance (frame : H2GenericFrame) : Decidable (Answered frame) := inferInstanceAs (Decidable (_ ∨ _))

theorem settingsBytes_ack : settingsBytes true = .ok [0, 0, 0, 4, 1, 0, 0, 0, 0] := by
  decide

theorem sendAll_leave {st : H2EchoState} {data : Except PyError Bytes} {r : Option HandlerError}
    (h : (sendAll st data).next = .leave r) : ∃ e, data = .error e ∧ r = some (.raised e) := by
  cases data with
  | ok data => cases h
  | error e =>
      cases h
      exact ⟨e, rfl, rfl⟩

theorem closeStream_leave {st : H2EchoState} {streamId : Int} {r : Option HandlerError}
    (h : (closeStream st streamId).next = .leave r) :
    st.collectedFrames streamId = none ∧ r = some .keyError := by
  unfold closeStream at h
  split at h
  · rename_i hnone
    cases h
    exact ⟨hnone, rfl⟩
  · cases h

/-- **One answer**, to a frame that has just been collected, so that its stream is known: it can be
built, and then the stream is closed, or it cannot. -/
theorem respondAndCloseStream_collectFrame {st : H2EchoState} {frame : H2GenericFrame}
    {frames : List H2GenericFrame}
    (hframes : frames = (relevantFrames (collectFrame st frame)
      ((st.collectedFrames frame.streamId).getD [] ++ [(st.frameCounter, frame)])).map (·.2)) :
    (∃ sent st', responseBytes frame.streamId frames = .ok sent ∧
      respondAndCloseStream (collectFrame st frame) frame.streamId =
        ⟨[.responds frame.streamId, .sends sent], .again st'⟩ ∧
      closeStream (collectFrame st frame) frame.streamId = .again st') ∨
    ∃ e, responseBytes frame.streamId frames = .error e ∧
      respondAndCloseStream (collectFrame st frame) frame.streamId =
        ⟨[.responds frame.streamId], .leave (some (.raised e))⟩ := by
  have hcollected : (collectFrame st frame).collectedFrames frame.streamId = some
      ((st.collectedFrames frame.streamId).getD [] ++ [(st.frameCounter, frame)]) :=
    Function.update_self ..
  obtain ⟨st', hclose⟩ : ∃ st', closeStream (collectFrame st frame) frame.streamId = .again st' := by
    rw [closeStream, hcollected]
    exact ⟨_, rfl⟩
  rw [respondAndCloseStream, Emits.andThen_of_again rfl]
  simp only [hcollected, ← hframes]
  cases hdata : responseBytes frame.streamId frames with
  | ok sent =>
      refine .inl ⟨sent, st', rfl, ?_, hclose⟩
      rw [sendAll, Emits.andThen_of_again rfl, hclose]
      rfl
  | error e => exact .inr ⟨e, rfl, rfl⟩

/-- A response fails only while its bytes are built. -/
theorem respondAndCloseStream_leave {st : H2EchoState} {frame : H2GenericFrame}
    {r : Option HandlerError}
    (h : (respondAndCloseStream (collectFrame st frame) frame.streamId).next = .leave r) :
    ∃ frames e, responseBytes frame.streamId frames = .error e ∧ r = some (.raised e) := by
  obtain ⟨sent, st', -, heq, -⟩ | ⟨e, herror, heq⟩ := respondAndCloseStream_collectFrame rfl
  · rw [heq] at h
    cases h
  · rw [heq] at h
    cases h
    exact ⟨_, e, herror, rfl⟩

/-- **The handler stops** at a GOAWAY, at an RST_STREAM for a stream of which nothing has been
collected, and where an answer cannot be built. -/
theorem handleFrame_leave {st : H2EchoState} {frame : H2GenericFrame} {r : Option HandlerError}
    (h : (handleFrame st frame).next = .leave r) :
    (frame.typ = H2FrameType.GOAWAY ∧ r = none) ∨
    (frame.typ = H2FrameType.RST_STREAM ∧ st.collectedFrames frame.streamId = none ∧
      r = some .keyError) ∨
    (frame.typ = H2FrameType.PING ∧ ∃ e, pingBytes frame = .error e ∧ r = some (.raised e)) ∨
    (Answered frame ∧
      ∃ frames e, responseBytes frame.streamId frames = .error e ∧ r = some (.raised e)) := by
  unfold handleFrame at h
  split_ifs at h with hdata hend hheaders hboth hend hpass hreset hsettings hack hping hack hgoaway
  · exact .inr (.inr (.inr ⟨.inl ⟨hdata, hend⟩, respondAndCloseStream_leave h⟩))
  · cases h
  · rw [Bool.and_eq_true] at hboth
    exact .inr (.inr (.inr ⟨.inr ⟨hheaders, hboth⟩, respondAndCloseStream_leave h⟩))
  · cases h
  · cases h
  · cases h
  · exact .inr (.inl ⟨hreset, closeStream_leave h⟩)
  · cases h
  · rw [settingsBytes_ack] at h
    cases h
  · cases h
  · exact .inr (.inr (.inl ⟨hping, sendAll_leave h⟩))
  · cases h
    exact .inl ⟨hgoaway, rfl⟩
  · cases h

end HttpGarden.Echo
