import HttpGarden.Echo.H2

/-!
# HttpGarden.Echo.Segmentation

**The HTTP/2 handler and the pieces in which its input arrives.** What `recvall` returns is
parsed as it is: the handler does not keep the beginning of a frame until the rest of it
arrives.

* `handleConnection_segmentation_iff`: cutting the input makes no difference exactly if the
  handler is never given a piece with an incomplete frame.
-/

namespace HttpGarden.Echo

open Lib Http2 Hpack

/-! ### What the exceptions say -/

/-- The messages of the checks that a response or the answer to a PING can fail. -/
def checkMessages : List String :=
  ["Invalid stream ID", "Payload too long", "Padding length out of range",
    "Either all or none of exclusive, weight, and stream_dependency fields must be present",
    "Invalid weight", "Invalid PING payload length"]

/-- Every `H2Error` has one of these messages. -/
def ChecksOnly {α : Type} (x : Except PyError α) : Prop :=
  ∀ msg, x = .error (.h2Error msg) → msg ∈ checkMessages

theorem checksOnly_iff {α : Type} {x : Except PyError α} :
    ChecksOnly x ↔ OnlyRaises (fun e => ∀ msg, e = .h2Error msg → msg ∈ checkMessages) x :=
  ⟨fun h _ he msg hmsg => h msg (he.trans (congrArg _ hmsg)), fun h msg hx => h _ hx msg rfl⟩

theorem ChecksOnly.bind {α β : Type} {x : Except PyError α} {f : α → Except PyError β}
    (hx : ChecksOnly x) (hf : ∀ a, ChecksOnly (f a)) : ChecksOnly (x >>= f) :=
  checksOnly_iff.mpr ((checksOnly_iff.mp hx).bind fun a => checksOnly_iff.mp (hf a))

theorem checksOnly_ok {α : Type} (a : α) : ChecksOnly (.ok a) :=
  checksOnly_iff.mpr (onlyRaises_ok a)

theorem checksOnly_error {α : Type} {msg : String} (hmsg : msg ∈ checkMessages) :
    ChecksOnly (.error (.h2Error msg) : Except PyError α) := by
  intro msg' h
  cases h
  exact hmsg

theorem ChecksOnly.ite {α : Type} {P : Prop} [Decidable P] {x y : Except PyError α}
    (hx : ChecksOnly x) (hy : ChecksOnly y) : ChecksOnly (if P then x else y) :=
  checksOnly_iff.mpr ((checksOnly_iff.mp hx).ite (checksOnly_iff.mp hy))

theorem ChecksOnly.build {α : Type} {c : Except PyError Unit} (hc : ChecksOnly c)
    (k : c = .ok () → α) : ChecksOnly (Lib.build c k) :=
  checksOnly_iff.mpr ((checksOnly_iff.mp hc).build k)

theorem checksOnly_mapM {α β : Type} {f : α → Except PyError β} {as : List α}
    (hf : ∀ a ∈ as, ChecksOnly (f a)) : ChecksOnly (as.mapM f) :=
  checksOnly_iff.mpr (.mapM fun a ha => checksOnly_iff.mp (hf a ha))

theorem checksOnly_intToBytes (n : Int) (length : Nat) : ChecksOnly (intToBytes n length) := by
  intro msg h
  unfold intToBytes at h
  split_ifs at h <;> cases h

theorem checksOnly_checkStreamId (id : Int) (canBeZero mustBeZero : Bool) :
    ChecksOnly (checkStreamId id canBeZero mustBeZero) :=
  (checksOnly_error (by decide)).ite (checksOnly_ok ())

theorem checksOnly_checkPadLength (padLength : Option Int) : ChecksOnly (checkPadLength padLength) := by
  cases padLength with
  | none => exact checksOnly_ok ()
  | some n => exact (checksOnly_error (by decide)).ite (checksOnly_ok ())

/-! ### Frames that are built -/

theorem checksOnly_generic (typ : Int) (flags : H2Flags) (reserved : Bool) (streamId : Int)
    (payload : Bytes) : ChecksOnly (H2GenericFrame.new typ flags reserved streamId payload) := by
  refine ChecksOnly.build ?_ _
  refine ChecksOnly.bind (checksOnly_checkStreamId _ _ _) fun _ => ?_
  exact (checksOnly_error (by decide)).ite (checksOnly_ok ())

theorem checksOnly_genericBytes (frame : H2GenericFrame) : ChecksOnly frame.toBytes := by
  refine ChecksOnly.bind (checksOnly_intToBytes _ _) fun _ => ?_
  refine ChecksOnly.bind (checksOnly_intToBytes _ _) fun _ => ?_
  exact ChecksOnly.bind (checksOnly_intToBytes _ _) fun _ => checksOnly_ok _

/-- A typed frame whose payload can be built fails only in the generic one. -/
theorem checksOnly_typedBytes {x : TypedFrame} {typ : Int} {flags : H2Flags} {streamId : Int}
    (payload : Except PyError Bytes) (hpayload : ChecksOnly payload)
    (hx : x.toGeneric = payload >>= fun p => H2GenericFrame.new typ flags false streamId p) :
    ChecksOnly x.toBytes := by
  rw [TypedFrame.toBytes, hx]
  exact (hpayload.bind fun p => checksOnly_generic _ _ _ _ p).bind checksOnly_genericBytes

theorem checksOnly_pingBytes (frame : H2GenericFrame) : ChecksOnly (pingBytes frame) := by
  refine ChecksOnly.bind (ChecksOnly.build ?_ _) fun ping => ?_
  · exact (checksOnly_error (by decide)).ite (checksOnly_ok ())
  · exact checksOnly_typedBytes ping.payload (checksOnly_ok ping.opaqueData) rfl

theorem checksOnly_addPadding (padLength : Option Int) (payload : Bytes) :
    ChecksOnly (addPadding padLength payload) := by
  cases padLength with
  | none => exact checksOnly_ok payload
  | some n =>
      refine ChecksOnly.bind (checksOnly_intToBytes n 1) fun byte => ?_
      refine ChecksOnly.bind ?_ fun padding => checksOnly_ok _
      intro msg h
      unfold bytesOfLength at h
      split_ifs at h
      cases h

theorem checksOnly_headersBytes (x : H2HeadersFrame) : ChecksOnly (TypedFrame.headers x).toBytes := by
  have hbody : ChecksOnly x.body := by
    unfold H2HeadersFrame.body
    split
    · refine ChecksOnly.bind (checksOnly_intToBytes _ _) fun _ => ?_
      exact ChecksOnly.bind (checksOnly_intToBytes _ _) fun _ => checksOnly_ok _
    · exact checksOnly_ok _
  exact checksOnly_typedBytes x.payload
    (hbody.bind fun body => checksOnly_addPadding x.padLength body) rfl

theorem checksOnly_dataBytes (x : H2DataFrame) : ChecksOnly (TypedFrame.data x).toBytes :=
  checksOnly_typedBytes x.payload (checksOnly_addPadding x.padLength x.data) rfl

theorem statusBytes : (HPACKField.literal ⟨bytes ":status", false, none, none⟩
    ⟨bytes "200", false, none, none⟩).toBytes =
      .ok [0, 7, 58, 115, 116, 97, 116, 117, 115, 3, 50, 48, 48] := by
  decide

theorem checksOnly_responseBytes (streamId : Int) (frames : List H2GenericFrame) :
    ChecksOnly (responseBytes streamId frames) := by
  rw [responseBytes, statusBytes, ok_bind]
  refine ChecksOnly.bind (ChecksOnly.build ?_ _) fun headersFrame => ?_
  · exact ChecksOnly.bind (checksOnly_checkStreamId _ _ _) fun _ => checksOnly_ok ()
  refine ChecksOnly.bind ?_ fun data => ?_
  · exact ChecksOnly.bind (checksOnly_mapM fun frame _ => checksOnly_genericBytes frame)
      fun _ => checksOnly_ok _
  refine ChecksOnly.bind (ChecksOnly.build ?_ _) fun dataFrame => ?_
  · exact ChecksOnly.bind (checksOnly_checkPadLength none) fun _ => checksOnly_checkStreamId _ _ _
  refine ChecksOnly.bind (checksOnly_mapM fun x hx => ?_) fun _ => checksOnly_ok _
  rcases List.mem_cons.mp hx with rfl | hx
  · exact checksOnly_headersBytes headersFrame
  · rw [List.mem_singleton.mp hx]
    exact checksOnly_dataBytes dataFrame

/-- What an `H2Error` says that leaves the handler while it handles a frame. -/
theorem handleFrame_message {st : H2EchoState} {frame : H2GenericFrame} {msg : String}
    (h : (handleFrame st frame).next = .leave (some (.raised (.h2Error msg)))) :
    msg ∈ checkMessages := by
  rcases handleFrame_leave h with ⟨-, hr⟩ | ⟨-, -, hr⟩ | ⟨-, e, he, hr⟩ | ⟨-, frames, e, he, hr⟩
  · cases hr
  · cases hr
  · cases hr
    exact checksOnly_pingBytes frame msg he
  · cases hr
    exact checksOnly_responseBytes frame.streamId frames msg he

/-- No check speaks of the end of the input. -/
theorem not_mem_of_isFramingMessage {msg : String} (h : H2GenericFrame.IsFramingMessage msg) :
    msg ∉ checkMessages := by
  rcases h with rfl | ⟨s, rfl⟩
  · decide
  · intro hmem
    -- the other message begins with an N, and none of the messages of the checks does
    have hhead : ∀ m ∈ checkMessages, m.toList.head? ≠ some 'N' := by decide
    refine hhead _ hmem ?_
    rw [String.toList_append]
    rfl

/-! ### Pieces -/

theorem handlePiece_of_layouts {b : Bytes} {fs : List H2GenericFrame} (h : Layouts fs b)
    (st : H2EchoState) : handlePiece st b = handleFrame.run st fs := by
  rw [handlePiece, parseGenericFrames_of_layouts h]

/-- A piece of complete frames is handled frame by frame. -/
theorem handlePiece_append {a b : Bytes} (ha : IsFrames a) (hb : IsFrames b) (st : H2EchoState) :
    handlePiece st (a ++ b) = (handlePiece st a).andThen fun st => handlePiece st b := by
  obtain ⟨fs, hfs⟩ := layouts_of_isFrames ha
  obtain ⟨gs, hgs⟩ := layouts_of_isFrames hb
  have hpiece (st : H2EchoState) : handlePiece st b = handleFrame.run st gs :=
    handlePiece_of_layouts hgs st
  rw [handlePiece, parseGenericFrames_append hfs hgs]
  simp only [hpiece, handlePiece_of_layouts hfs, Process.run_append]

/-- A piece with an incomplete frame is an exception that complete frames do not raise. -/
theorem handlePiece_of_not_isFrames {a b : Bytes} (ha : ¬ IsFrames a) (hb : IsFrames b)
    (st : H2EchoState) :
    (∃ r, (handlePiece st a).next = .leave r) ∧ handlePiece st a ≠ handlePiece st b := by
  obtain ⟨msg, hmsg⟩ := (parseGenericFrames_bijective.2.2 a).mpr ha
  obtain ⟨fs, hfs⟩ := layouts_of_isFrames hb
  have hpiece : handlePiece st a = .leave (some (.raised (.h2Error msg))) := by
    rw [handlePiece, hmsg]
  rw [hpiece, handlePiece_of_layouts hfs]
  refine ⟨⟨_, rfl⟩, fun heq => ?_⟩
  have hleave := congrArg Emits.next heq.symm
  obtain ⟨t, frame, -, hframe⟩ := Process.run_next_eq_leave.mp hleave
  exact not_mem_of_isFramingMessage (parseGenericFrames_message hmsg) (handleFrame_message hframe)

/-- The handler is given no piece with an incomplete frame. -/
def GivenCompleteFrames (st : H2EchoState) (pieces : List Bytes) : Prop :=
  ∀ before piece after st', pieces = before ++ piece :: after →
    (handlePiece.run st before).next = .again st' → IsFrames piece

theorem givenCompleteFrames_iff_comes {st : H2EchoState} {pieces : List Bytes} :
    GivenCompleteFrames st pieces ↔
      ∀ st' piece, handlePiece.Comes st pieces st' piece → IsFrames piece := by
  constructor
  · intro h st' piece ⟨before, after, hsplit, hrun⟩
    exact h before piece after st' hsplit hrun
  · intro h before piece after st' hsplit hrun
    exact h st' piece ⟨before, after, hsplit, hrun⟩

theorem givenCompleteFrames_cons {st : H2EchoState} {piece : Bytes} {pieces : List Bytes} :
    GivenCompleteFrames st (piece :: pieces) ↔ IsFrames piece ∧
      ∀ st', (handlePiece st piece).next = .again st' → GivenCompleteFrames st' pieces := by
  simp only [givenCompleteFrames_iff_comes]
  constructor
  · intro h
    refine ⟨h st piece (Process.comes_cons.mpr (.inl ⟨rfl, rfl⟩)), ?_⟩
    intro st' hst' st'' piece' hcomes
    exact h st'' piece' (Process.comes_cons.mpr (.inr ⟨st', hst', hcomes⟩))
  · intro ⟨hpiece, hpieces⟩ st'' piece' hcomes
    rcases Process.comes_cons.mp hcomes with ⟨-, rfl⟩ | ⟨st', hst', hcomes⟩
    · exact hpiece
    · exact hpieces st' hst' st'' piece' hcomes

/-- **The loop over the pieces**, from any state. -/
theorem run_handlePiece_iff {pieces : List Bytes} (h : IsFrames pieces.flatten) (st : H2EchoState) :
    handlePiece.run st pieces = handlePiece st pieces.flatten ↔ GivenCompleteFrames st pieces := by
  induction pieces generalizing st with
  | nil =>
      refine ⟨fun _ before piece after st' hsplit _ => ?_, fun _ => ?_⟩
      · cases before <;> cases hsplit
      · exact (handlePiece_of_layouts ⟨[], .nil, rfl⟩ st).symm
  | cons piece pieces ih =>
      rw [List.flatten_cons] at h ⊢
      rw [givenCompleteFrames_cons, Process.run_cons]
      -- the first piece decides whether the rest is complete too
      by_cases hpiece : IsFrames piece
      · have hrest := hpiece.of_append_frames h
        rw [handlePiece_append hpiece hrest]
        cases hnext : (handlePiece st piece).next with
        | leave r =>
            rw [Emits.andThen_of_leave hnext, Emits.andThen_of_leave hnext]
            exact ⟨fun _ => ⟨hpiece, nofun⟩, fun _ => rfl⟩
        | again st' =>
            rw [Emits.andThen_right_inj hnext, ih hrest st']
            refine ⟨fun hgiven => ⟨hpiece, fun st'' hst'' => ?_⟩, fun h => h.2 st' rfl⟩
            cases hst''
            exact hgiven
      · obtain ⟨⟨r, hleave⟩, hne⟩ := handlePiece_of_not_isFrames hpiece h st
        rw [Emits.andThen_of_leave hleave]
        exact ⟨fun heq => absurd heq hne, fun hgiven => absurd hgiven.1 hpiece⟩

/-! ### Connections -/

theorem settingsBytes_first : settingsBytes false = .ok [0, 0, 0, 4, 0, 0, 0, 0, 0] := by
  decide

theorem handleConnection_of_preface (frameCounter : Nat) (piece : Bytes) (pieces : List Bytes) :
    handleConnection frameCounter (H2_PREFACE ++ piece) pieces =
      .inl (handleH2Connection frameCounter (piece :: pieces)) := by
  rw [handleConnection, if_pos (List.prefix_append _ _), List.drop_left]

/-- **Segmentation makes no difference** to what the handler does and to how it ends, exactly
if the handler, as long as it runs, is given pieces of complete frames. -/
theorem handleConnection_segmentation_iff {frameCounter : Nat} {piece : Bytes}
    {pieces : List Bytes} (h : IsFrames (piece :: pieces).flatten) :
    handleConnection frameCounter (H2_PREFACE ++ piece) pieces =
        handleConnection frameCounter (H2_PREFACE ++ (piece :: pieces).flatten) [] ↔
      GivenCompleteFrames { frameCounter := frameCounter } (piece :: pieces) := by
  rw [handleConnection_of_preface, handleConnection_of_preface, Sum.inl.injEq,
    ← run_handlePiece_iff h]
  have hsettings (pieces : List Bytes) : handleH2Connection frameCounter pieces =
      (⟨[.sends [0, 0, 0, 4, 0, 0, 0, 0, 0]], .again { frameCounter := frameCounter }⟩ :
        H2Emits).andThen fun st => handlePiece.run st pieces := by
    rw [handleH2Connection, settingsBytes_first]
    rfl
  rw [hsettings, hsettings, Emits.andThen_right_inj rfl, Process.run_singleton]

/-- A PING frame. -/
def pingFrame : Bytes := [0, 0, 8, 6, 0, 0, 0, 0, 0, 1, 2, 3, 4, 5, 6, 7, 8]

theorem isFrame_pingFrame : IsFrame pingFrame := by
  unfold IsFrame
  decide

theorem handleConnection_segmentation_iff_pings :
    handleConnection 0 (H2_PREFACE ++ pingFrame) [pingFrame] =
      handleConnection 0 (H2_PREFACE ++ [pingFrame, pingFrame].flatten) [] := by
  have hone : IsFrames pingFrame :=
    ⟨[pingFrame], List.forall_mem_singleton.mpr isFrame_pingFrame, (List.append_nil _).symm⟩
  have htwo : IsFrames [pingFrame, pingFrame].flatten :=
    ⟨_, by simp [isFrame_pingFrame], rfl⟩
  refine (handleConnection_segmentation_iff htwo).mpr ?_
  refine givenCompleteFrames_cons.mpr ⟨hone, fun st _ => ?_⟩
  refine givenCompleteFrames_cons.mpr ⟨hone, fun st _ before piece after st' hsplit _ => ?_⟩
  cases before <;> cases hsplit

/-- A PING that arrives in two pieces is not answered. -/
theorem not_handleConnection_segmentation :
    ¬ ∀ (frameCounter : Nat) (piece : Bytes) (pieces : List Bytes),
      IsFrames (piece :: pieces).flatten →
      handleConnection frameCounter (H2_PREFACE ++ piece) pieces =
        handleConnection frameCounter (H2_PREFACE ++ (piece :: pieces).flatten) [] := by
  intro h
  have hwhole : [pingFrame.take 4, pingFrame.drop 4].flatten = pingFrame := by decide
  have hframes : IsFrames [pingFrame.take 4, pingFrame.drop 4].flatten := by
    rw [hwhole]
    exact ⟨[pingFrame], List.forall_mem_singleton.mpr isFrame_pingFrame, (List.append_nil _).symm⟩
  have heq := h 0 (pingFrame.take 4) [pingFrame.drop 4] hframes
  rw [handleConnection_of_preface, handleConnection_of_preface, hwhole] at heq
  exact absurd (congrArg Emits.out (Sum.inl.inj heq)) (by decide +kernel)

end HttpGarden.Echo
