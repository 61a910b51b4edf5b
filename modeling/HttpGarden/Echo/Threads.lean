import HttpGarden.Echo.Collected
import HttpGarden.Lib.Threads

/-!
# HttpGarden.Echo.Threads

**The connections of the echo server**, each of which has a thread. `frame_counter` is the one
variable that they share: `collect_frame` stores a frame under its value, and then adds one to it.
In between, the other threads may do the same, any number of times; the addition itself is one move.
A connection without the preface does not come to it.

* `handleFrame_alike`: what is done with a frame does not depend on the numbers under which the
  frames before it were stored, as long as they are in order.
* `handleH2Connection_interleaved`: each connection is served as if it were the only one.
-/

namespace HttpGarden.Echo

open Lib Http2 Hpack

/-! ### States that differ in the numbers -/

/-- The same frames have been collected, in the same order. -/
structure Alike (st st' : H2EchoState) : Prop where
  records : ∃ frames, st.ledger.Records (·.streamId) frames ∧ st'.ledger.Records (·.streamId) frames
  streamsEnding : st.streamsEnding = st'.streamsEnding

theorem alike_init (frameCounter frameCounter' : Nat) :
    Alike { frameCounter := frameCounter } { frameCounter := frameCounter' } :=
  ⟨⟨[], Ledger.records_nil _, Ledger.records_nil _⟩, rfl⟩

namespace Alike

variable {st st' : H2EchoState}

/-- Others may have counted their frames. -/
theorem mono (h : Alike st st') {frameCounter : Nat} (hcounter : st.frameCounter ≤ frameCounter) :
    Alike { st with frameCounter } st' := by
  obtain ⟨frames, hst, hst'⟩ := h.records
  exact ⟨⟨frames, hst.mono hcounter, hst'⟩, h.streamsEnding⟩

theorem collectFrame (h : Alike st st') (frame : H2GenericFrame) :
    Alike (collectFrame st frame) (collectFrame st' frame) := by
  obtain ⟨frames, hst, hst'⟩ := h.records
  exact ⟨⟨frames ++ [frame], hst.add frame, hst'.add frame⟩, h.streamsEnding⟩

theorem closeStream (h : Alike st st') (streamId : Int) :
    Emits.Rel Alike (closeStream st streamId) (closeStream st' streamId) := by
  obtain ⟨frames, hst, hst'⟩ := h.records
  unfold Echo.closeStream
  cases hentries : st.collectedFrames streamId with
  | none =>
      have hentries' : st'.collectedFrames streamId = none :=
        (hst'.entries_eq_none streamId).mpr ((hst.entries_eq_none streamId).mp hentries)
      rw [hentries']
      exact .leave [] _
  | some collected =>
      obtain ⟨collected', hentries'⟩ : ∃ collected', st'.collectedFrames streamId = some collected' := by
        refine Option.ne_none_iff_exists'.mp fun hnone => ?_
        have hentries₀ : st.collectedFrames streamId = none :=
          (hst.entries_eq_none streamId).mpr ((hst'.entries_eq_none streamId).mp hnone)
        rw [hentries] at hentries₀
        cases hentries₀
      rw [hentries']
      exact .again [] ⟨⟨_, hst.drop streamId, hst'.drop streamId⟩,
        congrArg (List.filter (· != streamId)) h.streamsEnding⟩

theorem sendAll (h : Alike st st') (data : Except PyError Bytes) :
    Emits.Rel Alike (sendAll st data) (sendAll st' data) := by
  cases data with
  | ok sent => exact .again [H2Event.sends sent] h
  | error e => exact .leave [] _

/-- On a stream, the frames are given back in the order in which they came. -/
theorem given_eq (h : Alike st st') {frame : H2GenericFrame} (hid : frame.streamId ≠ 0) :
    given st frame = given st' frame := by
  obtain ⟨frames, hst, hst'⟩ := h.records
  rw [given, given, ledger_collectFrame, ledger_collectFrame, (hst.add frame).merge hid,
    (hst'.add frame).merge hid]

end Alike

/-- There are no answers on stream 0. -/
theorem responseBytes_zero (frames : List H2GenericFrame) :
    responseBytes 0 frames = .error (.h2Error "Invalid stream ID") := by
  rw [responseBytes, statusBytes, ok_bind]
  rfl

theorem responseBytes_given {st st' : H2EchoState} (h : Alike st st') (frame : H2GenericFrame) :
    responseBytes frame.streamId (given st frame) = responseBytes frame.streamId (given st' frame) := by
  by_cases hid : frame.streamId = 0
  · rw [hid, responseBytes_zero, responseBytes_zero]
  · rw [h.given_eq hid]

/-- **One frame.** The numbers do not matter. -/
theorem handleFrame_alike {st st' : H2EchoState} (h : Alike st st') (frame : H2GenericFrame) :
    Emits.Rel Alike (handleFrame st frame) (handleFrame st' frame) := by
  have hcollect := h.collectFrame frame
  by_cases hanswered : Answered frame
  · rw [handleFrame_of_answered hanswered, handleFrame_of_answered hanswered]
    have hbytes := responseBytes_given h frame
    obtain ⟨sent, st₁, hsent, heq, hclose⟩ | ⟨e, herror, heq⟩ :=
        respondAndCloseStream_collectFrame (given_eq_relevantFrames st frame) <;>
      obtain ⟨sent', st₁', hsent', heq', hclose'⟩ | ⟨e', herror', heq'⟩ :=
        respondAndCloseStream_collectFrame (given_eq_relevantFrames st' frame)
    · rw [hsent, hsent'] at hbytes
      cases hbytes
      rw [heq, heq']
      have hrel := hcollect.closeStream frame.streamId
      rw [hclose, hclose'] at hrel
      cases hrel with
      | again out hst => exact .again _ hst
    · rw [hsent, herror'] at hbytes
      cases hbytes
    · rw [herror, hsent'] at hbytes
      cases hbytes
    · rw [herror, herror'] at hbytes
      cases hbytes
      rw [heq, heq']
      exact .leave _ _
  unfold handleFrame
  split_ifs with hdata hend hheaders hboth hend hother hreset hsettings hack hping hack hgoaway
  · exact absurd (.inl ⟨hdata, hend⟩) hanswered
  · exact .again [] hcollect
  · rw [Bool.and_eq_true] at hboth
    exact absurd (.inr ⟨hheaders, hboth⟩) hanswered
  · exact .again [] ⟨hcollect.records, congrArg (List.insert frame.streamId) h.streamsEnding⟩
  · exact .again [] hcollect
  · exact .again [] h
  · exact h.closeStream frame.streamId
  · exact .again [] hcollect
  · exact hcollect.sendAll (settingsBytes true)
  · exact .again [] h
  · exact h.sendAll (pingBytes frame)
  · exact .leave [] none
  · exact .again [] hcollect

/-! ### Threads -/

/-- Where a thread is in `handle_h2_connection`. -/
inductive Phase
  | starts
  /-- In the loop over the frames, of which these are left. -/
  | handles (frames : List H2GenericFrame)
  /-- In `collect_frame`, which has stored the frame under `n`, and has not counted it. -/
  | counts (n : Nat) (frame : H2GenericFrame) (frames : List H2GenericFrame)
  | ended (r : Option HandlerError)

/-- The thread of a connection: `pieces` are what it is going to receive, and what it began with. -/
structure Thread where
  phase : Phase := .starts
  pieces : List Bytes
  collectedFrames : Int → Option (List (Nat × H2GenericFrame)) := fun _ => none
  streamsEnding : List Int := []

namespace Thread

def stateAt (t : Thread) (frameCounter : Nat) : H2EchoState :=
  ⟨frameCounter, t.collectedFrames, t.streamsEnding⟩

/-- The thread goes on with `frames`, unless it has to leave. -/
def after (t : Thread) (frames : List H2GenericFrame) (e : H2Emits) : Thread :=
  match e.next with
  | .again st => ⟨.handles frames, t.pieces, st.collectedFrames, st.streamsEnding⟩
  | .leave r => { t with phase := .ended r }

/-- What a thread does until another one may move. -/
def move : Mover Nat Thread H2Event := fun frameCounter t =>
  match t.phase with
  | .starts =>
    let e := sendAll (t.stateAt frameCounter) (settingsBytes false)
    { shared := frameCounter, thread := t.after [] e, out := e.out }
  | .handles [] =>
    match t.pieces with
    | [] => { shared := frameCounter, thread := t }
    | piece :: pieces =>
      match parseGenericFrames piece with
      | .error e =>
        { shared := frameCounter, thread := { t with phase := .ended (some (.raised e)), pieces } }
      | .ok frames => { shared := frameCounter, thread := { t with phase := .handles frames, pieces } }
  | .handles (frame :: frames) =>
    if Collects frame then
      { shared := frameCounter, thread := { t with phase := .counts frameCounter frame frames } }
    else
      let e := handleFrame (t.stateAt frameCounter) frame
      { shared := frameCounter, thread := t.after frames e, out := e.out }
  | .counts n frame frames =>
    let e := handleFrame (t.stateAt n) frame
    { shared := frameCounter + 1, thread := t.after frames e, out := e.out }
  | .ended _ => { shared := frameCounter, thread := t }

/-! ### What a thread still does -/

/-- What follows in the thread if it is alone, from the state `st`. -/
def rest (t : Thread) (st : H2EchoState) : H2Emits :=
  match t.phase with
  | .starts => (sendAll st (settingsBytes false)).andThen fun st => handlePiece.run st t.pieces
  | .handles frames => (handleFrame.run st frames).andThen fun st => handlePiece.run st t.pieces
  | .counts _ frame frames =>
    (handleFrame.run st (frame :: frames)).andThen fun st => handlePiece.run st t.pieces
  | .ended r => .leave r

/-- The number with which the thread works. -/
def number (t : Thread) (frameCounter : Nat) : Nat :=
  match t.phase with
  | .counts n _ _ => n
  | _ => frameCounter

/-- The thread has done a part of `whole`, and is going to do the rest. -/
structure Follows (whole : H2Emits) (out : List H2Event) (frameCounter : Nat) (t : Thread) : Prop where
  number_le : t.number frameCounter ≤ frameCounter
  exists_rest : ∃ st, Alike (t.stateAt (t.number frameCounter)) st ∧
    whole = ⟨out ++ (t.rest st).out, (t.rest st).next⟩

variable {whole : H2Emits} {out : List H2Event} {frameCounter : Nat} {t : Thread}

/-- The other threads only count. -/
theorem Follows.mono (h : Follows whole out frameCounter t) {frameCounter' : Nat}
    (hle : frameCounter ≤ frameCounter') : Follows whole out frameCounter' t := by
  obtain ⟨hnumber, st, halike, hwhole⟩ := h
  have hle' : t.number frameCounter ≤ t.number frameCounter' := by
    unfold number
    split
    · exact le_rfl
    · exact hle
  refine ⟨?_, st, halike.mono hle', hwhole⟩
  unfold number at hnumber ⊢
  split at hnumber
  · exact hnumber.trans hle
  · exact le_rfl

/-- The counter goes up by one for a frame that is collected. -/
theorem frameCounter_handleFrame {st st' : H2EchoState} {frame : H2GenericFrame}
    (h : (handleFrame st frame).next = .again st') :
    st'.frameCounter = if Collects frame then st.frameCounter + 1 else st.frameCounter := by
  have hledger := congrArg Ledger.clock (ledger_handleFrame h)
  rw [Ledger.handle] at hledger
  refine hledger.trans ?_
  split_ifs <;> rfl

/-- What has been done alike is followed by the rest. -/
theorem follows_after {e e' : H2Emits} {frames : List H2GenericFrame} (h : Emits.Rel Alike e e')
    (hcounter : ∀ st, e.next = .again st → st.frameCounter ≤ frameCounter)
    (halike : ∃ st, Alike (t.stateAt frameCounter) st)
    (hwhole : whole = ⟨out ++ (e'.andThen fun st => (handleFrame.run st frames).andThen fun st =>
        handlePiece.run st t.pieces).out,
      (e'.andThen fun st => (handleFrame.run st frames).andThen fun st =>
        handlePiece.run st t.pieces).next⟩) :
    Follows whole (out ++ e.out) frameCounter (t.after frames e) := by
  cases h with
  | again emitted hst =>
      refine ⟨le_rfl, _, hst.mono (hcounter _ rfl), ?_⟩
      rw [hwhole, List.append_assoc]
      rfl
  | leave emitted r =>
      obtain ⟨st, hst⟩ := halike
      refine ⟨le_rfl, st, hst, ?_⟩
      rw [hwhole]
      exact Emits.ext (List.append_nil _).symm rfl

/-- **One move** of a thread is the next part of what it does alone. -/
theorem follows_move (h : Follows whole out frameCounter t) :
    Follows whole (out ++ (move frameCounter t).out) (move frameCounter t).shared
      (move frameCounter t).thread := by
  obtain ⟨phase, pieces, collectedFrames, streamsEnding⟩ := t
  obtain ⟨hnumber, st, halike, hwhole⟩ := h
  cases phase with
  | starts =>
      refine follows_after (halike.sendAll (settingsBytes false)) (fun st hst => ?_) ⟨st, halike⟩ hwhole
      rw [sendAll_again hst]
      exact le_rfl
  | handles frames =>
      cases frames with
      | nil =>
          cases pieces with
          | nil => exact ⟨hnumber, st, halike, by rw [hwhole, move, List.append_nil]⟩
          | cons piece pieces =>
              have hrest : rest ⟨.handles [], piece :: pieces, collectedFrames, streamsEnding⟩ st =
                (handlePiece st piece).andThen fun st => handlePiece.run st pieces := rfl
              rw [hrest, handlePiece] at hwhole
              simp only [move]
              cases hparse : parseGenericFrames piece with
              | error e =>
                  rw [hparse] at hwhole
                  exact ⟨hnumber, st, halike, by rw [hwhole, List.append_nil]; rfl⟩
              | ok frames =>
                  rw [hparse] at hwhole
                  exact ⟨hnumber, st, halike, by rw [hwhole, List.append_nil]; rfl⟩
      | cons frame frames =>
          have hrest : rest ⟨.handles (frame :: frames), pieces, collectedFrames, streamsEnding⟩ st =
            (handleFrame st frame).andThen fun st => (handleFrame.run st frames).andThen fun st =>
              handlePiece.run st pieces := Emits.andThen_assoc _ _ _
          by_cases hcollects : Collects frame
          · simp only [move, if_pos hcollects]
            exact ⟨le_rfl, st, halike, by rw [hwhole, List.append_nil]; rfl⟩
          · simp only [move, if_neg hcollects]
            rw [hrest] at hwhole
            refine follows_after (handleFrame_alike halike frame) (fun st' hst' => ?_) ⟨st, halike⟩ hwhole
            rw [frameCounter_handleFrame hst', if_neg hcollects]
            exact le_rfl
  | counts n frame frames =>
      have hrest : rest ⟨.counts n frame frames, pieces, collectedFrames, streamsEnding⟩ st =
        (handleFrame st frame).andThen fun st => (handleFrame.run st frames).andThen fun st =>
          handlePiece.run st pieces := Emits.andThen_assoc _ _ _
      rw [hrest] at hwhole
      have hle : n ≤ frameCounter := hnumber
      refine follows_after (handleFrame_alike halike frame) (fun st' hst' => ?_)
        ⟨st, halike.mono (hle.trans (Nat.le_succ _))⟩ hwhole
      rw [frameCounter_handleFrame hst']
      change (if Collects frame then n + 1 else n) ≤ frameCounter + 1
      split_ifs <;> omega
  | ended r => exact ⟨hnumber, st, halike, by rw [hwhole, move, List.append_nil]⟩

/-- No move takes the counter down. -/
theorem le_shared_move (frameCounter : Nat) (t : Thread) :
    frameCounter ≤ (move frameCounter t).shared := by
  unfold move
  split
  · exact le_rfl
  · split
    · exact le_rfl
    · split <;> exact le_rfl
  · split <;> exact le_rfl
  · exact Nat.le_succ frameCounter
  · exact le_rfl

/-! ### The end of a thread -/

/-- How many moves it takes to receive and handle a piece: two for each frame, at most. -/
def pieceMoves (piece : Bytes) : Nat :=
  match parseGenericFrames piece with
  | .ok frames => 2 * frames.length + 1
  | .error _ => 1

/-- How many moves the thread may still make. -/
def movesLeft (t : Thread) : Nat :=
  match t.phase with
  | .starts => (t.pieces.map pieceMoves).sum + 1
  | .handles frames => 2 * frames.length + (t.pieces.map pieceMoves).sum
  | .counts _ _ frames => 2 * frames.length + 1 + (t.pieces.map pieceMoves).sum
  | .ended _ => 0

theorem movesLeft_after (t : Thread) (frames : List H2GenericFrame) (e : H2Emits) :
    (t.after frames e).movesLeft ≤ 2 * frames.length + (t.pieces.map pieceMoves).sum := by
  unfold after
  split
  · exact le_rfl
  · exact Nat.zero_le _

/-- Each move counts. -/
theorem movesLeft_move (frameCounter : Nat) (t : Thread) :
    (move frameCounter t).thread.movesLeft ≤ t.movesLeft - 1 := by
  obtain ⟨phase, pieces, collectedFrames, streamsEnding⟩ := t
  cases phase with
  | starts =>
      simp only [move]
      refine (movesLeft_after _ _ _).trans ?_
      simp only [movesLeft, List.length_nil]
      omega
  | handles frames =>
      cases frames with
      | nil =>
          cases pieces with
          | nil => exact Nat.zero_le _
          | cons piece pieces =>
              simp only [move, movesLeft, List.map_cons, List.sum_cons, pieceMoves]
              cases parseGenericFrames piece with
              | error e => exact Nat.zero_le _
              | ok frames =>
                  simp only [List.length_nil]
                  omega
      | cons frame frames =>
          by_cases hcollects : Collects frame
          · simp only [move, if_pos hcollects, movesLeft, List.length_cons]
            omega
          · simp only [move, if_neg hcollects]
            refine (movesLeft_after _ _ _).trans ?_
            simp only [movesLeft, List.length_cons]
            omega
  | counts n frame frames =>
      refine (movesLeft_after _ _ _).trans ?_
      simp only [movesLeft]
      omega
  | ended r => exact Nat.zero_le _

/-- A thread that cannot move any more has done all of it. -/
theorem Follows.whole_eq (h : Follows whole out frameCounter t) (hleft : t.movesLeft = 0) :
    out = whole.out ∧ ∀ r, t.phase = .ended r ↔ whole.next = .leave r := by
  obtain ⟨-, st, -, rfl⟩ := h
  obtain ⟨phase, pieces, collectedFrames, streamsEnding⟩ := t
  cases phase with
  | starts => exact absurd hleft (Nat.succ_ne_zero _)
  | handles frames =>
      obtain ⟨hframes, hpieces⟩ := Nat.add_eq_zero_iff.mp hleft
      obtain rfl : frames = [] := List.eq_nil_of_length_eq_zero (by omega)
      obtain rfl : pieces = [] := by
        cases pieces with
        | nil => rfl
        | cons piece pieces =>
            simp only [List.map_cons, List.sum_cons, pieceMoves] at hpieces
            split at hpieces <;> omega
      refine ⟨(List.append_nil out).symm, fun r => ⟨fun h => ?_, fun h => ?_⟩⟩
      · cases h
      · cases h
  | counts n frame frames =>
      simp only [movesLeft] at hleft
      omega
  | ended r =>
      refine ⟨(List.append_nil out).symm, fun r' => ⟨fun h => ?_, fun h => ?_⟩⟩
      · cases h
        rfl
      · cases h
        rfl

end Thread

/-! ### The server -/

variable {ι : Type} [DecidableEq ι]

/-- The threads of all connections, after the moves of `schedule`. -/
def serve (frameCounter : Nat) (pieces : ι → List Bytes) (schedule : List ι) :
    Threads ι Nat Thread H2Event :=
  Threads.run Thread.move
    { shared := frameCounter, threads := fun i => { pieces := pieces i } } schedule

/-- **Every connection is served as if it were the only one**, whatever the order in which the
threads move: it is sent the beginning of what it would be sent, and in the end all of it. -/
theorem handleH2Connection_interleaved (frameCounter frameCounter' : Nat) (pieces : ι → List Bytes)
    (i : ι) : ∃ moves, ∀ schedule,
      (serve frameCounter pieces schedule).outputs i <+:
        (handleH2Connection frameCounter' (pieces i)).out ∧
      (moves ≤ schedule.count i →
        (serve frameCounter pieces schedule).outputs i =
          (handleH2Connection frameCounter' (pieces i)).out ∧
        ∀ r, ((serve frameCounter pieces schedule).threads i).phase = .ended r ↔
          (handleH2Connection frameCounter' (pieces i)).next = .leave r) := by
  refine ⟨Thread.movesLeft { pieces := pieces i }, fun schedule => ?_⟩
  have hinit : Thread.Follows (handleH2Connection frameCounter' (pieces i)) [] frameCounter
      { pieces := pieces i } :=
    ⟨le_rfl, _, alike_init frameCounter frameCounter', rfl⟩
  have hfollows : Thread.Follows (handleH2Connection frameCounter' (pieces i))
      ((serve frameCounter pieces schedule).outputs i) (serve frameCounter pieces schedule).shared
      ((serve frameCounter pieces schedule).threads i) :=
    Threads.run_invariant (fun _ _ _ h => Thread.follows_move h)
      (fun _ _ _ _ (hle : _ ≤ _) h => h.mono hle) Thread.le_shared_move hinit schedule
  refine ⟨?_, fun hmoves => hfollows.whole_eq ?_⟩
  · obtain ⟨-, st, -, hwhole⟩ := hfollows
    rw [hwhole]
    exact List.prefix_append _ _
  · have hleft := Threads.run_measure Thread.movesLeft_move
      { shared := frameCounter, threads := fun i => { pieces := pieces i } } schedule i
    exact Nat.le_zero.mp (hleft.trans (Nat.sub_eq_zero_of_le hmoves).le)

end HttpGarden.Echo
