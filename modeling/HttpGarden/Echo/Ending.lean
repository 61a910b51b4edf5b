import HttpGarden.Echo.Crashes

/-!
# HttpGarden.Echo.Ending

**When the HTTP/2 handler ends.** `recvall` returns no bytes when nothing comes in time, and also
when the peer has closed the connection. `handle_h1_connection` takes both for the end; to
`handle_h2_connection` they are no frames, and it asks again.

`returns_iff`: it returns exactly if there is a GOAWAY that it comes to.
-/

namespace HttpGarden.Echo

open Lib Http2

/-- The handler of HTTP/1 does not go on after an empty receive. -/
theorem handleH1Connection_append_empty (bytesRecved : Bytes) (rounds later : List H1Round) :
    handleH1Connection bytesRecved (rounds ++ .recvs [] :: later) =
      handleH1Connection bytesRecved (rounds ++ [.recvs []]) := by
  induction rounds generalizing bytesRecved with
  | nil => rfl
  | cons round rounds ih =>
      cases round with
      | raises => rfl
      | recvs b =>
          rw [List.cons_append, List.cons_append, handleH1Connection, handleH1Connection, ih]

/-- The peer sends `pieces` and closes the connection, so that every further `recvall` returns no
bytes; and after some number of these the handler has returned. -/
def Returns (frameCounter : Nat) (pieces : List Bytes) : Prop :=
  ∃ n, (handleH2Connection frameCounter (pieces ++ List.replicate n [])).next = .leave none

/-- No bytes are no frames. -/
theorem Delivers.append_empty {pieces : List Bytes} {frames : List H2GenericFrame}
    (h : Delivers pieces frames) (n : Nat) : Delivers (pieces ++ List.replicate n []) frames := by
  induction n with
  | zero =>
      rw [List.replicate_zero, List.append_nil]
      exact h
  | succ n ih =>
      obtain ⟨parts, hparts, rfl⟩ := ih
      refine ⟨parts ++ [[]], ?_, ?_⟩
      · rw [List.replicate_succ', ← List.append_assoc]
        exact List.rel_append hparts (.cons ⟨[], .nil, rfl⟩ .nil)
      · rw [List.flatten_append, List.flatten_singleton, List.append_nil]

/-- Nothing changes after the last frame. -/
theorem returns_iff_run {frameCounter : Nat} {pieces : List Bytes} {frames : List H2GenericFrame}
    (h : Delivers pieces frames) : Returns frameCounter pieces ↔
      (handleFrame.run { frameCounter := frameCounter } frames).next = .leave none := by
  have hrun (n : Nat) := handleH2Connection_of_delivers (h.append_empty n) frameCounter
  refine ⟨fun hreturns => ?_, fun hleave => ⟨0, (hrun 0).trans hleave⟩⟩
  obtain ⟨n, hn⟩ := hreturns
  exact (hrun n).symm.trans hn

/-- **When the handler returns**: exactly if there is a GOAWAY, and no exception leaves the handler
before it. -/
theorem returns_iff {frameCounter : Nat} {pieces : List Bytes} {frames : List H2GenericFrame}
    (h : Delivers pieces frames) : Returns frameCounter pieces ↔
      ∃ before goAway after, frames = before ++ goAway :: after ∧
        goAway.typ = H2FrameType.GOAWAY ∧
        ∀ earlier frame later, before = earlier ++ frame :: later →
          frame.typ ≠ H2FrameType.GOAWAY ∧ ¬ Breaks earlier frame := by
  rw [returns_iff_run h]
  have htyp {before after : List H2GenericFrame} (hframes : frames = before ++ after) :
      ∀ f ∈ before, 0 ≤ f.typ ∧ f.typ ≤ 255 :=
    fun f hf => h.typ_range f (hframes ▸ List.mem_append_left after hf)
  refine ⟨fun hleave => ?_, fun hgoAway => ?_⟩
  · obtain ⟨st, goAway, ⟨before, after, hframes, hrun⟩, hleave⟩ :=
      Process.run_next_eq_leave.mp hleave
    refine ⟨before, goAway, after, hframes, handleFrame_returns_iff.mp hleave, ?_⟩
    intro earlier frame later hbefore
    have hno := Handles.no_goAway hrun
    refine ⟨hno frame (hbefore ▸ List.mem_append_right earlier List.mem_cons_self), ?_⟩
    intro hbreaks
    have hearlier : ∀ f ∈ earlier, f.typ ≠ H2FrameType.GOAWAY := fun f hf =>
      hno f (hbefore ▸ List.mem_append_left _ hf)
    obtain ⟨e, he⟩ := (run_raises_iff (htyp hframes)).mpr
      ⟨earlier, frame, later, hbefore, hearlier, hbreaks⟩
    cases he.symm.trans hrun
  · obtain ⟨before, goAway, after, hframes, hgoAway, hbefore⟩ := hgoAway
    cases hrun : (handleFrame.run { frameCounter := frameCounter } before).next with
    | again st =>
        refine Process.run_next_eq_leave.mpr ⟨st, goAway, ⟨before, after, hframes, hrun⟩, ?_⟩
        exact handleFrame_returns_iff.mpr hgoAway
    | leave r =>
        cases r with
        | none => rw [hframes, Process.run_append_of_leave hrun, hrun]
        | some e =>
            obtain ⟨earlier, frame, later, hsplit, -, hbreaks⟩ :=
              (run_raises_iff (htyp hframes)).mp ⟨e, hrun⟩
            exact absurd hbreaks (hbefore earlier frame later hsplit).2

/-- A GOAWAY frame. -/
def goAwayFrame : H2GenericFrame :=
  ⟨H2FrameType.GOAWAY, {}, false, 0, [0, 0, 0, 0, 0, 0, 0, 0], rfl⟩

def goAwayBytes : Bytes := [0, 0, 8, 7, 0, 0, 0, 0, 0, 0, 0, 0, 0, 0, 0, 0, 0]

theorem returns_iff_goAway : Returns 0 [lastBytes ++ goAwayBytes] := by
  have hdelivers : Delivers [lastBytes ++ goAwayBytes] [lastFrame, goAwayFrame] :=
    delivers_singleton (by decide +kernel)
  refine (returns_iff hdelivers).mpr ⟨[lastFrame], goAwayFrame, [], rfl, rfl, ?_⟩
  intro earlier frame later hsplit
  cases earlier with
  | nil =>
      cases hsplit
      decide
  | cons f earlier => cases earlier <;> cases hsplit

/-- After a request and its answer, nothing more comes. -/
theorem not_returns :
    ¬ ∀ (frameCounter : Nat) (pieces : List Bytes) (frames : List H2GenericFrame),
      Delivers pieces frames → Returns frameCounter pieces := by
  intro h
  have hdelivers : Delivers [interleavedBytes] (interleavedFrames ++ [lastFrame]) :=
    delivers_singleton (by decide +kernel)
  have hleave := (returns_iff_run hdelivers).mp (h 0 [interleavedBytes] _ hdelivers)
  obtain ⟨st, goAway, ⟨before, after, hframes, -⟩, hreturns⟩ := Process.run_next_eq_leave.mp hleave
  have hmem : goAway ∈ interleavedFrames ++ [lastFrame] :=
    hframes ▸ List.mem_append_right before List.mem_cons_self
  have hno : ∀ f ∈ interleavedFrames ++ [lastFrame], f.typ ≠ H2FrameType.GOAWAY := by decide
  exact hno goAway hmem (handleFrame_returns_iff.mp hreturns)

end HttpGarden.Echo
