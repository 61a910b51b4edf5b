import HttpGarden.Lib.Duplex
import HttpGarden.Python

/-!
# HttpGarden.Sockets

`util.py`: **`recvall` and `roundtrip`**, over what the calls on the socket come to.

`Client` is `roundtrip` call by call, as one of two parties that take turns in any order.
`roundtrip_of_run` connects the two: a run of the client that returns is one of `roundtrip`, and what the
result is made of is settled by the pauses, not by the pieces between them.
-/

namespace HttpGarden

open Lib

/-- `_RECV_SIZE` -/
def recvSize : Nat := 0x10000

/-- What the calls of the tools come to. -/
abbrev Event := SockEvent UInt8

/-! ### The functions -/

/-- How a call of `recvall` ends; it waits if nothing is known of its next call. -/
inductive RecvAll
  | returns (b : Bytes)
  | raises
  | waits
  deriving Repr, DecidableEq

/-- The loop of `recvall`, and the events after it. -/
def recvallFrom (result : Bytes) : List Event → RecvAll × List Event
  | .receives b :: es =>
    if b.length = 0 then (.returns (result ++ b), es) else recvallFrom (result ++ b) es
  | .timesOut :: es => (.returns result, es)
  | .raises :: es => (.raises, es)
  | es => (.waits, es)

/-- `recvall` -/
def recvall : List Event → RecvAll × List Event := recvallFrom []

/-- The last lines of `roundtrip`, after the loop. -/
def postamble (result : List Bytes) : RecvAll → Option (List Bytes)
  | .returns b => some (if b = [] then result else result ++ [b])
  | .raises => some result
  | .waits => none

/-- The loop of `roundtrip`. -/
def roundtripFrom (result : List Bytes) : List Bytes → List Event → Option (List Bytes)
  | [], es => postamble result (recvall es).1
  | _ :: data, .sends _ :: es =>
    match recvall es with
    | (.returns b, es) => roundtripFrom (result ++ [b]) data es
    | (.raises, _) => some result
    | (.waits, _) => none
  | _ :: _, .sendRaises _ :: _ => some result
  | _ :: _, _ => none

/-- `roundtrip`: what it returns, if it has returned by the end of the events. -/
def roundtrip (data : List Bytes) (es : List Event) : Option (List Bytes) := roundtripFrom [] data es

/-! ### Call by call -/

/-- Where `roundtrip` is, with its variables: in front of the `sendall` of a datum, in the `recvall`
after it, or in the last one, with what that has received. -/
inductive Client
  | sending (result : List Bytes) (datum : Bytes) (data : List Bytes)
  | receiving (result : List Bytes) (data : List Bytes) (b : Bytes)
  | finishing (result : List Bytes) (b : Bytes)
  | returned (result : List Bytes)
  deriving Repr, DecidableEq

namespace Client

/-- The head of the loop. -/
def loop (result : List Bytes) : List Bytes → Client
  | [] => finishing result []
  | datum :: data => sending result datum data

/-- Behind the last `recvall`. -/
def finish (result : List Bytes) (b : Bytes) : Client :=
  returned (if b = [] then result else result ++ [b])

/-- What comes after an event. -/
def step : Client → Event → Option Client
  | sending result datum data, .sends d =>
    if d = datum then some (receiving result data []) else none
  | sending result datum _, .sendRaises d => if d <+: datum then some (returned result) else none
  | receiving result data b, .receives b' =>
    some (if b'.length = 0 then loop (result ++ [b ++ b']) data else receiving result data (b ++ b'))
  | receiving result data b, .timesOut => some (loop (result ++ [b]) data)
  | receiving result _ _, .raises => some (returned result)
  | finishing result b, .receives b' =>
    some (if b'.length = 0 then finish result (b ++ b') else finishing result (b ++ b'))
  | finishing result b, .timesOut => some (finish result b)
  | finishing result _, .raises => some (returned result)
  | _, _ => none

theorem step_sends (result : List Bytes) (datum : Bytes) (data : List Bytes) :
    (sending result datum data).step (.sends datum) = some (receiving result data []) :=
  if_pos rfl

/-- Behind the `with` statement the socket is closed. -/
def Closed : Client → Prop
  | returned _ => True
  | _ => False

/-- What `roundtrip` has still to return, for the events to come. -/
def resume : Client → List Event → Option (List Bytes)
  | sending result datum data, es => roundtripFrom result (datum :: data) es
  | receiving result data b, es =>
    match recvallFrom b es with
    | (.returns b, es) => roundtripFrom (result ++ [b]) data es
    | (.raises, _) => some result
    | (.waits, _) => none
  | finishing result b, es => postamble result (recvallFrom b es).1
  | returned result, _ => some result

theorem resume_loop (result data : List Bytes) (es : List Event) :
    (loop result data).resume es = roundtripFrom result data es := by
  cases data <;> rfl

/-- The functions go the same way. -/
theorem resume_step {c c' : Client} {e : Event} (h : c.step e = some c') (es : List Event) :
    c.resume (e :: es) = c'.resume es := by
  cases c with
  | sending result datum data =>
      cases e with
      | sends d =>
          simp only [step, Option.ite_none_right_eq_some, Option.some.injEq] at h
          rw [← h.2]
          rfl
      | sendRaises d =>
          simp only [step, Option.ite_none_right_eq_some, Option.some.injEq] at h
          rw [← h.2]
          rfl
      | receives b | timesOut | raises => cases h
  | receiving result data b =>
      cases e with
      | receives b' =>
          rw [step, Option.some.injEq] at h
          rw [resume, recvallFrom, ← h]
          by_cases hb : b'.length = 0
          · rw [if_pos hb, if_pos hb, resume_loop]
          · rw [if_neg hb, if_neg hb]
            rfl
      | timesOut =>
          rw [step, Option.some.injEq] at h
          rw [← h, resume_loop]
          rfl
      | raises =>
          cases h
          rfl
      | sends d | sendRaises d => cases h
  | finishing result b =>
      cases e with
      | receives b' =>
          rw [step, Option.some.injEq] at h
          rw [resume, recvallFrom, ← h]
          split <;> rfl
      | timesOut | raises =>
          cases h
          rfl
      | sends d | sendRaises d => cases h
  | returned result => cases e <;> cases h

end Client

/-- The client as a party. -/
def client : Party UInt8 Client := ⟨Client.step, recvSize, Client.Closed⟩

/-- **A run of the client that returns** is one of `roundtrip`. -/
theorem roundtrip_of_run {data r : List Bytes} {es : List Event}
    (h : client.run (Client.loop [] data) es = some (.returned r)) : roundtrip data es = some r := by
  have hresume (c : Client) (es : List Event) {c' : Client} (h : client.run c es = some c') :
      c.resume es = c'.resume [] := by
    induction es generalizing c with
    | nil =>
        cases h
        rfl
    | cons e es ih =>
        obtain ⟨c₁, hstep, hrest⟩ := Option.bind_eq_some_iff.mp h
        rw [Client.resume_step hstep, ih c₁ hrest]
  exact (Client.resume_loop [] data es).symm.trans (hresume _ _ h)

/-! ### What is received, and what is sent -/

/-- No call raises anything but a timeout. -/
def Quiet (es : List Event) : Prop := ∀ e ∈ es, e ≠ .raises ∧ ∀ d, e ≠ .sendRaises d

/-- What the client has, after some events: it has sent the data in order, and its result and the
buffer of `recvall` are what has been received. When it has returned, there may have been an
exception, which drops the buffer. -/
def Client.Holds (data : List Bytes) (es : List Event) : Client → Prop
  | sending result datum todo =>
    sentBytes es ++ (datum :: todo).flatten = data.flatten ∧ receivedBytes es = result.flatten ∧
      result.length + (todo.length + 1) = data.length
  | receiving result todo b =>
    sentBytes es ++ todo.flatten = data.flatten ∧ receivedBytes es = result.flatten ++ b ∧
      result.length + (todo.length + 1) = data.length
  | finishing result b =>
    sentBytes es = data.flatten ∧ receivedBytes es = result.flatten ++ b ∧
      result.length = data.length
  | returned result =>
    sentBytes es <+: data.flatten ∧ result.flatten <+: receivedBytes es ∧
      result.length ≤ data.length + 1 ∧
      (Quiet es → sentBytes es = data.flatten ∧ result.flatten = receivedBytes es)

namespace Client

variable {data : List Bytes} {es : List Event}

theorem holds_loop {result todo : List Bytes} (hsent : sentBytes es ++ todo.flatten = data.flatten)
    (hreceived : receivedBytes es = result.flatten)
    (hlen : result.length + todo.length = data.length) : (loop result todo).Holds data es := by
  cases todo with
  | nil =>
      rw [List.flatten_nil, List.append_nil] at hsent
      exact ⟨hsent, by rw [hreceived, List.append_nil], hlen⟩
  | cons datum todo => exact ⟨hsent, hreceived, hlen⟩

theorem holds_finish {result : List Bytes} {b : Bytes} (hsent : sentBytes es = data.flatten)
    (hreceived : receivedBytes es = result.flatten ++ b) (hlen : result.length = data.length) :
    (finish result b).Holds data es := by
  have hresult : (if b = [] then result else result ++ [b]).flatten = receivedBytes es := by
    rw [hreceived]
    split
    · rename_i hb
      rw [hb, List.append_nil]
    · rw [List.flatten_append, List.flatten_singleton]
  refine ⟨hsent ▸ List.prefix_rfl, hresult ▸ List.prefix_rfl, ?_, fun _ => ⟨hsent, hresult⟩⟩
  split
  · omega
  · rw [List.length_append, List.length_singleton]
    omega

theorem holds_raised {result : List Bytes} (hsent : sentBytes es <+: data.flatten)
    (hreceived : result.flatten <+: receivedBytes es) (hlen : result.length ≤ data.length)
    (hraises : ¬ Quiet es) : (returned result).Holds data es :=
  ⟨hsent, hreceived, by omega, fun hquiet => absurd hquiet hraises⟩

theorem not_quiet_concat_raises : ¬ Quiet (es ++ [.raises]) :=
  fun h => (h _ (List.mem_append_right es (List.mem_singleton_self _))).1 rfl

theorem not_quiet_concat_sendRaises (d : Bytes) : ¬ Quiet (es ++ [.sendRaises d]) :=
  fun h => (h _ (List.mem_append_right es (List.mem_singleton_self _))).2 d rfl

/-- What one event keeps. -/
theorem holds_step {c c' : Client} {e : Event} (h : c.Holds data es) (hstep : c.step e = some c') :
    c'.Holds data (es ++ [e]) := by
  cases c with
  | sending result datum todo =>
      obtain ⟨hsent, hreceived, hlen⟩ := h
      rw [List.flatten_cons, ← List.append_assoc] at hsent
      cases e with
      | sends d =>
          simp only [step, Option.ite_none_right_eq_some, Option.some.injEq] at hstep
          obtain ⟨rfl, rfl⟩ := hstep
          refine ⟨?_, ?_, hlen⟩
          · rw [sentBytes_concat]
            exact hsent
          · rw [receivedBytes_concat, hreceived]
            rfl
      | sendRaises d =>
          simp only [step, Option.ite_none_right_eq_some, Option.some.injEq] at hstep
          obtain ⟨hd, rfl⟩ := hstep
          refine holds_raised ?_ ?_ (by omega) (not_quiet_concat_sendRaises d)
          · rw [sentBytes_concat, ← hsent]
            exact (List.prefix_append_right_inj _).mpr hd |>.trans (List.prefix_append _ _)
          · rw [receivedBytes_concat, hreceived]
            exact List.prefix_append _ _
      | receives b | timesOut | raises => cases hstep
  | receiving result todo b =>
      obtain ⟨hsent, hreceived, hlen⟩ := h
      cases e with
      | receives b' =>
          rw [step, Option.some.injEq] at hstep
          have hsent' : sentBytes (es ++ [.receives b']) ++ todo.flatten = data.flatten := by
            rw [sentBytes_concat, SockEvent.sent, List.append_nil, hsent]
          have hreceived' : receivedBytes (es ++ [.receives b']) = result.flatten ++ (b ++ b') := by
            rw [receivedBytes_concat, hreceived, SockEvent.received, List.append_assoc]
          rw [← hstep]
          split
          · refine holds_loop hsent' ?_ ?_
            · rw [hreceived', List.flatten_append, List.flatten_singleton]
            · rw [List.length_append, List.length_singleton]
              omega
          · exact ⟨hsent', hreceived', hlen⟩
      | timesOut =>
          cases hstep
          refine holds_loop ?_ ?_ ?_
          · rw [sentBytes_concat, SockEvent.sent, List.append_nil, hsent]
          · rw [receivedBytes_concat, hreceived, SockEvent.received, List.append_nil,
              List.flatten_append, List.flatten_singleton]
          · rw [List.length_append, List.length_singleton]
            omega
      | raises =>
          cases hstep
          refine holds_raised ?_ ?_ (by omega) not_quiet_concat_raises
          · rw [sentBytes_concat, SockEvent.sent, List.append_nil, ← hsent]
            exact List.prefix_append _ _
          · rw [receivedBytes_concat, hreceived, SockEvent.received, List.append_nil]
            exact List.prefix_append _ _
      | sends d | sendRaises d => cases hstep
  | finishing result b =>
      obtain ⟨hsent, hreceived, hlen⟩ := h
      cases e with
      | receives b' =>
          rw [step, Option.some.injEq] at hstep
          have hsent' : sentBytes (es ++ [.receives b']) = data.flatten := by
            rw [sentBytes_concat, SockEvent.sent, List.append_nil, hsent]
          have hreceived' : receivedBytes (es ++ [.receives b']) = result.flatten ++ (b ++ b') := by
            rw [receivedBytes_concat, hreceived, SockEvent.received, List.append_assoc]
          rw [← hstep]
          split
          · exact holds_finish hsent' hreceived' hlen
          · exact ⟨hsent', hreceived', hlen⟩
      | timesOut =>
          cases hstep
          refine holds_finish ?_ ?_ hlen
          · rw [sentBytes_concat, SockEvent.sent, List.append_nil, hsent]
          · rw [receivedBytes_concat, hreceived, SockEvent.received, List.append_nil]
      | raises =>
          cases hstep
          refine holds_raised ?_ ?_ (by omega) not_quiet_concat_raises
          · rw [sentBytes_concat, SockEvent.sent, List.append_nil, hsent]
          · rw [receivedBytes_concat, hreceived, SockEvent.received, List.append_nil]
            exact List.prefix_append _ _
      | sends d | sendRaises d => cases hstep
  | returned result => cases e <;> cases hstep

/-- **What holds of the client** after any events. -/
theorem holds_run {c : Client} (h : client.run (loop [] data) es = some c) : c.Holds data es :=
  Party.run_invariant (p := client) (I := fun es c => c.Holds data es)
    (fun _ _ _ _ hc hstep => holds_step hc hstep) (holds_loop rfl rfl (Nat.zero_add _)) h

end Client

end HttpGarden
