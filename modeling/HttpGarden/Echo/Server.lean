import HttpGarden.Echo.H2
import HttpGarden.Sockets

/-!
# HttpGarden.Echo.Server

`echo_server.py`: **`handle_connection` call by call**, for a connection that is not HTTP/2.

`recvall` returns what has come by the time of a pause, so a connection is answered in `portions` that
the pauses make, whatever is in them. `serves_run` says what has been received and sent at any moment,
and `sent_prefix_handleH1Connection` that these are the responses of `handle_h1_connection`.
-/

namespace HttpGarden.Echo

open Lib

/-- Where a connection is: in the first `recvall`, in front of the `sendall` of a response, or in a
later `recvall`. `handle_h2_connection` may have taken over; and the connection is closed in the end,
also where an exception leaves the thread. -/
inductive Handler
  | preamble (b : Bytes)
  | responding (bytesRecved : Bytes)
  | receiving (b : Bytes)
  | http2 (bytesRecved : Bytes)
  | closed
  deriving Repr, DecidableEq

namespace Handler

/-- What `handle_connection` calls for the preamble. -/
def dispatch (preamble : Bytes) : Handler :=
  if H2_PREFACE <+: preamble then http2 (preamble.drop H2_PREFACE.length) else responding preamble

/-- The end of the loop of `handle_h1_connection`. -/
def next (bytesRecved : Bytes) : Handler := if bytesRecved = [] then closed else responding bytesRecved

/-- What comes after an event. -/
def step : Handler → Event → Option Handler
  | preamble b, .receives b' =>
    some (if b'.length = 0 then dispatch (b ++ b') else preamble (b ++ b'))
  | preamble b, .timesOut => some (dispatch b)
  | preamble _, .raises => some closed
  | responding b, .sends d => if d = echoResponse b then some (receiving []) else none
  | responding b, .sendRaises d => if d <+: echoResponse b then some closed else none
  | receiving b, .receives b' =>
    some (if b'.length = 0 then next (b ++ b') else receiving (b ++ b'))
  | receiving b, .timesOut => some (next b)
  | receiving _, .raises => some closed
  | _, _ => none

theorem step_sends (b : Bytes) :
    (responding b).step (.sends (echoResponse b)) = some (receiving []) :=
  if_pos rfl

def Closed : Handler → Prop
  | closed => True
  | _ => False

end Handler

/-- The echo server as a party. -/
def handler : Party UInt8 Handler := ⟨Handler.step, recvSize, Handler.Closed⟩

/-! ### Portions -/

namespace Handler

/-- What an event answers. An exception may cut the response. -/
def portion : Handler → Event → List Bytes
  | responding b, .sends _ | responding b, .sendRaises _ => [b]
  | _, _ => []

def portionsFrom (h : Handler) : List Event → List Bytes
  | [] => []
  | e :: es => h.portion e ++ (h.step e).elim [] fun h' => h'.portionsFrom es

theorem portionsFrom_concat {h h' : Handler} {es : List Event} (hrun : handler.run h es = some h')
    (e : Event) : h.portionsFrom (es ++ [e]) = h.portionsFrom es ++ h'.portion e := by
  induction es generalizing h with
  | nil =>
      cases hrun
      rw [List.nil_append, portionsFrom, portionsFrom, List.nil_append]
      cases h'.step e with
      | none => exact List.append_nil _
      | some _ => exact List.append_nil _
  | cons e' es ih =>
      obtain ⟨h₁, hstep, hrest⟩ := Option.bind_eq_some_iff.mp hrun
      have hstep : h.step e' = some h₁ := hstep
      rw [List.cons_append, portionsFrom, portionsFrom, hstep, Option.elim_some, Option.elim_some,
        ih hrest, List.append_assoc]

end Handler

/-- The portions that the server has answered on a connection: what its calls of `recvall` have
returned. The last response may have been cut by an exception. -/
def portions (es : List Event) : List Bytes := (Handler.preamble []).portionsFrom es

/-- What a connection has done when the portions `bs` have been answered. -/
def Handler.Serves (es : List Event) (bs : List Bytes) : Handler → Prop
  | preamble b => bs = [] ∧ receivedBytes es = b ∧ sentBytes es = []
  | responding b =>
    receivedBytes es = bs.flatten ++ b ∧ sentBytes es = bs.flatMap echoResponse ∧
      (bs ≠ [] → b ≠ []) ∧ ∀ b ∈ bs.tail, b ≠ []
  | receiving b =>
    receivedBytes es = bs.flatten ++ b ∧ sentBytes es = bs.flatMap echoResponse ∧ bs ≠ [] ∧
      ∀ b ∈ bs.tail, b ≠ []
  | http2 b => receivedBytes es = H2_PREFACE ++ b
  | closed =>
    bs.flatten <+: receivedBytes es ∧ sentBytes es <+: bs.flatMap echoResponse ∧
      (Quiet es → receivedBytes es = bs.flatten ∧ sentBytes es = bs.flatMap echoResponse) ∧
      ∀ b ∈ bs.tail, b ≠ []

namespace Handler

variable {es : List Event} {bs : List Bytes}

theorem serves_dispatch {b : Bytes} (hreceived : receivedBytes es = b) (hsent : sentBytes es = []) :
    (dispatch b).Serves es [] := by
  unfold dispatch
  split
  · rename_i hpreface
    obtain ⟨rest, rfl⟩ := hpreface
    rw [List.drop_left]
    exact hreceived
  · exact ⟨hreceived, hsent, fun h => absurd rfl h, by simp⟩

theorem serves_next {b : Bytes} (hreceived : receivedBytes es = bs.flatten ++ b)
    (hsent : sentBytes es = bs.flatMap echoResponse) (htail : ∀ b ∈ bs.tail, b ≠ []) :
    (next b).Serves es bs := by
  unfold next
  split
  · rename_i hb
    rw [hb, List.append_nil] at hreceived
    exact ⟨hreceived ▸ List.prefix_rfl, hsent ▸ List.prefix_rfl, fun _ => ⟨hreceived, hsent⟩, htail⟩
  · rename_i hb
    exact ⟨hreceived, hsent, fun _ => hb, htail⟩

/-- An exception ends the connection, after what has been answered. -/
theorem serves_raised {b : Bytes} (hreceived : receivedBytes es = bs.flatten ++ b)
    (hsent : sentBytes es = bs.flatMap echoResponse) (htail : ∀ b ∈ bs.tail, b ≠ []) :
    closed.Serves (es ++ [.raises]) bs := by
  refine ⟨?_, ?_, fun hquiet => absurd hquiet Client.not_quiet_concat_raises, htail⟩
  · rw [receivedBytes_concat, hreceived, SockEvent.received, List.append_nil]
    exact List.prefix_append _ _
  · rw [sentBytes_concat, hsent, SockEvent.sent, List.append_nil]

/-- Behind the first portion there are no empty ones. -/
theorem forall_tail_concat {b : Bytes} (hb : bs ≠ [] → b ≠ []) (htail : ∀ b ∈ bs.tail, b ≠ []) :
    ∀ x ∈ (bs ++ [b]).tail, x ≠ [] := by
  cases bs with
  | nil => simp
  | cons a bs =>
      intro x hx
      rw [List.cons_append, List.tail_cons, List.mem_append, List.mem_singleton] at hx
      rcases hx with hx | rfl
      · exact htail x hx
      · exact hb (List.cons_ne_nil _ _)

/-- What one event keeps. -/
theorem serves_step {h h' : Handler} {e : Event} (hserves : h.Serves es bs)
    (hstep : h.step e = some h') : h'.Serves (es ++ [e]) (bs ++ h.portion e) := by
  cases h with
  | preamble b =>
      obtain ⟨rfl, hreceived, hsent⟩ := hserves
      cases e with
      | receives b' =>
          rw [step, Option.some.injEq] at hstep
          have hreceived' : receivedBytes (es ++ [.receives b']) = b ++ b' := by
            rw [receivedBytes_concat, hreceived, SockEvent.received]
          have hsent' : sentBytes (es ++ [.receives b']) = [] := by
            rw [sentBytes_concat, hsent, SockEvent.sent, List.append_nil]
          rw [← hstep]
          split
          · exact serves_dispatch hreceived' hsent'
          · exact ⟨rfl, hreceived', hsent'⟩
      | timesOut =>
          cases hstep
          refine serves_dispatch ?_ ?_
          · rw [receivedBytes_concat, hreceived, SockEvent.received, List.append_nil]
          · rw [sentBytes_concat, hsent, SockEvent.sent, List.append_nil]
      | raises =>
          cases hstep
          have hraised : closed.Serves (es ++ [.raises]) [] := serves_raised hreceived hsent (by simp)
          exact hraised
      | sends d | sendRaises d => cases hstep
  | responding b =>
      obtain ⟨hreceived, hsent, hb, htail⟩ := hserves
      cases e with
      | sends d =>
          simp only [step, Option.ite_none_right_eq_some, Option.some.injEq] at hstep
          obtain ⟨rfl, rfl⟩ := hstep
          refine ⟨?_, ?_, by simp [portion], forall_tail_concat hb htail⟩
          · rw [receivedBytes_concat, hreceived, SockEvent.received, portion, List.flatten_append,
              List.flatten_singleton]
          · rw [sentBytes_concat, hsent, SockEvent.sent, portion, List.flatMap_append,
              List.flatMap_singleton]
      | sendRaises d =>
          simp only [step, Option.ite_none_right_eq_some, Option.some.injEq] at hstep
          obtain ⟨hd, rfl⟩ := hstep
          refine ⟨?_, ?_, fun hquiet => absurd hquiet (Client.not_quiet_concat_sendRaises d),
            forall_tail_concat hb htail⟩
          · rw [receivedBytes_concat, hreceived, SockEvent.received, List.append_nil, portion,
              List.flatten_append, List.flatten_singleton]
          · rw [sentBytes_concat, hsent, SockEvent.sent, portion, List.flatMap_append,
              List.flatMap_singleton]
            exact (List.prefix_append_right_inj _).mpr hd
      | receives b | timesOut | raises => cases hstep
  | receiving b =>
      obtain ⟨hreceived, hsent, hbs, htail⟩ := hserves
      have hportion : bs ++ (receiving b).portion e = bs := by
        cases e <;> exact List.append_nil bs
      rw [hportion]
      cases e with
      | receives b' =>
          rw [step, Option.some.injEq] at hstep
          have hreceived' : receivedBytes (es ++ [.receives b']) = bs.flatten ++ (b ++ b') := by
            rw [receivedBytes_concat, hreceived, SockEvent.received, List.append_assoc]
          have hsent' : sentBytes (es ++ [.receives b']) = bs.flatMap echoResponse := by
            rw [sentBytes_concat, hsent, SockEvent.sent, List.append_nil]
          rw [← hstep]
          split
          · exact serves_next hreceived' hsent' htail
          · exact ⟨hreceived', hsent', hbs, htail⟩
      | timesOut =>
          cases hstep
          refine serves_next ?_ ?_ htail
          · rw [receivedBytes_concat, hreceived, SockEvent.received, List.append_nil]
          · rw [sentBytes_concat, hsent, SockEvent.sent, List.append_nil]
      | raises =>
          cases hstep
          exact serves_raised hreceived hsent htail
      | sends d | sendRaises d => cases hstep
  | http2 b => cases e <;> cases hstep
  | closed => cases e <;> cases hstep

/-- **What a connection has done** after any events: it has answered portions of what it has
received, in order. -/
theorem serves_run {h : Handler} (hrun : handler.run (preamble []) es = some h) :
    h.Serves es (portions es) := by
  refine (Party.run_invariant (p := handler)
    (I := fun es h => handler.run (preamble []) es = some h ∧ h.Serves es (portions es))
    (fun es h e h' hserves hstep => ?_) ⟨rfl, rfl, rfl, rfl⟩ hrun).2
  refine ⟨Party.run_concat.mpr ⟨h, hserves.1, hstep⟩, ?_⟩
  rw [portions, portionsFrom_concat hserves.1]
  exact serves_step hserves.2 hstep

/-- At any moment the portions are the beginning of what has been received, and what has been sent is
the beginning of the responses to them. Only the first portion can be empty. -/
theorem portions_run {h : Handler} (hrun : handler.run (preamble []) es = some h)
    (hpreface : ¬ H2_PREFACE <+: receivedBytes es) :
    (portions es).flatten <+: receivedBytes es ∧ sentBytes es <+: (portions es).flatMap echoResponse ∧
      ∀ b ∈ (portions es).tail, b ≠ [] := by
  have hserves := serves_run hrun
  have hall {b : Bytes} {bs : List Bytes} (hreceived : receivedBytes es = bs.flatten ++ b)
      (hsent : sentBytes es = bs.flatMap echoResponse) (htail : ∀ b ∈ bs.tail, b ≠ []) :
      bs.flatten <+: receivedBytes es ∧ sentBytes es <+: bs.flatMap echoResponse ∧
        ∀ b ∈ bs.tail, b ≠ [] :=
    ⟨hreceived ▸ List.prefix_append _ _, hsent ▸ List.prefix_rfl, htail⟩
  cases h with
  | preamble b =>
      obtain ⟨hbs, -, hsent⟩ := hserves
      rw [hbs, hsent]
      exact ⟨List.nil_prefix, List.nil_prefix, by simp⟩
  | responding b | receiving b => exact hall hserves.1 hserves.2.1 hserves.2.2.2
  | http2 b => exact absurd ((show receivedBytes es = _ from hserves) ▸ List.prefix_append _ b) hpreface
  | closed => exact ⟨hserves.1, hserves.2.1, hserves.2.2.2⟩

/-- The responses are those of `handle_h1_connection`, as long as it goes on. -/
theorem flatMap_echoResponse_eq {preamble : Bytes} {bs : List Bytes} (h : ∀ b ∈ bs, b ≠ []) :
    (preamble :: bs).flatMap echoResponse =
      (handleH1Connection preamble (bs.map .recvs)).flatten := by
  have hanswered (preamble : Bytes) : answered preamble (bs.map .recvs) = preamble :: bs := by
    induction bs generalizing preamble with
    | nil => rfl
    | cons b bs ih =>
        obtain ⟨hb, hbs⟩ := List.forall_mem_cons.mp h
        rw [List.map_cons, answered, if_neg hb, ih hbs]
  rw [handleH1Connection_eq, hanswered, List.flatMap_def]

/-- **What is sent on a connection** is the beginning of what `handle_h1_connection` sends when its
calls of `recvall` return the portions. -/
theorem sent_prefix_handleH1Connection {h : Handler} (hrun : handler.run (preamble []) es = some h)
    (hpreface : ¬ H2_PREFACE <+: receivedBytes es) {preamble : Bytes} {bs : List Bytes}
    (hbs : portions es = preamble :: bs) :
    sentBytes es <+: (handleH1Connection preamble (bs.map .recvs)).flatten := by
  obtain ⟨-, hsent, htail⟩ := portions_run hrun hpreface
  rw [hbs, List.tail_cons] at htail
  rw [← flatMap_echoResponse_eq htail, ← hbs]
  exact hsent

end Handler

end HttpGarden.Echo
