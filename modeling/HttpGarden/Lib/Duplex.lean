import Mathlib.Tactic

/-!
# HttpGarden.Lib.Duplex

**Two parties and the streams between them.** What one party sends arrives at the other in order, cut
anywhere, at any time. A party is a machine that takes what its calls come to; any call may time out
or raise an exception, and one that sends may do so half-way.

* `Run`: the two parties take steps in any order.
* `Run.conserved`: at every moment what one party has sent is what the other has received and what is
  on the way; and each party has made its own run, of which the other is no part.
-/

namespace HttpGarden.Lib

variable {β σ τ : Type}

/-- What a call on a socket comes to. -/
inductive SockEvent (β : Type)
  /-- All of `d` is sent. -/
  | sends (d : List β)
  /-- An exception, with `d` sent before it. -/
  | sendRaises (d : List β)
  /-- `d` is received; nothing at the end of the stream. -/
  | receives (d : List β)
  | timesOut
  | raises
  deriving Repr, DecidableEq

namespace SockEvent

def sent : SockEvent β → List β
  | sends d | sendRaises d => d
  | receives _ | timesOut | raises => []

def received : SockEvent β → List β
  | receives d => d
  | sends _ | sendRaises _ | timesOut | raises => []

end SockEvent

/-- A machine, the most that it receives at once, and when it has closed its socket. -/
structure Party (β σ : Type) where
  step : σ → SockEvent β → Option σ
  limit : Nat
  closed : σ → Prop

namespace Party

/-- One event after the other. -/
def run (p : Party β σ) (s : σ) (es : List (SockEvent β)) : Option σ := es.foldlM p.step s

variable {p : Party β σ}

@[simp] theorem run_nil (s : σ) : p.run s [] = some s := rfl

theorem run_concat {s s' : σ} {es : List (SockEvent β)} {e : SockEvent β} :
    p.run s (es ++ [e]) = some s' ↔ ∃ s₁, p.run s es = some s₁ ∧ p.step s₁ e = some s' := by
  simp only [run, List.foldlM_append, List.foldlM_cons, List.foldlM_nil, Option.bind_eq_bind,
    bind_pure, Option.bind_eq_some_iff]

/-- **An invariant that speaks of the events so far.** -/
theorem run_invariant {I : List (SockEvent β) → σ → Prop}
    (hstep : ∀ es s e s', I es s → p.step s e = some s' → I (es ++ [e]) s') {s s' : σ}
    {es : List (SockEvent β)} (h : I [] s) (hrun : p.run s es = some s') : I es s' := by
  induction es using List.reverseRecOn generalizing s' with
  | nil =>
      cases hrun
      exact h
  | append_singleton es e ih =>
      obtain ⟨s₁, hes, he⟩ := run_concat.mp hrun
      exact hstep es s₁ e s' (ih hes) he

end Party

def sentBytes (es : List (SockEvent β)) : List β := es.flatMap SockEvent.sent

def receivedBytes (es : List (SockEvent β)) : List β := es.flatMap SockEvent.received

@[simp] theorem sentBytes_nil : sentBytes ([] : List (SockEvent β)) = [] := rfl

@[simp] theorem receivedBytes_nil : receivedBytes ([] : List (SockEvent β)) = [] := rfl

@[simp] theorem sentBytes_concat (es : List (SockEvent β)) (e : SockEvent β) :
    sentBytes (es ++ [e]) = sentBytes es ++ e.sent := by
  rw [sentBytes, List.flatMap_append, List.flatMap_singleton]
  rfl

@[simp] theorem receivedBytes_concat (es : List (SockEvent β)) (e : SockEvent β) :
    receivedBytes (es ++ [e]) = receivedBytes es ++ e.received := by
  rw [receivedBytes, List.flatMap_append, List.flatMap_singleton]
  rfl

/-- What an event does to the stream that a party reads from and to the one that it writes to. At the
end of the stream is what a peer sent that has closed its socket. -/
inductive Transfers (limit : Nat) (peerClosed : Prop) :
    SockEvent β → List β → List β → List β → List β → Prop
  | sends (d i o : List β) : Transfers limit peerClosed (.sends d) i o i (o ++ d)
  | sendRaises (d i o : List β) : Transfers limit peerClosed (.sendRaises d) i o i (o ++ d)
  | receives {d : List β} (i o : List β) (hd : d ≠ []) (hlen : d.length ≤ limit) :
      Transfers limit peerClosed (.receives d) (d ++ i) o i o
  | ends (o : List β) (h : peerClosed) : Transfers limit peerClosed (.receives []) [] o [] o
  | timesOut (i o : List β) : Transfers limit peerClosed .timesOut i o i o
  | raises (i o : List β) : Transfers limit peerClosed .raises i o i o

/-- All that is on the way is received at once. -/
theorem Transfers.receives_all {limit : Nat} {peerClosed : Prop} {d : List β} (hd : d ≠ [])
    (hlen : d.length ≤ limit) (o : List β) : Transfers limit peerClosed (.receives d) d o [] o := by
  have h : Transfers limit peerClosed (.receives d) (d ++ []) o [] o := .receives [] o hd hlen
  rwa [List.append_nil] at h

/-- Nothing is lost and nothing comes in between. -/
theorem Transfers.conserved {limit : Nat} {peerClosed : Prop} {e : SockEvent β}
    {i o i' o' : List β} (h : Transfers limit peerClosed e i o i' o') :
    i = e.received ++ i' ∧ o' = o ++ e.sent := by
  cases h <;> simp [SockEvent.received, SockEvent.sent]

/-- Both parties, and what is on the way. -/
structure Link (β σ τ : Type) where
  left : σ
  right : τ
  toLeft : List β
  toRight : List β

/-- The runs of a link, with the events at the left and at the right. -/
inductive Run (p : Party β σ) (q : Party β τ) (s : σ) (t : τ) :
    List (SockEvent β) → List (SockEvent β) → Link β σ τ → Prop
  | start : Run p q s t [] [] ⟨s, t, [], []⟩
  | left {es fs : List (SockEvent β)} {l : Link β σ τ} {e : SockEvent β} {s' : σ} {i o : List β}
      (h : Run p q s t es fs l) (hstep : p.step l.left e = some s')
      (hmove : Transfers p.limit (q.closed l.right) e l.toLeft l.toRight i o) :
      Run p q s t (es ++ [e]) fs ⟨s', l.right, i, o⟩
  | right {es fs : List (SockEvent β)} {l : Link β σ τ} {e : SockEvent β} {t' : τ} {i o : List β}
      (h : Run p q s t es fs l) (hstep : q.step l.right e = some t')
      (hmove : Transfers q.limit (p.closed l.left) e l.toRight l.toLeft i o) :
      Run p q s t es (fs ++ [e]) ⟨l.left, t', o, i⟩

variable {p : Party β σ} {q : Party β τ} {s : σ} {t : τ} {es fs : List (SockEvent β)}
  {l : Link β σ τ}

/-- **At every moment**: each party has made its own run, and what it has sent is what the other one
has received, and what is on the way behind that. -/
theorem Run.conserved (h : Run p q s t es fs l) :
    p.run s es = some l.left ∧ q.run t fs = some l.right ∧
      sentBytes es = receivedBytes fs ++ l.toRight ∧ sentBytes fs = receivedBytes es ++ l.toLeft := by
  induction h with
  | start => exact ⟨rfl, rfl, rfl, rfl⟩
  | left _ hstep hmove ih =>
      obtain ⟨hp, hq, hright, hleft⟩ := ih
      obtain ⟨hi, ho⟩ := hmove.conserved
      refine ⟨Party.run_concat.mpr ⟨_, hp, hstep⟩, hq, ?_, ?_⟩
      · rw [sentBytes_concat, hright, ho, List.append_assoc]
      · rw [receivedBytes_concat, hleft, hi, List.append_assoc]
  | right _ hstep hmove ih =>
      obtain ⟨hp, hq, hright, hleft⟩ := ih
      obtain ⟨hi, ho⟩ := hmove.conserved
      refine ⟨hp, Party.run_concat.mpr ⟨_, hq, hstep⟩, ?_, ?_⟩
      · rw [receivedBytes_concat, hright, hi, List.append_assoc]
      · rw [sentBytes_concat, hleft, ho, List.append_assoc]

end HttpGarden.Lib
