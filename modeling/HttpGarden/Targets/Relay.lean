import HttpGarden.Echo.Cut
import HttpGarden.Echo.Server
import HttpGarden.Http1.Stream

/-!
# HttpGarden.Targets.Relay

**What the tools make of a transducer that relays bytes**: `raw_roundtrip` at one end of a connection,
the echo server at the other, and nothing in between that changes what is sent. Both take their steps
in any order; what arrives is cut anywhere, waiting ends at any time, and calls raise exceptions.

The tools tell where requests end by the pauses of the echo server, which have nothing to do with the
requests. `relay_returns` is why that is right all the same: the portions that were echoed make up the
data, however they were cut. `relay_collects` says what is left of this where something was lost.
-/

namespace HttpGarden

open Lib Echo

/-- A connection of `raw_roundtrip` for `data` with the echo server. -/
abbrev RelayRun (data : List Bytes) (es fs : List Event) (l : Link UInt8 Client Handler) : Prop :=
  Run client handler (Client.loop [] data) (.preamble []) es fs l

/-- `Transducer.parsed_roundtrip`, for the pieces of `unparsed_roundtrip`. What is left over is only
printed. -/
def parsedRoundtrip (gunzip : Bytes → Except GzipError Bytes) (pieces : List Bytes) :
    Except PyError (List HTTPRequest) :=
  (parseRequestStream gunzip pieces.flatten).map (·.1)

variable {gunzip : Bytes → Except GzipError Bytes} {data r : List Bytes} {es fs : List Event}
  {l : Link UInt8 Client Handler}

/-! ### At any moment -/

theorem sent_prefix_data (h : RelayRun data es fs l) : sentBytes es <+: data.flatten := by
  have hholds := Client.holds_run h.conserved.1
  cases hc : l.left with
  | sending result datum todo | receiving result todo b =>
      rw [hc] at hholds
      exact ⟨_, hholds.1⟩
  | finishing result b =>
      rw [hc] at hholds
      exact hholds.1 ▸ List.prefix_rfl
  | returned result =>
      rw [hc] at hholds
      exact hholds.1

theorem received_prefix_data (h : RelayRun data es fs l) : receivedBytes fs <+: data.flatten := by
  refine List.IsPrefix.trans ?_ (sent_prefix_data h)
  rw [h.conserved.2.2.1]
  exact List.prefix_append _ _

/-- A prefix of several texts ends behind one of them or in it. -/
theorem prefix_flatMap {α β : Type} {f : α → List β} {q : List β} {cs : List α}
    (h : q <+: cs.flatMap f) :
    ∃ pre post p, cs = pre ++ post ∧ q = pre.flatMap f ++ p ∧
      (p = [] ∨ ∃ c, post.head? = some c ∧ p <+: f c) := by
  induction cs generalizing q with
  | nil => exact ⟨[], [], [], rfl, List.prefix_nil.mp h, .inl rfl⟩
  | cons c cs ih =>
      rw [List.flatMap_cons] at h
      rcases prefix_append_cases h with hq | ⟨t, rfl, ht⟩
      · exact ⟨[], c :: cs, q, rfl, rfl, .inr ⟨c, rfl, hq⟩⟩
      · obtain ⟨pre, post, p, rfl, rfl, hp⟩ := ih ht
        exact ⟨c :: pre, post, p, rfl, by rw [List.flatMap_cons, List.append_assoc], hp⟩

theorem length_le_of_flatten_prefix {bs : List Bytes} {b : Bytes} (hb : b ∈ bs)
    (h : bs.flatten <+: data.flatten) (hlen : data.flatten.length ≤ sysMaxsize) :
    b.length ≤ sysMaxsize :=
  ((List.sublist_flatten_of_mem hb).length_le.trans h.length_le).trans hlen

/-! ### What is collected -/

/-- What `unparsed_roundtrip` makes of the responses to the portions `bs` and of what has arrived
behind them, the beginning `p` of the response to the next portion: it collects the portions, and what
there is of the next one. If the head of that response is cut, the loop does not come to an end, or it
collects the head if there is nothing in front of it. -/
def CollectsPortions (gunzip : Bytes → Except GzipError Bytes) (bs : List Bytes) (next : Option Bytes)
    (p : Bytes) : Prop :=
  (p = [] ∧ (collectLoop gunzip).Returns (.init (bs.flatMap echoResponse ++ p)) (.ok bs)) ∨
    ∃ b, next = some b ∧
      ((∃ b', b' <+: b ∧ p = echoHead b.length ++ b' ∧
        (collectLoop gunzip).Returns (.init (bs.flatMap echoResponse ++ p)) (.ok (bs ++ [b']))) ∨
      (p ≠ [] ∧ p <+: echoHead b.length ∧ p ≠ echoHead b.length ∧ CollectsCut gunzip bs p))

/-- **Whatever happens on the way**: the client has the beginning of the responses to the portions that
the echo server has answered, which are the beginning of the data. The tools collect the portions whose
responses it has, and what it has of one more. -/
theorem relay_collects (h : RelayRun data es fs l) (hret : l.left = .returned r)
    (hpreface : ¬ H2_PREFACE <+: data.flatten) (hlen : data.flatten.length ≤ sysMaxsize) :
    roundtrip data es = some r ∧ (portions fs).flatten <+: data.flatten ∧
      ∃ bs rest p, portions fs = bs ++ rest ∧ r.flatten = bs.flatMap echoResponse ++ p ∧
        CollectsPortions gunzip bs rest.head? p := by
  obtain ⟨hrun, hserver, -, hback⟩ := h.conserved
  have hholds := Client.holds_run hrun
  rw [hret] at hrun hholds
  have hforth := received_prefix_data h
  obtain ⟨hportions, hsent, -⟩ := Handler.portions_run hserver fun hp => hpreface (hp.trans hforth)
  have hdata := hportions.trans hforth
  refine ⟨roundtrip_of_run hrun, hdata, ?_⟩
  have hreceived : receivedBytes es <+: sentBytes fs := by
    rw [hback]
    exact List.prefix_append _ _
  -- the result ends somewhere in the responses
  obtain ⟨bs, rest, p, hsplit, hr, hp⟩ :=
    prefix_flatMap ((hholds.2.1.trans hreceived).trans hsent)
  have hsmall : ∀ a ∈ bs ++ rest, a.length ≤ sysMaxsize :=
    fun a ha => length_le_of_flatten_prefix ha (hsplit ▸ hdata) hlen
  have hbs : ∀ a ∈ bs, a.length ≤ sysMaxsize := fun a ha => hsmall a (List.mem_append_left rest ha)
  refine ⟨bs, rest, p, hsplit, hr, ?_⟩
  rcases hp with rfl | ⟨b, hb, hp⟩
  · refine .inl ⟨rfl, ?_⟩
    rw [List.append_nil]
    exact collectLoop_echoResponses_from hbs rfl
  · have hmem : b ∈ rest := List.mem_of_mem_head? hb
    rcases collectLoop_cut hbs (hsmall b (List.mem_append_right bs hmem)) hp with hall | hnext
    · exact .inl hall
    · exact .inr ⟨b, hb, hnext⟩

/-- Nothing is on the way, and the echo server waits for more or has closed the connection. -/
structure AtRest (l : Link UInt8 Client Handler) : Prop where
  toLeft : l.toLeft = []
  toRight : l.toRight = []
  server : l.right = .receiving [] ∨ l.right = .closed

/-- **A transducer that relays bytes** is found to do so: if no call raised anything but a timeout and
nothing is on the way any more, the tools collect pieces of what they sent, and report the requests
that this consists of. -/
theorem relay_returns (h : RelayRun data es fs l) (hret : l.left = .returned r)
    (hlen : data.flatten.length ≤ sysMaxsize) (hes : Quiet es) (hfs : Quiet fs) (hrest : AtRest l) :
    ∃ pieces, (collectLoop gunzip).Returns (.init r.flatten) (.ok pieces) ∧
      pieces.flatten = data.flatten ∧ parsedRoundtrip gunzip pieces = parsedRoundtrip gunzip data := by
  obtain ⟨hrun, hserver, hforth, hback⟩ := h.conserved
  have hholds := Client.holds_run hrun
  rw [hret] at hholds
  obtain ⟨hsent, hresult⟩ := hholds.2.2.2 hes
  rw [hrest.toLeft, List.append_nil] at hback
  rw [hrest.toRight, List.append_nil, hsent] at hforth
  have hserves := Handler.serves_run hserver
  -- everything has been answered
  obtain ⟨hreceived, hresponses⟩ : receivedBytes fs = (portions fs).flatten ∧
      sentBytes fs = (portions fs).flatMap echoResponse := by
    rcases hrest.server with hc | hc
    · rw [hc] at hserves
      exact ⟨hserves.1.trans (List.append_nil _), hserves.2.1⟩
    · rw [hc] at hserves
      exact hserves.2.2.1 hfs
  have hpieces : (portions fs).flatten = data.flatten := hreceived.symm.trans hforth.symm
  refine ⟨portions fs, ?_, hpieces, by rw [parsedRoundtrip, parsedRoundtrip, hpieces]⟩
  rw [hresult, ← hback, hresponses]
  exact collectLoop_echoResponses_from
    (fun b hb => length_le_of_flatten_prefix hb (hpieces ▸ List.prefix_rfl) hlen) rfl

/-! ### A run -/

/-- A request, sent at once, that arrives in two pieces. -/
def relayed1 : Bytes := bytes "GET / "

def relayed2 : Bytes := bytes "HTTP/1.1\r\n\r\n"

/-- The events at the client until it waits for the second response. -/
def clientEvents : List Event :=
  [.sends (relayed1 ++ relayed2), .receives (echoResponse relayed1), .timesOut]

/-- The events at the echo server, which answers the two pieces one after the other. -/
def serverEvents : List Event :=
  [.receives relayed1, .timesOut, .sends (echoResponse relayed1), .receives relayed2, .timesOut,
    .sends (echoResponse relayed2)]

theorem relayRun_pieces : RelayRun [relayed1 ++ relayed2] clientEvents serverEvents
    ⟨.finishing [echoResponse relayed1] [], .receiving [], echoResponse relayed2, []⟩ := by
  have hne : relayed1 ≠ [] ∧ relayed2 ≠ [] ∧ echoResponse relayed1 ≠ [] := by
    simp [relayed1, relayed2, echoResponse, bytes]
  have hlen : relayed1.length ≤ recvSize ∧ relayed2.length ≤ recvSize ∧
      (echoResponse relayed1).length ≤ recvSize := by
    decide
  have hsent : RelayRun [relayed1 ++ relayed2] [.sends (relayed1 ++ relayed2)] []
      ⟨.receiving [] [] [], .preamble [], [], relayed1 ++ relayed2⟩ :=
    .left .start (Client.step_sends [] (relayed1 ++ relayed2) []) (.sends (relayed1 ++ relayed2) [] [])
  have harrived : RelayRun [relayed1 ++ relayed2] [.sends (relayed1 ++ relayed2)]
      [.receives relayed1, .timesOut] ⟨.receiving [] [] [], .responding relayed1, [], relayed2⟩ :=
    .right (.right hsent rfl (.receives relayed2 [] hne.1 hlen.1)) rfl (.timesOut relayed2 [])
  have hanswered : RelayRun [relayed1 ++ relayed2] [.sends (relayed1 ++ relayed2)]
      [.receives relayed1, .timesOut, .sends (echoResponse relayed1)]
      ⟨.receiving [] [] [], .receiving [], echoResponse relayed1, relayed2⟩ :=
    .right harrived (Handler.step_sends relayed1) (.sends (echoResponse relayed1) relayed2 [])
  have hpaused : RelayRun [relayed1 ++ relayed2] clientEvents
      [.receives relayed1, .timesOut, .sends (echoResponse relayed1)]
      ⟨.finishing [echoResponse relayed1] [], .receiving [], [], relayed2⟩ :=
    .left (.left hanswered rfl (.receives_all hne.2.2 hlen.2.2 relayed2)) rfl (.timesOut [] relayed2)
  have hwaited : RelayRun [relayed1 ++ relayed2] clientEvents
      [.receives relayed1, .timesOut, .sends (echoResponse relayed1), .receives relayed2, .timesOut]
      ⟨.finishing [echoResponse relayed1] [], .responding relayed2, [], []⟩ :=
    .right (.right hpaused rfl (.receives_all hne.2.1 hlen.2.1 [])) rfl (.timesOut [] [])
  exact .right hwaited (Handler.step_sends relayed2) (.sends (echoResponse relayed2) [] [])

/-- What arrives of the second response, if the client stops waiting in the middle of its body. -/
def cutResponse : Bytes := (echoResponse relayed2).take 105

theorem relayRun_cut : RelayRun [relayed1 ++ relayed2]
    (clientEvents ++ [.receives cutResponse] ++ [.timesOut]) serverEvents
    ⟨.returned [echoResponse relayed1, cutResponse], .receiving [], (echoResponse relayed2).drop 105,
      []⟩ := by
  have hwhole : 105 ≤ (echoResponse relayed2).length := by decide
  have hlength : cutResponse.length = 105 := List.length_take_of_le hwhole
  have hmove : Transfers recvSize False (.receives cutResponse) (echoResponse relayed2) []
      ((echoResponse relayed2).drop 105) [] := by
    have h : Transfers recvSize False (.receives cutResponse)
        (cutResponse ++ (echoResponse relayed2).drop 105) [] ((echoResponse relayed2).drop 105) [] :=
      .receives _ [] (List.ne_nil_of_length_pos (hlength ▸ Nat.succ_pos 104))
        (hlength.trans_le (by decide))
    rwa [cutResponse, List.take_append_drop] at h
  exact .left (.left relayRun_pieces rfl hmove) rfl (.timesOut _ [])

theorem relayRun_whole : RelayRun [relayed1 ++ relayed2]
    (clientEvents ++ [.receives (echoResponse relayed2)] ++ [.timesOut]) serverEvents
    ⟨.returned [echoResponse relayed1, echoResponse relayed2], .receiving [], [], []⟩ := by
  have hne : echoResponse relayed2 ≠ [] := by simp [relayed2, echoResponse, bytes]
  exact .left (.left relayRun_pieces rfl (.receives_all hne (by decide) [])) rfl (.timesOut [] [])

theorem relay_collects_relayed :
    roundtrip [relayed1 ++ relayed2] (clientEvents ++ [.receives cutResponse] ++ [.timesOut]) =
        some [echoResponse relayed1, cutResponse] ∧
      (portions serverEvents).flatten <+: [relayed1 ++ relayed2].flatten ∧
      ∃ bs rest p, portions serverEvents = bs ++ rest ∧
        [echoResponse relayed1, cutResponse].flatten = bs.flatMap echoResponse ++ p ∧
        CollectsPortions (fun _ => .error .badGzipFile) bs rest.head? p :=
  relay_collects relayRun_cut rfl (by decide) (by decide)

theorem relay_returns_relayed :
    ∃ pieces, (collectLoop fun _ => .error .badGzipFile).Returns
        (.init [echoResponse relayed1, echoResponse relayed2].flatten) (.ok pieces) ∧
      pieces.flatten = [relayed1 ++ relayed2].flatten ∧
      parsedRoundtrip (fun _ => .error .badGzipFile) pieces =
        parsedRoundtrip (fun _ => .error .badGzipFile) [relayed1 ++ relayed2] :=
  relay_returns relayRun_whole rfl (by decide) (by simp [Quiet, clientEvents])
    (by simp [Quiet, serverEvents]) ⟨rfl, rfl, .inl rfl⟩

end HttpGarden
