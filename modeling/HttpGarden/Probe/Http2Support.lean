import HttpGarden.Hpack.Field
import HttpGarden.Http2.Framing
import HttpGarden.Http2.Types
import HttpGarden.Text

/-!
# HttpGarden.Probe.Http2Support

Does a server **speak HTTP/2**? `probe_quirks.py` sends it a preface, its settings and one request,
and says yes if the bytes that come back can be taken apart into frames.

No bytes at all can be taken apart into no frames. `allowsHttp2_right_iff` says that this is the
only reply the probe is wrong about.
-/

namespace HttpGarden.Http2

open Hpack Lib

/-! ### The probe -/

/-- A server as it is asked for what it answers. -/
structure UnparsedServer (ε : Type) where
  address : String
  unparsedRoundtrip : List Bytes → Except ε (List Bytes)

/-- How the probe fails: by an exception of the tools, or of the roundtrip. -/
inductive Http2ProbeError (ε : Type)
  | tools (e : PyError)
  | roundtrip (e : ε)
  deriving Repr, DecidableEq

/-- One header field of the request. -/
def probeField (key val : Bytes) : HPACKField :=
  .literal { data := key } { data := val } .verbatim

/-- The two pieces that are sent. -/
def http2Probe (address : String) : Except PyError (List Bytes) := do
  let authority ← match encodeLatin1 (codePoints address) with
    | some authority => .ok authority
    | none => .error (.valueError "'latin-1' codec can't encode characters: ordinal not in range(256)")
  let settings ← H2SettingsFrame.new false []
  let ack ← H2SettingsFrame.new true []
  let fragment ← joinFields
    [probeField (bytes ":method") (bytes "GET"), probeField (bytes ":scheme") (bytes "http"),
      probeField (bytes ":path") (bytes "/"), probeField (bytes ":authority") authority]
  let headers ← H2HeadersFrame.new true true 1 none none none fragment none
  return [bytes "PRI * HTTP/2.0\r\n\r\nSM\r\n\r\n" ++ (← (TypedFrame.settings settings).toBytes),
    (← (TypedFrame.settings ack).toBytes) ++ (← (TypedFrame.headers headers).toBytes)]

variable {ε : Type}

/-- `allows_http_2`. -/
def allowsHttp2 (server : UnparsedServer ε) : Except (Http2ProbeError ε) Bool :=
  match http2Probe server.address with
  | .error e => .error (.tools e)
  | .ok data =>
    match server.unparsedRoundtrip data with
    | .error e => .error (.roundtrip e)
    | .ok pieces =>
      match parseGenericFrames pieces.flatten with
      | .ok _ => .ok true
      | .error (.h2Error _) => .ok false
      | .error e => .error (.tools e)

/-! ### What it answers -/

variable {server : UnparsedServer ε} {data pieces : List Bytes}

/-- The answer to a reply: can it be taken apart into complete frames? -/
theorem allowsHttp2_eq (hdata : http2Probe server.address = .ok data)
    (hreply : server.unparsedRoundtrip data = .ok pieces) :
    (allowsHttp2 server = .ok true ∧ IsFrames pieces.flatten) ∨
      (allowsHttp2 server = .ok false ∧ ¬ IsFrames pieces.flatten) := by
  unfold allowsHttp2
  rw [hdata]
  dsimp only
  rw [hreply]
  dsimp only
  rcases parseGenericFrames_cases pieces.flatten with ⟨fs, hfs⟩ | ⟨⟨msg, hmsg⟩, hnot⟩
  · rw [parseGenericFrames_of_layouts hfs]
    exact .inl ⟨rfl, isFrames_of_layouts hfs⟩
  · rw [hmsg]
    exact .inr ⟨rfl, hnot⟩

theorem allowsHttp2_eq_true_iff (hdata : http2Probe server.address = .ok data)
    (hreply : server.unparsedRoundtrip data = .ok pieces) :
    allowsHttp2 server = .ok true ↔ IsFrames pieces.flatten := by
  rcases allowsHttp2_eq hdata hreply with ⟨heq, hframes⟩ | ⟨heq, hframes⟩
  · exact iff_of_true heq hframes
  · rw [heq]
    exact iff_of_false nofun hframes

/-- No frames are no bytes. -/
theorem isFrames_nil : IsFrames [] := ⟨[], List.forall_mem_nil _, rfl⟩

/-- **The probe is right** about every reply but the empty one: only then does it say yes without a
single frame. -/
theorem allowsHttp2_right_iff (hdata : http2Probe server.address = .ok data)
    (hreply : server.unparsedRoundtrip data = .ok pieces) :
    (allowsHttp2 server = .ok true → pieces.flatten ≠ [] ∧ IsFrames pieces.flatten) ↔
      pieces.flatten ≠ [] := by
  rw [allowsHttp2_eq_true_iff hdata hreply]
  refine ⟨fun h hnil => ?_, fun hne hframes => ⟨hne, hframes⟩⟩
  rw [hnil] at h
  exact (h isFrames_nil).1 rfl

/-- A server that answers in this way, whatever it is sent. -/
def constantServer (pieces : List Bytes) : UnparsedServer PyError := ⟨"127.0.0.1", fun _ => .ok pieces⟩

/-- What the probe sends to that address. -/
def localProbe : List Bytes := (http2Probe "127.0.0.1").toOption.getD []

theorem http2Probe_local : http2Probe "127.0.0.1" = .ok localProbe := by decide

/-- The reply of a server that does not speak HTTP/2. -/
theorem allowsHttp2_right_iff_http1 :
    http2Probe (constantServer [bytes "HTTP/1.1 400\r\n\r\n"]).address = .ok localProbe ∧
      ((allowsHttp2 (constantServer [bytes "HTTP/1.1 400\r\n\r\n"]) = .ok true →
          [bytes "HTTP/1.1 400\r\n\r\n"].flatten ≠ [] ∧
            IsFrames [bytes "HTTP/1.1 400\r\n\r\n"].flatten) ↔
        [bytes "HTTP/1.1 400\r\n\r\n"].flatten ≠ []) :=
  ⟨http2Probe_local,
    @allowsHttp2_right_iff _ (constantServer [bytes "HTTP/1.1 400\r\n\r\n"]) _ _ http2Probe_local rfl⟩

/-- A server that says nothing is recorded as one that speaks HTTP/2. -/
theorem not_allowsHttp2_right :
    ¬ ∀ (server : UnparsedServer PyError) (data pieces : List Bytes),
      http2Probe server.address = .ok data → server.unparsedRoundtrip data = .ok pieces →
      allowsHttp2 server = .ok true → pieces.flatten ≠ [] ∧ IsFrames pieces.flatten := by
  intro h
  have hyes : allowsHttp2 (constantServer []) = .ok true := by decide +kernel
  exact (h (constantServer []) localProbe [] http2Probe_local rfl hyes).1 rfl

end HttpGarden.Http2
