import HttpGarden.Python

/-!
# HttpGarden.Http2.Frame

`http2.py`: the **generic framing layer**. Frames of any type are taken off an
iterator of bytes and written back, nine header bytes and the payload.

A generic frame is a structure whose last field is the check that the source
makes in `__post_init__`, so every value of the type has passed it.
-/

namespace HttpGarden.Http2

open Lib Lib.Reader

/-! ### Reading -/

/-- `next(inp)` -/
abbrev nextByte : Reader UInt8 PyError UInt8 := next .stopIteration

/-- Exactly `length` bytes of an iterator. -/
def bslice (length : Int) : Reader UInt8 PyError Bytes := do
  if length < 0 then throw .assertionError
  let result ← islice length.toNat
  if result.length ≠ length.toNat then
    throw (.h2Error ("Not enough data in iterator! Got " ++ reprBytes result))
  return result

theorem bslice_eq_ok {n : Int} {s t s' : Bytes} :
    bslice n s = .ok (t, s') ↔ n = t.length ∧ t.length ≤ sysMaxsize ∧ s = t ++ s' := by
  by_cases hneg : n < 0
  · have hne : n ≠ t.length := by omega
    simp [bslice, hneg, hne]
  · simp only [bslice, hneg, if_false]
    constructor
    · intro h
      obtain ⟨t₁, s₁, h₁, h₂⟩ := bind_ok.mp h
      obtain ⟨hmax, rfl, rfl⟩ := islice_eq_ok.mp h₁
      by_cases hl : (s.take n.toNat).length ≠ n.toNat
      · rw [if_pos hl] at h₂
        cases h₂
      · rw [if_neg hl] at h₂
        simp only [pure_apply, Except.ok.injEq, Prod.mk.injEq] at h₂
        obtain ⟨rfl, rfl⟩ := h₂
        exact ⟨by omega, by omega, (List.take_append_drop _ s).symm⟩
    · rintro ⟨rfl, hmax, rfl⟩
      refine bind_ok.mpr ⟨t, s', ?_, ?_⟩
      · rw [Int.toNat_natCast, islice_apply hmax, List.take_left, List.drop_left]
      · rw [Int.toNat_natCast, if_neg (by simp)]
        rfl

/-- Reading past the end of the input. -/
theorem bslice_short {n : Int} {s : Bytes} (h : (s.length : Int) < n) (hmax : n ≤ sysMaxsize) :
    bslice n s = .error (.h2Error ("Not enough data in iterator! Got " ++ reprBytes s)) := by
  have htake : s.take n.toNat = s := List.take_of_length_le (by omega)
  have hl : s.length ≠ n.toNat := by omega
  rw [bslice, if_neg (by omega)]
  show (islice n.toNat s >>= _) = _
  rw [islice_apply (by omega), ok_bind]
  simp only [htake]
  rw [if_pos hl]
  rfl

/-- A frame's payload can be read in one piece. -/
theorem le_sysMaxsize {n : Nat} (h : n < 2 ^ 24) : n ≤ sysMaxsize := by
  rw [sysMaxsize]
  omega

theorem reads_bslice (enc : Bytes) {n : Int} (hn : n = enc.length) (hmax : enc.length ≤ sysMaxsize) :
    Reads (bslice n) enc enc :=
  fun _ => bslice_eq_ok.mpr ⟨hn, hmax, rfl⟩

theorem consumes_bslice (n : Int) : Consumes 0 (bslice n) := by
  intro s t s' h
  obtain ⟨-, -, rfl⟩ := bslice_eq_ok.mp h
  rw [List.length_append]
  omega

/-! ### Flags -/

/-- `H2Flags`, most significant bit first. -/
structure H2Flags where
  unused7 : Bool := false
  unused6 : Bool := false
  priority : Bool := false
  unused4 : Bool := false
  padded : Bool := false
  endHeaders : Bool := false
  unused1 : Bool := false
  endStreamOrAck : Bool := false
  deriving Repr, DecidableEq

namespace H2Flags

/-- The source takes a `bytes` object of length one or an integer. -/
def parse (data : Bytes ⊕ Int) : Except PyError H2Flags := do
  let data : Int ←
    match data with
    | .inl [b] => pure (b.toNat : Int)
    | .inl _ => throw (.h2Error "H2Flag parser input too long")
    | .inr n => pure n
  if ¬ (0 ≤ data ∧ data < 2 ^ 8) then throw (.h2Error "H2Flag value doesn't fit in a byte")
  let bit := data.toNat.testBit
  return ⟨bit 7, bit 6, bit 5, bit 4, bit 3, bit 2, bit 1, bit 0⟩

/-- The byte of the flags, each shifted to its place. -/
def toByte (f : H2Flags) : UInt8 :=
  UInt8.ofNat (f.unused7.toNat <<< 7 + f.unused6.toNat <<< 6 + f.priority.toNat <<< 5
    + f.unused4.toNat <<< 4 + f.padded.toNat <<< 3 + f.endHeaders.toNat <<< 2
    + f.unused1.toNat <<< 1 + f.endStreamOrAck.toNat <<< 0)

/-- `to_bytes` of the flags. -/
def toBytes (f : H2Flags) : Bytes := [f.toByte]

/-- The flags a byte stands for. -/
def ofByte (b : UInt8) : H2Flags :=
  let bit := b.toNat.testBit
  ⟨bit 7, bit 6, bit 5, bit 4, bit 3, bit 2, bit 1, bit 0⟩

theorem parse_byte (b : UInt8) : parse (.inr b.toNat) = .ok (ofByte b) := by
  have h := b.toNat_lt
  have hin : 0 ≤ (b.toNat : Int) ∧ (b.toNat : Int) < 2 ^ 8 := by omega
  simp only [parse, pure_eq_ok, ok_bind, hin, and_self, not_true_eq_false, if_false]
  rfl

theorem toByte_ofByte (b : UInt8) : (ofByte b).toByte = b := by
  have h : ∀ n : Fin 256, (ofByte (UInt8.ofNat n.val)).toByte = UInt8.ofNat n.val := by
    decide +kernel
  simpa using h ⟨b.toNat, b.toNat_lt⟩

theorem ofByte_toByte (f : H2Flags) : ofByte f.toByte = f := by
  have h : ∀ a b c d e f g h : Bool, ofByte (toByte ⟨a, b, c, d, e, f, g, h⟩)
      = ⟨a, b, c, d, e, f, g, h⟩ := by
    decide
  exact h _ _ _ _ _ _ _ _

end H2Flags

/-! ### Frame types

The numbers that have a type of their own; every other number is a frame type as well. -/

namespace H2FrameType

def DATA : Int := 0
def HEADERS : Int := 1
def PRIORITY : Int := 2
def RST_STREAM : Int := 3
def SETTINGS : Int := 4
def PUSH_PROMISE : Int := 5
def PING : Int := 6
def GOAWAY : Int := 7
def WINDOW_UPDATE : Int := 8
def CONTINUATION : Int := 9

end H2FrameType

/-! ### Checks -/

/-- `check_stream_id`: stream numbers have 31 bits. -/
def checkStreamId (streamId : Int) (canBeZero : Bool := true) (mustBeZero : Bool := false) :
    Except PyError Unit :=
  if (!canBeZero && streamId == 0) || (mustBeZero && streamId != 0)
      || !(0 ≤ streamId && streamId < 1 <<< 31) then
    .error (.h2Error "Invalid stream ID")
  else .ok ()

theorem checkStreamId_eq_ok {id : Int} {canBeZero mustBeZero : Bool} :
    checkStreamId id canBeZero mustBeZero = .ok () ↔
      (canBeZero = false → id ≠ 0) ∧ (mustBeZero = true → id = 0) ∧ 0 ≤ id ∧ id < 2 ^ 31 := by
  unfold checkStreamId
  cases canBeZero <;> cases mustBeZero <;> (simp [-not_and]; try omega)

/-! ### Generic frames -/

/-- The check that constructing an `H2GenericFrame` makes. -/
def H2GenericFrame.postInit (streamId : Int) (payload : Bytes) : Except PyError Unit := do
  checkStreamId streamId
  if payload.length ≥ 1 <<< 24 then throw (.h2Error "Payload too long")

/-- A frame of any type. -/
structure H2GenericFrame where
  typ : Int
  flags : H2Flags := {}
  reserved : Bool := false
  streamId : Int := 0
  payload : Bytes := []
  post_init : H2GenericFrame.postInit streamId payload = .ok ()
  deriving DecidableEq

namespace H2GenericFrame

/-- The constructor, `__post_init__` included. -/
def new (typ : Int) (flags : H2Flags) (reserved : Bool) (streamId : Int) (payload : Bytes) :
    Except PyError H2GenericFrame :=
  build (postInit streamId payload) fun h => ⟨typ, flags, reserved, streamId, payload, h⟩

theorem postInit_eq_ok {streamId : Int} {payload : Bytes} :
    postInit streamId payload = .ok () ↔
      0 ≤ streamId ∧ streamId < 2 ^ 31 ∧ payload.length < 2 ^ 24 := by
  unfold postInit
  rw [check_bind_eq_ok, checkStreamId_eq_ok, throw_eq_error, ite_error_eq_ok]
  simp [and_assoc]

theorem streamId_range (f : H2GenericFrame) : 0 ≤ f.streamId ∧ f.streamId < 2 ^ 31 :=
  let h := postInit_eq_ok.mp f.post_init
  ⟨h.1, h.2.1⟩

theorem payload_lt (f : H2GenericFrame) : f.payload.length < 2 ^ 24 :=
  (postInit_eq_ok.mp f.post_init).2.2

theorem new_self (f : H2GenericFrame) :
    new f.typ f.flags f.reserved f.streamId f.payload = .ok f :=
  build_of_ok f.post_init

/-- The classmethod `parse`. The end of the input counts as such only where a
frame would start. -/
def parse : Reader UInt8 PyError H2GenericFrame := do
  let _ ← peek .stopIteration
  let length := ofBE (← bslice 3)
  let (typ, flags) ← reraise .stopIteration (.h2Error "Frame incomplete") do
    let typ ← nextByte
    let flags ← nextByte
    let flags ← check (H2Flags.parse (.inr flags.toNat))
    return (typ, flags)
  let rawStreamId := ofBE (← bslice 4)
  let reserved := topBit rawStreamId
  let payload ← bslice length
  check (new typ.toNat flags reserved (clearTopBit rawStreamId) payload)

theorem consumes_parse : Consumes 1 parse := by
  refine (consumes_peek _).bind (n := 1) fun _ => ?_
  refine (consumes_bslice _).bind (n := 1) fun _ => ?_
  refine Consumes.bind (m := 1) (n := 0) (Consumes.reraise ?_ _ _) fun m => ?_
  · refine (consumes_next _).bind (n := 0) fun _ => ?_
    refine ((consumes_next _).mono (Nat.zero_le 1)).bind (n := 0) fun _ => ?_
    exact (consumes_check _).bind (n := 0) fun _ => consumes_pure _
  · refine (consumes_bslice _).bind (n := 0) fun _ => ?_
    exact (consumes_bslice _).bind (n := 0) fun _ => consumes_check _

/-- `to_bytes`: nine bytes, with the reserved bit on top of the stream, and the payload. -/
def toBytes (f : H2GenericFrame) : Except PyError Bytes := do
  let length ← intToBytes f.payload.length 3
  let typ ← intToBytes f.typ 1
  let streamId ← intToBytes (withTopBit f.reserved f.streamId) 4
  return length ++ typ ++ f.flags.toBytes ++ streamId ++ f.payload

end H2GenericFrame

/-- `parse_generic_frames` -/
def parseGenericFrames (data : Bytes) : Except PyError (List H2GenericFrame) :=
  readAll .stopIteration H2GenericFrame.parse H2GenericFrame.consumes_parse data

/-- `b"".join(f.to_bytes() for f in frames)` -/
def joinFrames (frames : List H2GenericFrame) : Except PyError Bytes := do
  return (← frames.mapM H2GenericFrame.toBytes).flatten

end HttpGarden.Http2
