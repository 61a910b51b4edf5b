import HttpGarden.Http2.Frame

/-!
# HttpGarden.Http2.Types

`http2.py`: the ten **typed frames**, each with the checks of its constructor,
`from_h2frame` and `to_generic`.

As for generic frames, the last field of each structure is the check made in
`__post_init__`. Where the source computes a payload in `to_generic` it is a
definition `payload` here, since the limit on its length is a condition of
several results.
-/

namespace HttpGarden.Http2

open Lib Lib.Reader

/-! ### Checks -/

/-- `check_frame_type` -/
def checkFrameType (frameType expected : Int) : Except PyError Unit :=
  if frameType ≠ expected then .error (.h2Error "Unexpected frame type") else .ok ()

/-- `check_error_code`: error codes have 32 bits. -/
def checkErrorCode (errorCode : Int) : Except PyError Unit :=
  if ¬ (0 ≤ errorCode ∧ errorCode < 1 <<< 32) then .error (.h2Error "Error code out of range")
  else .ok ()

/-- `check_pad_length`: a pad length, if there is one, is a byte. -/
def checkPadLength : Option Int → Except PyError Unit
  | none => .ok ()
  | some padLength =>
    if ¬ (0 ≤ padLength ∧ padLength < 0x100) then
      .error (.h2Error "Padding length out of range")
    else .ok ()

/-- `check_padding`: there is as much padding as announced. What it is made of does not matter. -/
def checkPadding (padding : Bytes) (padLength : Int) : Except PyError Unit := do
  checkPadLength (some padLength)
  if padding.length ≠ padLength then throw (.h2Error "Padding doesn't match pad length")

/-- `check_priority`. The message asks for all three fields or none; some incomplete choices of them
pass the comparison. -/
def checkPriority (exclusive : Option Bool) (streamDependency weight : Option Int) :
    Except PyError Unit := do
  -- `a != b != c` holds when both neighbouring pairs differ
  if exclusive.isNone != weight.isNone && weight.isNone != streamDependency.isNone then
    throw (.h2Error
      "Either all or none of exclusive, weight, and stream_dependency fields must be present")
  if let some weight := weight then
    if ¬ (0 ≤ weight ∧ weight < 0x100) then throw (.h2Error "Invalid weight")
  if let some streamDependency := streamDependency then
    checkStreamId streamDependency

/-! ### Padding -/

/-- `next(inp) if padded else None` -/
def readPadLength (padded : Bool) : Reader UInt8 PyError (Option Int) := do
  if padded then
    let padLength ← nextByte
    return some padLength.toNat
  else return none

/-- `if len(bytes(inp)) != 0: raise H2Error("Trailing data")` -/
def expectEnd : Reader UInt8 PyError Unit := do
  let trailing ← rest
  if trailing.length ≠ 0 then throw (.h2Error "Trailing data")

/-- What the padded frame types end with: `length` bytes, the padding, and then
nothing. -/
def readBody (length : Int) (padLength : Option Int) : Reader UInt8 PyError Bytes := do
  let body ← bslice length
  if let some padLength := padLength then
    let padding ← bslice padLength
    check (checkPadding padding padLength)
  expectEnd
  return body

/-- `bytes(n)` -/
def bytesOfLength (n : Int) : Except PyError Bytes :=
  if n < 0 then .error (.valueError "negative count") else .ok (zeros n.toNat)

/-- The payload with the pad length in front and the padding behind it. -/
def addPadding (padLength : Option Int) (payload : Bytes) : Except PyError Bytes :=
  match padLength with
  | none => return payload
  | some padLength => do
    let byte ← intToBytes padLength 1
    let padding ← bytesOfLength padLength
    return byte ++ payload ++ padding

/-! ### DATA -/

/-- DATA is sent on a stream. -/
def H2DataFrame.postInit (streamId : Int) (padLength : Option Int) : Except PyError Unit := do
  checkPadLength padLength
  checkStreamId streamId false

/-- DATA: the data, padded or not. -/
structure H2DataFrame where
  endStream : Bool
  streamId : Int
  data : Bytes
  padLength : Option Int
  post_init : H2DataFrame.postInit streamId padLength = .ok ()
  deriving DecidableEq

namespace H2DataFrame

/-- The constructor, `__post_init__` included. -/
def new (endStream : Bool) (streamId : Int) (data : Bytes) (padLength : Option Int) :
    Except PyError H2DataFrame :=
  build (postInit streamId padLength) fun h => ⟨endStream, streamId, data, padLength, h⟩

/-- The data and the pad length. The data is what the byte of the pad length and the padding leave. -/
def readFields (padded : Bool) (length : Int) : Reader UInt8 PyError (Bytes × Option Int) := do
  let padLength ← readPadLength padded
  let data ← readBody (length - padLength.elim 0 (· + 1)) padLength
  return (data, padLength)

/-- `from_h2frame`. A padded frame needs a byte for its pad length. -/
def fromH2Frame (frame : H2GenericFrame) : Except PyError H2DataFrame := do
  checkFrameType frame.typ H2FrameType.DATA
  if frame.flags.padded && frame.payload.length == 0 then
    throw (.h2Error "DATA frame is padded, but its payload is only 1 byte long")
  let ((data, padLength), _) ← readFields frame.flags.padded frame.payload.length frame.payload
  new frame.flags.endStreamOrAck frame.streamId data padLength

/-- The data, with its padding. -/
def payload (self : H2DataFrame) : Except PyError Bytes := addPadding self.padLength self.data

/-- END_STREAM and PADDED. -/
def flags (self : H2DataFrame) : H2Flags :=
  { endStreamOrAck := self.endStream, padded := self.padLength.isSome }

/-- `to_generic` -/
def toGeneric (self : H2DataFrame) : Except PyError H2GenericFrame := do
  H2GenericFrame.new H2FrameType.DATA self.flags false self.streamId (← self.payload)

end H2DataFrame

/-! ### HEADERS -/

/-- HEADERS opens a stream. -/
def H2HeadersFrame.postInit (streamId : Int) (exclusive : Option Bool)
    (streamDependency weight padLength : Option Int) : Except PyError Unit := do
  checkStreamId streamId false
  checkPriority exclusive streamDependency weight
  checkPadLength padLength

/-- HEADERS: a field block or its beginning. The three fields of the priority block are optional
one by one; `check_priority` is to see to it that they come together. -/
structure H2HeadersFrame where
  endHeaders : Bool
  endStream : Bool
  streamId : Int
  exclusive : Option Bool
  streamDependency : Option Int
  weight : Option Int
  fieldBlockFragment : Bytes
  padLength : Option Int
  post_init :
    H2HeadersFrame.postInit streamId exclusive streamDependency weight padLength = .ok ()
  deriving DecidableEq

namespace H2HeadersFrame

/-- The constructor, `__post_init__` included. -/
def new (endHeaders endStream : Bool) (streamId : Int) (exclusive : Option Bool)
    (streamDependency weight : Option Int) (fieldBlockFragment : Bytes) (padLength : Option Int) :
    Except PyError H2HeadersFrame :=
  build (postInit streamId exclusive streamDependency weight padLength) fun h =>
    ⟨endHeaders, endStream, streamId, exclusive, streamDependency, weight, fieldBlockFragment,
      padLength, h⟩

/-- The property `priority`: there is a priority block. -/
def priority (self : H2HeadersFrame) : Bool :=
  self.exclusive.isSome && self.streamDependency.isSome && self.weight.isSome

/-- The stream dependency, the exclusive bit and the weight, where they are present. -/
def readPriority (priority : Bool) :
    Reader UInt8 PyError (Option Int × Option Bool × Option Int) := do
  if priority then
    let rawStreamDependency := ofBE (← bslice 4)
    let weight ← nextByte
    return (some (clearTopBit rawStreamDependency), some (topBit rawStreamDependency),
      some weight.toNat)
  else return (none, none, none)

/-- The priority block, the field block fragment and the pad length. The two checks come each before
the bytes that they are about are read. -/
def readFields (padded priority : Bool) (length : Int) :
    Reader UInt8 PyError ((Option Int × Option Bool × Option Int) × Bytes × Option Int) := do
  let padPrefixLen : Int := if padded then 1 else 0
  let payloadPrefixLen := padPrefixLen + if priority then 5 else 0
  if padded && padPrefixLen > length then
    throw (.h2Error "Padded payload can't fit padding length")
  let padLength ← readPadLength padded
  if priority && payloadPrefixLen > length then
    throw (.h2Error "Priority payload can't fit priority data")
  let priorityFields ← readPriority priority
  let fbfLen := length - payloadPrefixLen - padLength.getD 0
  let fieldBlockFragment ← readBody fbfLen padLength
  return (priorityFields, fieldBlockFragment, padLength)

/-- `from_h2frame` -/
def fromH2Frame (frame : H2GenericFrame) : Except PyError H2HeadersFrame := do
  checkFrameType frame.typ H2FrameType.HEADERS
  let (((streamDependency, exclusive, weight), fieldBlockFragment, padLength), _) ←
    readFields frame.flags.padded frame.flags.priority frame.payload.length frame.payload
  new frame.flags.endHeaders frame.flags.endStreamOrAck frame.streamId exclusive streamDependency
    weight fieldBlockFragment padLength

/-- The field block fragment behind the priority block, if there is one. -/
def body (self : H2HeadersFrame) : Except PyError Bytes :=
  match self.exclusive, self.streamDependency, self.weight with
  | some exclusive, some streamDependency, some weight => do
    let dependency ← intToBytes (withTopBit exclusive streamDependency) 4
    let weight ← intToBytes weight 1
    return dependency ++ weight ++ self.fieldBlockFragment
  | _, _, _ => return self.fieldBlockFragment

/-- The priority block and the field block fragment, with the padding. -/
def payload (self : H2HeadersFrame) : Except PyError Bytes := do
  addPadding self.padLength (← self.body)

/-- PRIORITY, PADDED, END_STREAM and END_HEADERS. -/
def flags (self : H2HeadersFrame) : H2Flags :=
  { priority := self.priority, padded := self.padLength.isSome,
    endStreamOrAck := self.endStream, endHeaders := self.endHeaders }

/-- `to_generic` -/
def toGeneric (self : H2HeadersFrame) : Except PyError H2GenericFrame := do
  H2GenericFrame.new H2FrameType.HEADERS self.flags false self.streamId (← self.payload)

end H2HeadersFrame

/-! ### PRIORITY -/

/-- PRIORITY belongs to a stream. -/
def H2PriorityFrame.postInit (streamId : Int) (exclusive : Bool) (streamDependency weight : Int) :
    Except PyError Unit := do
  checkStreamId streamId false
  checkPriority (some exclusive) (some streamDependency) (some weight)

/-- PRIORITY: the priority block alone. -/
structure H2PriorityFrame where
  streamId : Int
  exclusive : Bool
  streamDependency : Int
  weight : Int
  post_init : H2PriorityFrame.postInit streamId exclusive streamDependency weight = .ok ()
  deriving DecidableEq

namespace H2PriorityFrame

/-- The constructor, `__post_init__` included. -/
def new (streamId : Int) (exclusive : Bool) (streamDependency weight : Int) :
    Except PyError H2PriorityFrame :=
  build (postInit streamId exclusive streamDependency weight) fun h =>
    ⟨streamId, exclusive, streamDependency, weight, h⟩

/-- `from_h2frame`. The exclusive bit is the top bit of the dependency. -/
def fromH2Frame (frame : H2GenericFrame) : Except PyError H2PriorityFrame := do
  checkFrameType frame.typ H2FrameType.PRIORITY
  if frame.payload.length ≠ 5 then throw (.h2Error "Invalid priority payload length")
  let exclusive := (frame.payload.getD 0 0).toNat >>> 7 != 0
  let streamDependency := clearTopBit (ofBE (frame.payload.take 4))
  let weight := (frame.payload.getD 4 0).toNat
  new frame.streamId exclusive streamDependency weight

/-- The five bytes of the priority block. -/
def payload (self : H2PriorityFrame) : Except PyError Bytes := do
  let dependency ← intToBytes (withTopBit self.exclusive self.streamDependency) 4
  let weight ← bytesOfByte self.weight
  return dependency ++ weight

/-- `to_generic`, without any flags. -/
def toGeneric (self : H2PriorityFrame) : Except PyError H2GenericFrame := do
  H2GenericFrame.new H2FrameType.PRIORITY {} false self.streamId (← self.payload)

end H2PriorityFrame

/-! ### RST_STREAM -/

/-- RST_STREAM ends a stream. -/
def H2RstStreamFrame.postInit (streamId errorCode : Int) : Except PyError Unit := do
  checkStreamId streamId false
  checkErrorCode errorCode

/-- RST_STREAM: the reason for which a stream ends. -/
structure H2RstStreamFrame where
  streamId : Int
  errorCode : Int
  post_init : H2RstStreamFrame.postInit streamId errorCode = .ok ()
  deriving DecidableEq

namespace H2RstStreamFrame

/-- The constructor, `__post_init__` included. -/
def new (streamId errorCode : Int) : Except PyError H2RstStreamFrame :=
  build (postInit streamId errorCode) fun h => ⟨streamId, errorCode, h⟩

/-- `from_h2frame` -/
def fromH2Frame (frame : H2GenericFrame) : Except PyError H2RstStreamFrame := do
  checkFrameType frame.typ H2FrameType.RST_STREAM
  if frame.payload.length ≠ 4 then throw (.h2Error "Invalid RST_STREAM payload length")
  new frame.streamId (ofBE frame.payload)

/-- The four bytes of the error code. -/
def payload (self : H2RstStreamFrame) : Except PyError Bytes := intToBytes self.errorCode 4

/-- `to_generic`, without any flags. -/
def toGeneric (self : H2RstStreamFrame) : Except PyError H2GenericFrame := do
  H2GenericFrame.new H2FrameType.RST_STREAM {} false self.streamId (← self.payload)

end H2RstStreamFrame

/-! ### SETTINGS -/

/-- An acknowledgement carries no settings. -/
def H2SettingsFrame.postInit (ack : Bool) (settings : List (Int × Int)) : Except PyError Unit :=
  if ack && settings.length > 0 then
    .error (.h2Error "ACK flag is set, but settings frame is nonempty")
  else .ok ()

/-- SETTINGS: pairs of an identifier and a value, or the acknowledgement of such. -/
structure H2SettingsFrame where
  ack : Bool
  settings : List (Int × Int)
  post_init : H2SettingsFrame.postInit ack settings = .ok ()
  deriving DecidableEq

namespace H2SettingsFrame

/-- The constructor, `__post_init__` included. -/
def new (ack : Bool) (settings : List (Int × Int)) : Except PyError H2SettingsFrame :=
  build (postInit ack settings) fun h => ⟨ack, settings, h⟩

/-- The list comprehension over `range(0, len(payload), 6)`, for a payload whose
length is a multiple of 6. -/
def readSettings (payload : Bytes) : List (Int × Int) :=
  (List.range' 0 (payload.length / 6) 6).map fun i =>
    ((ofBE ((payload.drop i).take 2) : Int), (ofBE ((payload.drop (i + 2)).take 4) : Int))

/-- `from_h2frame`. Settings are those of the connection, stream 0. -/
def fromH2Frame (frame : H2GenericFrame) : Except PyError H2SettingsFrame := do
  checkFrameType frame.typ H2FrameType.SETTINGS
  checkStreamId frame.streamId true true
  if frame.payload.length % 6 ≠ 0 then
    throw (.h2Error "SETTINGS frame payload length is not a multiple of 6")
  new frame.flags.endStreamOrAck (readSettings frame.payload)

/-- Two bytes for the identifier and four for the value. -/
def settingToBytes (s : Int × Int) : Except PyError Bytes := do
  let identifier ← intToBytes s.1 2
  let value ← intToBytes s.2 4
  return identifier ++ value

/-- The settings, six bytes each. -/
def payload (self : H2SettingsFrame) : Except PyError Bytes := do
  return (← self.settings.mapM settingToBytes).flatten

/-- ACK. -/
def flags (self : H2SettingsFrame) : H2Flags := { endStreamOrAck := self.ack }

/-- `to_generic`, on stream 0. -/
def toGeneric (self : H2SettingsFrame) : Except PyError H2GenericFrame := do
  H2GenericFrame.new H2FrameType.SETTINGS self.flags false 0 (← self.payload)

end H2SettingsFrame

/-! ### PUSH_PROMISE -/

/-- Neither the stream nor the promised one is the connection. -/
def H2PushPromiseFrame.postInit (streamId promisedStreamId : Int) (padLength : Option Int) :
    Except PyError Unit := do
  checkPadLength padLength
  checkStreamId streamId false
  checkStreamId promisedStreamId false

/-- PUSH_PROMISE: the headers of the request that the promised stream answers. -/
structure H2PushPromiseFrame where
  endHeaders : Bool
  streamId : Int
  promisedStreamId : Int
  fieldBlockFragment : Bytes
  padLength : Option Int
  post_init : H2PushPromiseFrame.postInit streamId promisedStreamId padLength = .ok ()
  deriving DecidableEq

namespace H2PushPromiseFrame

/-- The constructor, `__post_init__` included. -/
def new (endHeaders : Bool) (streamId promisedStreamId : Int) (fieldBlockFragment : Bytes)
    (padLength : Option Int) : Except PyError H2PushPromiseFrame :=
  build (postInit streamId promisedStreamId padLength) fun h =>
    ⟨endHeaders, streamId, promisedStreamId, fieldBlockFragment, padLength, h⟩

/-- The promised stream as it stands there, the field block fragment and the pad length. -/
def readFields (padded : Bool) (length : Int) :
    Reader UInt8 PyError (Bytes × Bytes × Option Int) := do
  let payloadPrefixLen : Int := if padded then 5 else 4
  if padded && payloadPrefixLen > length then
    throw (.h2Error "Padded payload can't fit padding length")
  let padLength ← readPadLength padded
  let rawPromisedStreamId ← bslice 4
  let fbfLen := length - payloadPrefixLen - padLength.getD 0
  let fieldBlockFragment ← readBody fbfLen padLength
  return (rawPromisedStreamId, fieldBlockFragment, padLength)

/-- `from_h2frame`. The reserved bit of the promised stream is dropped. -/
def fromH2Frame (frame : H2GenericFrame) : Except PyError H2PushPromiseFrame := do
  checkFrameType frame.typ H2FrameType.PUSH_PROMISE
  let ((rawPromisedStreamId, fieldBlockFragment, padLength), _) ←
    readFields frame.flags.padded frame.payload.length frame.payload
  new frame.flags.endHeaders frame.streamId (clearTopBit (ofBE rawPromisedStreamId))
    fieldBlockFragment padLength

/-- The promised stream and the field block fragment, with the padding. -/
def payload (self : H2PushPromiseFrame) : Except PyError Bytes := do
  let promisedStreamId ← intToBytes self.promisedStreamId 4
  addPadding self.padLength (promisedStreamId ++ self.fieldBlockFragment)

/-- END_HEADERS and PADDED. -/
def flags (self : H2PushPromiseFrame) : H2Flags :=
  { endHeaders := self.endHeaders, padded := self.padLength.isSome }

/-- `to_generic` -/
def toGeneric (self : H2PushPromiseFrame) : Except PyError H2GenericFrame := do
  H2GenericFrame.new H2FrameType.PUSH_PROMISE self.flags false self.streamId (← self.payload)

end H2PushPromiseFrame

/-! ### PING -/

/-- PING carries eight bytes. -/
def H2PingFrame.postInit (opaqueData : Bytes) : Except PyError Unit :=
  if opaqueData.length ≠ 8 then .error (.h2Error "Invalid PING payload length") else .ok ()

/-- PING, or the answer to one with the same bytes. -/
structure H2PingFrame where
  ack : Bool
  opaqueData : Bytes
  post_init : H2PingFrame.postInit opaqueData = .ok ()
  deriving DecidableEq

namespace H2PingFrame

/-- The constructor, `__post_init__` included. -/
def new (ack : Bool) (opaqueData : Bytes) : Except PyError H2PingFrame :=
  build (postInit opaqueData) fun h => ⟨ack, opaqueData, h⟩

/-- `from_h2frame`. The length is checked by the constructor. -/
def fromH2Frame (frame : H2GenericFrame) : Except PyError H2PingFrame := do
  checkFrameType frame.typ H2FrameType.PING
  checkStreamId frame.streamId true true
  new frame.flags.endStreamOrAck frame.payload

/-- The eight bytes. -/
def payload (self : H2PingFrame) : Except PyError Bytes := return self.opaqueData

/-- ACK. -/
def flags (self : H2PingFrame) : H2Flags := { endStreamOrAck := self.ack }

/-- `to_generic`, on stream 0. -/
def toGeneric (self : H2PingFrame) : Except PyError H2GenericFrame := do
  H2GenericFrame.new H2FrameType.PING self.flags false 0 (← self.payload)

end H2PingFrame

/-! ### GOAWAY -/

/-- The last stream may be 0, for none at all. -/
def H2GoAwayFrame.postInit (lastStreamId errorCode : Int) : Except PyError Unit := do
  checkStreamId lastStreamId
  checkErrorCode errorCode

/-- GOAWAY: the last stream that was dealt with, and why there will be no more. -/
structure H2GoAwayFrame where
  lastStreamId : Int
  errorCode : Int
  additionalDebugData : Bytes
  post_init : H2GoAwayFrame.postInit lastStreamId errorCode = .ok ()
  deriving DecidableEq

namespace H2GoAwayFrame

/-- The constructor, `__post_init__` included. -/
def new (lastStreamId errorCode : Int) (additionalDebugData : Bytes) :
    Except PyError H2GoAwayFrame :=
  build (postInit lastStreamId errorCode) fun h =>
    ⟨lastStreamId, errorCode, additionalDebugData, h⟩

/-- `from_h2frame`. What follows the first eight bytes is debug data. -/
def fromH2Frame (frame : H2GenericFrame) : Except PyError H2GoAwayFrame := do
  checkFrameType frame.typ H2FrameType.GOAWAY
  checkStreamId frame.streamId true true
  let minimumPayloadLen := 8
  if frame.payload.length < minimumPayloadLen then
    throw (.h2Error "GOAWAY frame payload too short")
  let lastStreamId := clearTopBit (ofBE (frame.payload.take 4))
  let errorCode := ofBE ((frame.payload.drop 4).take 4)
  new lastStreamId errorCode (frame.payload.drop 8)

/-- The last stream, the error code and the debug data. -/
def payload (self : H2GoAwayFrame) : Except PyError Bytes := do
  let lastStreamId ← intToBytes self.lastStreamId 4
  let errorCode ← intToBytes self.errorCode 4
  return lastStreamId ++ errorCode ++ self.additionalDebugData

/-- `to_generic`, on stream 0 and without any flags. -/
def toGeneric (self : H2GoAwayFrame) : Except PyError H2GenericFrame := do
  H2GenericFrame.new H2FrameType.GOAWAY {} false 0 (← self.payload)

end H2GoAwayFrame

/-! ### WINDOW_UPDATE -/

/-- The increment has 31 bits, and is not 0. The window is that of a stream or of the connection. -/
def H2WindowUpdateFrame.postInit (streamId windowSizeIncrement : Int) : Except PyError Unit := do
  checkStreamId streamId
  if ¬ (0 < windowSizeIncrement ∧ windowSizeIncrement < 1 <<< 31) then
    throw (.h2Error "Invalid window size increment")

/-- WINDOW_UPDATE: how much more may be sent. -/
structure H2WindowUpdateFrame where
  streamId : Int
  windowSizeIncrement : Int
  post_init : H2WindowUpdateFrame.postInit streamId windowSizeIncrement = .ok ()
  deriving DecidableEq

namespace H2WindowUpdateFrame

/-- The constructor, `__post_init__` included. -/
def new (streamId windowSizeIncrement : Int) : Except PyError H2WindowUpdateFrame :=
  build (postInit streamId windowSizeIncrement) fun h => ⟨streamId, windowSizeIncrement, h⟩

/-- `from_h2frame`. A payload that is too long is called too short. -/
def fromH2Frame (frame : H2GenericFrame) : Except PyError H2WindowUpdateFrame := do
  checkFrameType frame.typ H2FrameType.WINDOW_UPDATE
  if frame.payload.length ≠ 4 then throw (.h2Error "WINDOW_UPDATE frame payload too short")
  new frame.streamId (clearTopBit (ofBE frame.payload))

/-- The four bytes of the increment. -/
def payload (self : H2WindowUpdateFrame) : Except PyError Bytes :=
  intToBytes self.windowSizeIncrement 4

/-- `to_generic`, without any flags. -/
def toGeneric (self : H2WindowUpdateFrame) : Except PyError H2GenericFrame := do
  H2GenericFrame.new H2FrameType.WINDOW_UPDATE {} false self.streamId (← self.payload)

end H2WindowUpdateFrame

/-! ### CONTINUATION -/

/-- CONTINUATION belongs to a stream. -/
def H2ContinuationFrame.postInit (streamId : Int) : Except PyError Unit :=
  checkStreamId streamId false

/-- CONTINUATION: more of a field block. -/
structure H2ContinuationFrame where
  endHeaders : Bool
  streamId : Int
  fieldBlockFragment : Bytes
  post_init : H2ContinuationFrame.postInit streamId = .ok ()
  deriving DecidableEq

namespace H2ContinuationFrame

/-- The constructor, `__post_init__` included. -/
def new (endHeaders : Bool) (streamId : Int) (fieldBlockFragment : Bytes) :
    Except PyError H2ContinuationFrame :=
  build (postInit streamId) fun h => ⟨endHeaders, streamId, fieldBlockFragment, h⟩

/-- `from_h2frame`. The payload is the fragment. -/
def fromH2Frame (frame : H2GenericFrame) : Except PyError H2ContinuationFrame := do
  checkFrameType frame.typ H2FrameType.CONTINUATION
  new frame.flags.endHeaders frame.streamId frame.payload

/-- The field block fragment. -/
def payload (self : H2ContinuationFrame) : Except PyError Bytes := return self.fieldBlockFragment

/-- END_HEADERS. -/
def flags (self : H2ContinuationFrame) : H2Flags := { endHeaders := self.endHeaders }

/-- `to_generic` -/
def toGeneric (self : H2ContinuationFrame) : Except PyError H2GenericFrame := do
  H2GenericFrame.new H2FrameType.CONTINUATION self.flags false self.streamId (← self.payload)

end H2ContinuationFrame

/-! ### The union of the types -/

/-- A frame of one of the ten types. -/
inductive TypedFrame
  | data (x : H2DataFrame)
  | headers (x : H2HeadersFrame)
  | priority (x : H2PriorityFrame)
  | rstStream (x : H2RstStreamFrame)
  | settings (x : H2SettingsFrame)
  | pushPromise (x : H2PushPromiseFrame)
  | ping (x : H2PingFrame)
  | goAway (x : H2GoAwayFrame)
  | windowUpdate (x : H2WindowUpdateFrame)
  | continuation (x : H2ContinuationFrame)
  deriving DecidableEq

/-- `H2Frame` -/
inductive H2Frame
  | generic (f : H2GenericFrame)
  | typed (x : TypedFrame)
  deriving DecidableEq

/-- `to_generic` of the frame's class. -/
def TypedFrame.toGeneric : TypedFrame → Except PyError H2GenericFrame
  | data x => x.toGeneric
  | headers x => x.toGeneric
  | priority x => x.toGeneric
  | rstStream x => x.toGeneric
  | settings x => x.toGeneric
  | pushPromise x => x.toGeneric
  | ping x => x.toGeneric
  | goAway x => x.toGeneric
  | windowUpdate x => x.toGeneric
  | continuation x => x.toGeneric

/-- `to_bytes`, the same in all ten classes. -/
def TypedFrame.toBytes (self : TypedFrame) : Except PyError Bytes := do
  (← self.toGeneric).toBytes

/-- The function that `specialize` picks. -/
def fromH2Frame (typ : Int) : Option (H2GenericFrame → Except PyError TypedFrame) :=
  if typ = H2FrameType.DATA then some fun f => .data <$> H2DataFrame.fromH2Frame f
  else if typ = H2FrameType.HEADERS then some fun f => .headers <$> H2HeadersFrame.fromH2Frame f
  else if typ = H2FrameType.PRIORITY then some fun f => .priority <$> H2PriorityFrame.fromH2Frame f
  else if typ = H2FrameType.RST_STREAM then
    some fun f => .rstStream <$> H2RstStreamFrame.fromH2Frame f
  else if typ = H2FrameType.SETTINGS then some fun f => .settings <$> H2SettingsFrame.fromH2Frame f
  else if typ = H2FrameType.PUSH_PROMISE then
    some fun f => .pushPromise <$> H2PushPromiseFrame.fromH2Frame f
  else if typ = H2FrameType.PING then some fun f => .ping <$> H2PingFrame.fromH2Frame f
  else if typ = H2FrameType.GOAWAY then some fun f => .goAway <$> H2GoAwayFrame.fromH2Frame f
  else if typ = H2FrameType.WINDOW_UPDATE then
    some fun f => .windowUpdate <$> H2WindowUpdateFrame.fromH2Frame f
  else if typ = H2FrameType.CONTINUATION then
    some fun f => .continuation <$> H2ContinuationFrame.fromH2Frame f
  else none

/-- A frame that its type's `from_h2frame` refuses with an `H2Error` stays generic. -/
def H2GenericFrame.specialize (self : H2GenericFrame) : Except PyError H2Frame :=
  match fromH2Frame self.typ with
  | none => .ok (.generic self)
  | some fn =>
    match fn self with
    | .ok x => .ok (.typed x)
    | .error (.h2Error _) => .ok (.generic self)
    | .error e => .error e

/-- `parse_frames` -/
def parseFrames (data : Bytes) : Except PyError (List H2Frame) := do
  (← parseGenericFrames data).mapM H2GenericFrame.specialize

/-- `b"".join(f.to_bytes() for f in frames)` -/
def joinTypedFrames (frames : List TypedFrame) : Except PyError Bytes := do
  return (← frames.mapM TypedFrame.toBytes).flatten

end HttpGarden.Http2
