import Mathlib
import AutoMobile.ByteRecords

/- The relay's framing of a video stream: the daemon's encoders, and the desktop's parser. -/
namespace AutoMobile.VideoStream

open ByteRecords

section Encoders

def CODEC_ID_H264 : Int := 0x68323634
def PACKET_FLAG_CONFIG : Nat := 1 <<< 63
def PACKET_FLAG_KEY_FRAME : Nat := 1 <<< 62
def PACKET_FLAG_ROTATION_PRESENT : Nat := 1 <<< 61
def PACKET_FLAG_DROPPED_FRAMES : Nat := 1 <<< 59
def PACKET_FLAG_HEARTBEAT : Nat := 1 <<< 60
def ROTATION_SHIFT : Nat := 59
def ROTATION_MASK : Nat := 3 <<< ROTATION_SHIFT
def PTS_MASK : Nat := (1 <<< ROTATION_SHIFT) - 1
def PACKET_FLAG_SUBSCRIPTION_NOTICE : Nat := 1 <<< 61

/-- `Buffer.writeInt32BE`: `none` where it throws, out of range. -/
def writeInt32BE (value : Int) : Option Bytes :=
  if -2 ^ 31 ≤ value ∧ value < 2 ^ 31 then some (writeBE 4 (value % 2 ^ 32).toNat) else none

/-- `BigInt.asIntN(64, value)`. -/
def asIntN (value : Nat) : Int := (value : Int).bmod (2 ^ 64)

/-- `Buffer.writeBigInt64BE`. -/
def writeBigInt64BE (value : Int) : Bytes := writeBE 8 (value % 2 ^ 64).toNat

def encodeStreamHeader (width height : Int) : Option Bytes := do
  let codec ← writeInt32BE CODEC_ID_H264
  let first ← writeInt32BE width
  let second ← writeInt32BE height
  return codec ++ first ++ second

def encodePtsAndFlags (presentationTimeUs : Nat) (isConfig isKeyFrame : Bool)
    (rotation : Option Nat) : Nat :=
  let pts := presentationTimeUs &&& PTS_MASK
  let configured :=
    if isConfig then
      match rotation with
      | some quarter =>
        pts ||| PACKET_FLAG_CONFIG ||| PACKET_FLAG_ROTATION_PRESENT |||
          ((quarter &&& 3) <<< ROTATION_SHIFT)
      | none => pts ||| PACKET_FLAG_CONFIG
    else pts
  if isKeyFrame then configured ||| PACKET_FLAG_KEY_FRAME else configured

def encodePacketHeader (ptsAndFlags : Nat) (size : Int) : Option Bytes := do
  let length ← writeInt32BE size
  return writeBigInt64BE (asIntN ptsAndFlags) ++ length

def encodePacket (ptsAndFlags : Nat) (payload : Bytes) : Option Bytes := do
  let header ← encodePacketHeader ptsAndFlags payload.length
  return header ++ payload

def encodeDroppedFrames (droppedFrames : Nat) : Option Bytes :=
  encodePacket (PACKET_FLAG_DROPPED_FRAMES ||| (droppedFrames &&& PTS_MASK)) []

def encodeHeartbeat : Option Bytes := encodePacket PACKET_FLAG_HEARTBEAT []

inductive SubscriptionNotice where
  | downgradedToViewer
  | deviceRemoved
  | identityQuarantined
  | daemonShutdown
  | sessionEnded
  | deviceRestored
deriving DecidableEq, Repr

/-- `SUBSCRIPTION_NOTICE_CODES`. -/
def SubscriptionNotice.code : SubscriptionNotice → Nat
  | .downgradedToViewer => 1
  | .deviceRemoved => 2
  | .identityQuarantined => 3
  | .daemonShutdown => 4
  | .sessionEnded => 5
  | .deviceRestored => 6

def encodeSubscriptionNotice (notice : SubscriptionNotice) : Option Bytes :=
  encodePacketHeader (PACKET_FLAG_SUBSCRIPTION_NOTICE ||| notice.code) 0

end Encoders

section Parser

inductive VideoStreamEndReason where
  | DeviceRemoved
  | IdentityQuarantined
  | DaemonShutdown
  | SessionEnded
  | DeviceRestored
deriving DecidableEq, Repr

inductive VideoStreamNotice where
  | Downgraded
  | Ended (reason : VideoStreamEndReason)
  | Unknown (code : Nat)
deriving DecidableEq, Repr

def subscriptionNotice (code : Nat) : VideoStreamNotice :=
  if code = 1 then .Downgraded
  else if code = 2 then .Ended .DeviceRemoved
  else if code = 3 then .Ended .IdentityQuarantined
  else if code = 4 then .Ended .DaemonShutdown
  else if code = 5 then .Ended .SessionEnded
  else if code = 6 then .Ended .DeviceRestored
  else .Unknown code

structure VideoStreamHeader where
  width : Int
  height : Int
deriving DecidableEq, Repr

structure VideoPacket where
  payload : Bytes
  presentationTimeUs : Nat
  isConfig : Bool
  isKeyFrame : Bool
  rotation : Option Nat := none
  droppedFrames : Option Nat := none
  heartbeat : Bool := false
deriving DecidableEq, Repr

/-- What ends a read with an exception: `ByteArray` of a size that overflows `Int`, or a
`VideoStreamFormatException`. -/
inductive Failure where
  | arraySize
  | unexpectedCodec (codecId : Int)
  | negativeLength (size : Int)
deriving DecidableEq, Repr

/-- A callback, or the exception that ends the reads. -/
inductive Report where
  | header (header : VideoStreamHeader)
  | packet (packet : VideoPacket)
  | notice (notice : VideoStreamNotice)
  | thrown (failure : Failure)
deriving DecidableEq, Repr

structure VideoStreamParser where
  buffer : Bytes := []
  headerSeen : Bool := false
  hasEnded : Bool := false
  thrown : Bool := false
deriving DecidableEq, Repr

def intMax : Nat := 2 ^ 31 - 1

/-- The `Int` of four bytes. -/
def readInt (bytes : Bytes) : Int :=
  let value := readBE (bytes.take 4)
  if value < 2 ^ 31 then value else value - 2 ^ 32

/-- The bits of the `Long` of eight bytes. -/
def readLong (bytes : Bytes) : Nat := readBE (bytes.take 8)

/-- A flag's bits are not all clear. -/
def hasFlag (bits flag : Nat) : Bool := bits &&& flag ≠ 0

def packetRotation (ptsAndFlags : Nat) : Option Nat :=
  if hasFlag ptsAndFlags PACKET_FLAG_CONFIG && hasFlag ptsAndFlags PACKET_FLAG_ROTATION_PRESENT then
    some ((ptsAndFlags &&& ROTATION_MASK) >>> ROTATION_SHIFT)
  else none

/-- An end notice ends the stream. -/
def noticeReport : VideoStreamNotice → Report × Bool
  | .Ended reason => (.notice (.Ended reason), true)
  | .Downgraded => (.notice .Downgraded, false)
  | .Unknown code => (.notice (.Unknown code), false)

/-- What a complete packet reports, and whether it ends the stream. -/
def dispatchPacket (ptsAndFlags : Nat) (payload : Bytes) : Report × Bool :=
  let isConfig := hasFlag ptsAndFlags PACKET_FLAG_CONFIG
  let empty := payload.length = 0
  let isDroppedFrames := !isConfig && empty && hasFlag ptsAndFlags PACKET_FLAG_DROPPED_FRAMES
  let isHeartbeat := !isConfig && empty && hasFlag ptsAndFlags PACKET_FLAG_HEARTBEAT
  let isKeyFrame := hasFlag ptsAndFlags PACKET_FLAG_KEY_FRAME
  let emptyData := !isConfig && !isKeyFrame && empty
  let controlPacket := !isHeartbeat && !isDroppedFrames
  if emptyData && controlPacket && hasFlag ptsAndFlags PACKET_FLAG_SUBSCRIPTION_NOTICE then
    noticeReport (subscriptionNotice (ptsAndFlags &&& PTS_MASK))
  else
    (.packet
      { payload := payload
        presentationTimeUs := ptsAndFlags &&& PTS_MASK
        isConfig := isConfig
        isKeyFrame := isKeyFrame
        rotation := packetRotation ptsAndFlags
        droppedFrames := if isDroppedFrames then some (ptsAndFlags &&& PTS_MASK) else none
        heartbeat := isHeartbeat }, false)

/-- How the loop over complete packets went: its callbacks, the bytes from its offset on, and
whether it ended the stream or threw. -/
structure Parsed where
  reports : List Report
  rest : Bytes
  ended : Bool := false
  thrown : Bool := false
deriving DecidableEq, Repr

/-- The loop of `onBytes`, over the bytes from its offset on. -/
def parsePackets (bytes : Bytes) : Parsed :=
  if _enough : 12 ≤ bytes.length then
    let ptsAndFlags := readLong bytes
    let size := readInt (bytes.drop 8)
    if size < 0 then
      { reports := [.thrown (.negativeLength size)], rest := [], thrown := true }
    else if (bytes.length : Int) - 12 < size then { reports := [], rest := bytes }
    else
      let payload := (bytes.drop 12).take size.toNat
      let rest := (bytes.drop 12).drop size.toNat
      let (report, ended) := dispatchPacket ptsAndFlags payload
      if ended then { reports := [report], rest := rest, ended := true }
      else
        let later := parsePackets rest
        { later with reports := report :: later.reports }
  else { reports := [], rest := bytes }
termination_by bytes.length
decreasing_by
  rw [List.length_drop, List.length_drop]
  omega

/-- The packets of `onBytes`, once the header has been seen. -/
def onPackets (parser : VideoStreamParser) (bytes : Bytes) : VideoStreamParser × List Report :=
  let parsed := parsePackets bytes
  ({ parser with
      buffer := parsed.rest
      headerSeen := true
      hasEnded := parsed.ended
      thrown := parsed.thrown }, parsed.reports)

/-- One read. A parser that has thrown is not fed again. -/
def onBytes (parser : VideoStreamParser) (chunk : Bytes) : VideoStreamParser × List Report :=
  if chunk.length = 0 || parser.thrown then (parser, [])
  else if intMax < parser.buffer.length + chunk.length then
    ({ parser with thrown := true }, [.thrown .arraySize])
  else
    let src := parser.buffer ++ chunk
    if parser.hasEnded then ({ parser with buffer := src }, [])
    else if parser.headerSeen then onPackets parser src
    else if src.length < 12 then ({ parser with buffer := src }, [])
    else if readInt src ≠ CODEC_ID_H264 then
      ({ parser with buffer := [], thrown := true }, [.thrown (.unexpectedCodec (readInt src))])
    else
      let header : VideoStreamHeader :=
        { width := readInt (src.drop 4), height := readInt (src.drop 8) }
      let (next, reports) := onPackets parser (src.drop 12)
      (next, .header header :: reports)

/-- The bytes after the end notice. -/
def VideoStreamParser.trailingBytes (parser : VideoStreamParser) : Bytes := parser.buffer

end Parser

end AutoMobile.VideoStream
