import AutoMobile.BufferQueue
import AutoMobile.DoublePrecision
import AutoMobile.InsertionMap

/- The desktop's parser of the device's video stream, over a queue of chunks. -/
namespace AutoMobile.VideoServer

open ByteRecords

section Records

/-- "h264" as a big-endian number. -/
def VIDEO_SERVER_CODEC_ID_H264 : Nat := 0x68323634

/-- "amux", the marker of the multiplexed protocol. -/
def VIDEO_SERVER_CODEC_ID_AMUX : Nat := 0x616d7578

/-- "s16l", signed 16-bit little-endian PCM. -/
def VIDEO_SERVER_CODEC_ID_PCM16 : Nat := 0x7331366c

def VIDEO_SERVER_TRACK_ID_VIDEO : Nat := 1
def VIDEO_SERVER_TRACK_ID_AUDIO : Nat := 2

def STREAM_HEADER_BYTES : Nat := 12
def PACKET_HEADER_BYTES : Nat := 12
def MUX_TRACK_BYTES : Nat := 16
def MUX_PACKET_HEADER_BYTES : Nat := 16

def MAX_PACKET_BYTES : Nat := 16 * 1024 * 1024
def MAX_TRACK_COUNT : Nat := 16

def FLAG_CONFIG : Nat := 1 <<< 63
def FLAG_KEY_FRAME : Nat := 1 <<< 62
def FLAG_REPLAYED : Nat := 1 <<< 61
def ROTATION_SHIFT : Nat := 59
def ROTATION_MASK : Nat := 3 <<< ROTATION_SHIFT
def PTS_MASK : Nat := (1 <<< ROTATION_SHIFT) - 1

structure VideoServerStreamHeader where
  codecId : Nat
  width : Nat
  height : Nat
  muxed : Option Bool := none
  audio : Option Bool := none
  /-- Present for the multiplexed header only. -/
  muxVersion : Option Nat := none
deriving DecidableEq, Repr

structure VideoServerPacket where
  trackId : Nat
  codecId : Nat
  data : Bytes
  config : Bool
  keyFrame : Bool
  replayed : Bool
  /-- Present on configuration packets only. -/
  rotation : Option Nat
  ptsUs : Nat
deriving DecidableEq, Repr

structure MuxTrack where
  codecId : Nat
  param1 : Nat
  param2 : Nat
deriving DecidableEq, Repr

/-- What the callbacks are given. -/
inductive Event where
  | header (header : VideoServerStreamHeader)
  | packet (packet : VideoServerPacket)
deriving DecidableEq, Repr

/-- What a push throws: a declared number over its cap, or a read past the queue's end. -/
inductive Thrown where
  | actionableError (message : String)
  | rangeError
deriving DecidableEq, Repr

def readUInt32BE (bytes : Bytes) (position : Nat) : Nat :=
  readBE (subarray bytes position (position + 4))

def readBigUInt64BE (bytes : Bytes) (position : Nat) : Nat :=
  readBE (subarray bytes position (position + 8))

/-- `Number` of a `bigint`. -/
def toNumber (value : Nat) : Nat := DoublePrecision.nearest value

def rotationFromFlags (flags : Nat) : Option Nat :=
  if flags &&& FLAG_CONFIG = 0 then none
  else some (toNumber ((flags &&& ROTATION_MASK) >>> ROTATION_SHIFT))

def assertWithinCap (value cap : Nat) (field : String) : Option Thrown :=
  if cap < value then
    some (.actionableError
      ("video-server stream declared " ++ field ++ "=" ++ toString value ++ ", exceeding the " ++
        toString cap ++ " cap; the stream is likely corrupt or out of sync."))
  else none

end Records

section Packets

/-- What the two packet loops differ in: the header's length, where its size field lies, and what
a packet is dispatched as. -/
structure PacketLoop where
  headerBytes : Nat
  positive : 0 < headerBytes
  size : Bytes → Nat
  dispatch : Bytes → Bytes → List Event

/-- The loop over the packets that are complete. -/
def drainPackets (loop : PacketLoop) (buffered : BufferQueue) :
    BufferQueue × List Event × Option Thrown :=
  if loop.headerBytes ≤ buffered.length then
    match buffered.peek loop.headerBytes with
    | none => (buffered, [], some .rangeError)
    | some packetHeader =>
      let size := loop.size packetHeader
      match assertWithinCap size MAX_PACKET_BYTES "packet size" with
      | some thrown => (buffered, [], some thrown)
      | none =>
        if buffered.length < loop.headerBytes + size then (buffered, [], none)
        else
          match _discarded : buffered.discard loop.headerBytes with
          | none => (buffered, [], some .rangeError)
          | some payload =>
            match _taken : payload.takeDetached size with
            | none => (payload, [], some .rangeError)
            | some (data, rest) =>
              let later := drainPackets loop rest
              (later.1, loop.dispatch packetHeader data ++ later.2.1, later.2.2)
  else (buffered, [], none)
termination_by buffered.length
decreasing_by
  have positive := loop.positive
  have discarded := BufferQueue.discard_length _discarded
  have taken := BufferQueue.takeDetached_length _taken
  omega

def packetOf (trackId codecId flags : Nat) (data : Bytes) : VideoServerPacket where
  trackId := trackId
  codecId := codecId
  data := data
  config := (flags &&& FLAG_CONFIG) != 0
  keyFrame := (flags &&& FLAG_KEY_FRAME) != 0
  replayed := (flags &&& FLAG_REPLAYED) != 0
  rotation := rotationFromFlags flags
  ptsUs := toNumber (flags &&& PTS_MASK)

def legacyPackets (header : Option VideoServerStreamHeader) : PacketLoop where
  headerBytes := PACKET_HEADER_BYTES
  positive := by decide
  size packetHeader := readUInt32BE packetHeader 8
  dispatch packetHeader data :=
    [.packet (packetOf VIDEO_SERVER_TRACK_ID_VIDEO
      ((header.map VideoServerStreamHeader.codecId).getD VIDEO_SERVER_CODEC_ID_H264)
      (readBigUInt64BE packetHeader 0) data)]

def muxPackets (muxTracks : InsertionMap Nat MuxTrack) : PacketLoop where
  headerBytes := MUX_PACKET_HEADER_BYTES
  positive := by decide
  size packetHeader := readUInt32BE packetHeader 12
  dispatch packetHeader data :=
    let trackId := readUInt32BE packetHeader 0
    match InsertionMap.get? muxTracks trackId with
    | none => []
    | some track => [.packet (packetOf trackId track.codecId (readBigUInt64BE packetHeader 4) data)]

end Packets

section Parser

structure VideoServerStreamParser where
  buffered : BufferQueue := {}
  header : Option VideoServerStreamHeader := none
  muxTracks : Option (InsertionMap Nat MuxTrack) := none
deriving DecidableEq, Repr

/-- What the loop over a multiplexed header's tracks carries. -/
structure TrackTable where
  muxTracks : InsertionMap Nat MuxTrack := []
  videoHeader : Option VideoServerStreamHeader := none
  hasPcmAudioTrack : Bool := false
deriving DecidableEq, Repr

def readTrack (fullHeader : Bytes) (table : TrackTable) (i : Nat) : TrackTable :=
  let offset := STREAM_HEADER_BYTES + i * MUX_TRACK_BYTES
  let trackId := readUInt32BE fullHeader offset
  let codecId := readUInt32BE fullHeader (offset + 4)
  let param1 := readUInt32BE fullHeader (offset + 8)
  let param2 := readUInt32BE fullHeader (offset + 12)
  let muxTracks := InsertionMap.put table.muxTracks trackId { codecId, param1, param2 }
  if codecId = VIDEO_SERVER_CODEC_ID_H264 then
    { table with muxTracks, videoHeader := some { codecId, width := param1, height := param2 } }
  else if trackId = VIDEO_SERVER_TRACK_ID_AUDIO ∧ codecId = VIDEO_SERVER_CODEC_ID_PCM16 then
    { table with muxTracks, hasPcmAudioTrack := true }
  else { table with muxTracks }

def readTracks (fullHeader : Bytes) (trackCount : Nat) : TrackTable :=
  (List.range trackCount).foldl (readTrack fullHeader) {}

/-- What is known of a multiplexed stream's video, where its tracks include one. -/
def muxHeader (fullHeader : Bytes) (table : TrackTable) : Option VideoServerStreamHeader :=
  table.videoHeader.map fun videoHeader =>
    { videoHeader with
      muxed := some true
      audio := some table.hasPcmAudioTrack
      muxVersion := some (readUInt32BE fullHeader 4) }

/-- Whether the header has been read, or what the read of it throws. -/
def readStreamHeader (parser : VideoServerStreamParser) :
    VideoServerStreamParser × List Event × Except Thrown Bool :=
  if parser.buffered.length < STREAM_HEADER_BYTES then (parser, [], .ok false)
  else
    match parser.buffered.peek STREAM_HEADER_BYTES with
    | none => (parser, [], .error .rangeError)
    | some streamHeader =>
      let codecOrMagic := readUInt32BE streamHeader 0
      if codecOrMagic = VIDEO_SERVER_CODEC_ID_AMUX then
        let trackCount := readUInt32BE streamHeader 8
        match assertWithinCap trackCount MAX_TRACK_COUNT "trackCount" with
        | some thrown => (parser, [], .error thrown)
        | none =>
          let headerBytes := STREAM_HEADER_BYTES + trackCount * MUX_TRACK_BYTES
          if parser.buffered.length < headerBytes then (parser, [], .ok false)
          else
            match parser.buffered.peek headerBytes with
            | none => (parser, [], .error .rangeError)
            | some fullHeader =>
              let table := readTracks fullHeader trackCount
              let header := muxHeader fullHeader table
              let events := header.toList.map Event.header
              let known :=
                { parser with
                  header := header.or parser.header
                  muxTracks := some table.muxTracks }
              match parser.buffered.discard headerBytes with
              | none => (known, events, .error .rangeError)
              | some buffered => ({ known with buffered }, events, .ok true)
      else
        let header : VideoServerStreamHeader :=
          { codecId := codecOrMagic
            width := readUInt32BE streamHeader 4
            height := readUInt32BE streamHeader 8 }
        match parser.buffered.discard STREAM_HEADER_BYTES with
        | none => ({ parser with header := some header }, [], .error .rangeError)
        | some buffered =>
          ({ parser with buffered, header := some header }, [.header header], .ok true)

/-- The packets after the header, by the framing that the header has set. -/
def pushPackets (parser : VideoServerStreamParser) :
    VideoServerStreamParser × List Event × Option Thrown :=
  let drained :=
    match parser.muxTracks with
    | some muxTracks => drainPackets (muxPackets muxTracks) parser.buffered
    | none => drainPackets (legacyPackets parser.header) parser.buffered
  ({ parser with buffered := drained.1 }, drained.2)

def push (parser : VideoServerStreamParser) (chunk : Bytes) :
    VideoServerStreamParser × List Event × Option Thrown :=
  let parser := { parser with buffered := parser.buffered.append chunk }
  if parser.header = none ∧ parser.muxTracks = none then
    match readStreamHeader parser with
    | (parser, events, .error thrown) => (parser, events, some thrown)
    | (parser, events, .ok false) => (parser, events, none)
    | (parser, events, .ok true) =>
      let pushed := pushPackets parser
      (pushed.1, events ++ pushed.2.1, pushed.2.2)
  else pushPackets parser

/-- The socket's reads, up to one that throws: its error is the end of the socket. -/
def pushAll (parser : VideoServerStreamParser) :
    List Bytes → VideoServerStreamParser × List Event × Option Thrown
  | [] => (parser, [], none)
  | chunk :: chunks =>
    let pushed := push parser chunk
    match pushed.2.2 with
    | some thrown => (pushed.1, pushed.2.1, some thrown)
    | none =>
      let later := pushAll pushed.1 chunks
      (later.1, pushed.2.1 ++ later.2.1, later.2.2)

end Parser

end AutoMobile.VideoServer
