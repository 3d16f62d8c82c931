import AutoMobile.IncrementalScan
import AutoMobile.VideoServerStreamParser

/- The parser's events are those of a parse of the whole stream, however it is pushed. -/
namespace AutoMobile.VideoServer

open ByteRecords IncrementalScan List

section Reference

structure TrackEntry where
  trackId : Nat
  codecId : Nat
  param1 : Nat
  param2 : Nat
deriving DecidableEq, Repr

inductive Framing where
  | legacy (header : VideoServerStreamHeader)
  | muxed (tracks : List TrackEntry)
deriving DecidableEq, Repr

def Framing.headerBytes : Framing → Nat
  | .legacy _ => 12
  | .muxed _ => 16

theorem Framing.headerBytes_pos (framing : Framing) : 0 < framing.headerBytes := by
  cases framing with
  | legacy => exact Nat.succ_pos 11
  | muxed => exact Nat.succ_pos 15

def uint32At (bytes : Bytes) (position : Nat) : Nat := readBE ((bytes.drop position).take 4)

def uint64At (bytes : Bytes) (position : Nat) : Nat := readBE ((bytes.drop position).take 8)

/-- The declared size is the header's last field. -/
def Framing.size (framing : Framing) (bytes : Bytes) : Nat :=
  uint32At bytes (framing.headerBytes - 4)

/-- The header and the payload that it declares. -/
def Framing.packetBytes (framing : Framing) (bytes : Bytes) : Nat :=
  framing.headerBytes + framing.size bytes

/-- A packet whose size is within the cap, with all its bytes there. -/
def Framing.Complete (framing : Framing) (bytes : Bytes) : Prop :=
  framing.headerBytes ≤ bytes.length ∧ framing.size bytes ≤ MAX_PACKET_BYTES ∧
    framing.packetBytes bytes ≤ bytes.length

instance (framing : Framing) (bytes : Bytes) : Decidable (framing.Complete bytes) :=
  inferInstanceAs (Decidable (_ ∧ _ ∧ _))

/-- The flags and the timestamp from the bits of their field. -/
def fromBits (trackId codecId bits : Nat) (data : Bytes) : VideoServerPacket where
  trackId := trackId
  codecId := codecId
  data := data
  config := bits.testBit 63
  keyFrame := bits.testBit 62
  replayed := bits.testBit 61
  rotation := if bits.testBit 63 then some (bits / 2 ^ 59 % 4) else none
  ptsUs := toNumber (bits % 2 ^ 59)

/-- The last of the declarations of a track counts. -/
def declared (tracks : List TrackEntry) (trackId : Nat) : Option TrackEntry :=
  tracks.reverse.find? fun track => track.trackId = trackId

/-- A packet of an undeclared track is skipped. -/
def Framing.decode : Framing → Bytes → Option VideoServerPacket
  | .legacy header, packet => some (fromBits 1 header.codecId (uint64At packet 0) (packet.drop 12))
  | .muxed tracks, packet =>
    (declared tracks (uint32At packet 0)).map fun track =>
      fromBits (uint32At packet 0) track.codecId (uint64At packet 4) (packet.drop 16)

/-- The complete packets at the front, and the bytes after them. -/
def completePackets (framing : Framing) (bytes : Bytes) : List Bytes × Bytes :=
  if _complete : framing.Complete bytes then
    let later := completePackets framing (bytes.drop (framing.packetBytes bytes))
    (bytes.take (framing.packetBytes bytes) :: later.1, later.2)
  else ([], bytes)
termination_by bytes.length
decreasing_by
  have enough := _complete.1
  have positive := framing.headerBytes_pos
  unfold Framing.packetBytes
  rw [length_drop]
  omega

/-- The size over the cap that ends the packets, if that is what ends them. -/
def Framing.thrown (framing : Framing) (rest : Bytes) : Option Thrown :=
  if framing.headerBytes ≤ rest.length then
    assertWithinCap (framing.size rest) MAX_PACKET_BYTES "packet size"
  else none

def trackEntry (stream : Bytes) (index : Nat) : TrackEntry where
  trackId := uint32At stream (12 + 16 * index)
  codecId := uint32At stream (12 + 16 * index + 4)
  param1 := uint32At stream (12 + 16 * index + 8)
  param2 := uint32At stream (12 + 16 * index + 12)

def trackEntries (stream : Bytes) (count : Nat) : List TrackEntry :=
  (List.range count).map (trackEntry stream)

/-- The last H.264 track gives the header; without one there is none. -/
def headerOf (tracks : List TrackEntry) (version : Nat) : Option VideoServerStreamHeader :=
  (tracks.reverse.find? fun track => track.codecId = VIDEO_SERVER_CODEC_ID_H264).map fun track =>
    { codecId := track.codecId
      width := track.param1
      height := track.param2
      muxed := some true
      audio := some (tracks.any fun track =>
        track.trackId = VIDEO_SERVER_TRACK_ID_AUDIO &&
          track.codecId = VIDEO_SERVER_CODEC_ID_PCM16)
      muxVersion := some version }

structure Head where
  bytes : Nat
  framing : Framing
  header : Option VideoServerStreamHeader
deriving DecidableEq, Repr

def muxHead (stream : Bytes) : Head :=
  let tracks := trackEntries stream (uint32At stream 8)
  { bytes := 12 + 16 * uint32At stream 8
    framing := .muxed tracks
    header := headerOf tracks (uint32At stream 4) }

def legacyHead (stream : Bytes) : Head :=
  let header : VideoServerStreamHeader :=
    { codecId := uint32At stream 0, width := uint32At stream 4, height := uint32At stream 8 }
  { bytes := 12, framing := .legacy header, header := some header }

/-- The stream's header, once all of it is there. -/
def readHead (stream : Bytes) : Option Head :=
  if stream.length < 12 then none
  else if uint32At stream 0 = VIDEO_SERVER_CODEC_ID_AMUX then
    if uint32At stream 8 ≤ MAX_TRACK_COUNT ∧ (muxHead stream).bytes ≤ stream.length then
      some (muxHead stream)
    else none
  else some (legacyHead stream)

def headThrown (stream : Bytes) : Option Thrown :=
  if 12 ≤ stream.length ∧ uint32At stream 0 = VIDEO_SERVER_CODEC_ID_AMUX then
    assertWithinCap (uint32At stream 8) MAX_TRACK_COUNT "trackCount"
  else none

/-- A stream as its header, its complete packets and what is left, and what they are reported as. -/
structure Parsed where
  head : Bytes
  packets : List Bytes
  rest : Bytes
  events : List Event
  thrown : Option Thrown
deriving DecidableEq, Repr

def referenceParse (stream : Bytes) : Parsed :=
  match readHead stream with
  | none => { head := [], packets := [], rest := stream, events := [], thrown := headThrown stream }
  | some head =>
    let split := completePackets head.framing (stream.drop head.bytes)
    { head := stream.take head.bytes
      packets := split.1
      rest := split.2
      events := head.header.toList.map Event.header ++
        (split.1.filterMap head.framing.decode).map Event.packet
      thrown := head.framing.thrown split.2 }

theorem completePackets_complete {framing : Framing} {bytes : Bytes}
    (complete : framing.Complete bytes) :
    completePackets framing bytes = (bytes.take (framing.packetBytes bytes) ::
          (completePackets framing (bytes.drop (framing.packetBytes bytes))).1,
        (completePackets framing (bytes.drop (framing.packetBytes bytes))).2) := by
  rw [completePackets, dif_pos complete]

theorem completePackets_partly {framing : Framing} {bytes : Bytes}
    (partly : ¬framing.Complete bytes) : completePackets framing bytes = ([], bytes) := by
  rw [completePackets, dif_neg partly]

/-- The packets and the rest make up the bytes. -/
theorem completePackets_bytes (framing : Framing) (bytes : Bytes) :
    (completePackets framing bytes).1.flatten ++ (completePackets framing bytes).2 = bytes := by
  induction bytes using completePackets.induct framing with
  | case1 bytes complete ih =>
    rw [completePackets_complete complete, flatten_cons, append_assoc, ih, take_append_drop]
  | case2 bytes partly =>
    rw [completePackets_partly partly]
    rfl

theorem referenceParse_bytes (stream : Bytes) :
    (referenceParse stream).head ++ (referenceParse stream).packets.flatten ++
      (referenceParse stream).rest = stream := by
  unfold referenceParse
  split
  next => rfl
  next head found =>
    dsimp only
    rw [append_assoc, completePackets_bytes, take_append_drop]

end Reference

section Scanning

/-- What the stream's next bytes are. -/
inductive Phase where
  | header
  | packets (framing : Framing)
deriving DecidableEq, Repr

/-- The next header or packet, once all its bytes are there. -/
def takeUnit : Phase → Bytes → Option (Phase × List Event × Bytes)
  | .header, bytes =>
    (readHead bytes).map fun head =>
      (.packets head.framing, head.header.toList.map Event.header, bytes.drop head.bytes)
  | .packets framing, bytes =>
    if framing.Complete bytes then
      some (.packets framing,
        (framing.decode (bytes.take (framing.packetBytes bytes))).toList.map Event.packet,
        bytes.drop (framing.packetBytes bytes))
    else none

variable {bytes : Bytes}

theorem uint32At_append {position : Nat} (enough : position + 4 ≤ bytes.length) (more : Bytes) :
    uint32At (bytes ++ more) position = uint32At bytes position := by
  unfold uint32At
  rw [drop_append_of_le_length (by omega), take_append_of_le_length (by rw [length_drop]; omega)]

theorem Framing.size_append {framing : Framing} (enough : framing.headerBytes ≤ bytes.length)
    (more : Bytes) :
    framing.size (bytes ++ more) = framing.size bytes := by
  have atLeast : 12 ≤ framing.headerBytes := by
    cases framing with
    | legacy => exact Nat.le_refl 12
    | muxed => exact Nat.le_add_right 12 4
  exact uint32At_append (by omega) more

theorem Framing.Complete.append {framing : Framing} (complete : framing.Complete bytes)
    (more : Bytes) :
    framing.Complete (bytes ++ more) ∧
      framing.packetBytes (bytes ++ more) = framing.packetBytes bytes := by
  obtain ⟨enough, capped, whole⟩ := complete
  have size := Framing.size_append enough more
  have same : framing.packetBytes (bytes ++ more) = framing.packetBytes bytes := by
    unfold Framing.packetBytes
    rw [size]
  refine ⟨⟨?_, ?_, ?_⟩, same⟩
  · rw [length_append]
    omega
  · rw [size]
    exact capped
  · rw [same, length_append]
    omega

theorem trackEntries_append {count : Nat} (enough : 12 + 16 * count ≤ bytes.length) (more : Bytes) :
    trackEntries (bytes ++ more) count = trackEntries bytes count := by
  unfold trackEntries
  apply map_congr_left
  intro index member
  have within := mem_range.mp member
  unfold trackEntry
  rw [uint32At_append (by omega), uint32At_append (by omega), uint32At_append (by omega),
    uint32At_append (by omega)]

theorem readHead_append {head : Head} (found : readHead bytes = some head) (more : Bytes) :
    readHead (bytes ++ more) = some head ∧ 12 ≤ head.bytes ∧ head.bytes ≤ bytes.length := by
  unfold readHead at found ⊢
  split at found
  next => cases found
  next enough =>
    have long : 12 ≤ bytes.length := Nat.not_lt.mp enough
    have longer : ¬(bytes ++ more).length < 12 := by
      rw [length_append]
      omega
    rw [if_neg longer, uint32At_append (by omega), uint32At_append (by omega)]
    split at found
    next mux =>
      rw [if_pos mux]
      split at found
      next whole =>
        cases found
        have size : (muxHead bytes).bytes = 12 + 16 * uint32At bytes 8 := rfl
        have same : muxHead (bytes ++ more) = muxHead bytes := by
          unfold muxHead
          rw [uint32At_append (by omega), uint32At_append (by omega),
            trackEntries_append (size ▸ whole.2)]
        rw [same, if_pos ⟨whole.1, by rw [length_append]; omega⟩]
        exact ⟨rfl, by omega, whole.2⟩
      next => cases found
    next legacy =>
      rw [if_neg legacy]
      cases found
      have same : legacyHead (bytes ++ more) = legacyHead bytes := by
        unfold legacyHead
        rw [uint32At_append (by omega), uint32At_append (by omega), uint32At_append (by omega)]
      rw [same]
      exact ⟨rfl, Nat.le_refl 12, long⟩

theorem takeUnit_shorter {phase next : Phase} {rest : Bytes} {events : List Event}
    (taken : takeUnit phase bytes = some (next, events, rest)) : rest.length < bytes.length := by
  cases phase with
  | header =>
    obtain ⟨head, found, unit⟩ := Option.map_eq_some_iff.mp taken
    obtain ⟨-, least, within⟩ := readHead_append found []
    cases unit
    rw [length_drop]
    omega
  | packets framing =>
    unfold takeUnit at taken
    dsimp only at taken
    split at taken
    next complete =>
      obtain ⟨enough, -, -⟩ := complete
      have positive := framing.headerBytes_pos
      cases taken
      unfold Framing.packetBytes
      rw [length_drop]
      omega
    next => cases taken

theorem takeUnit_stable {phase next : Phase} {rest : Bytes} {events : List Event}
    (taken : takeUnit phase bytes = some (next, events, rest)) (more : Bytes) :
    takeUnit phase (bytes ++ more) = some (next, events, rest ++ more) := by
  cases phase with
  | header =>
    obtain ⟨head, found, unit⟩ := Option.map_eq_some_iff.mp taken
    obtain ⟨same, -, within⟩ := readHead_append found more
    cases unit
    show (readHead (bytes ++ more)).map _ = _
    rw [same, ← drop_append_of_le_length within]
    rfl
  | packets framing =>
    unfold takeUnit at taken ⊢
    dsimp only at taken ⊢
    split at taken
    next complete =>
      obtain ⟨longer, same⟩ := complete.append more
      obtain ⟨-, -, whole⟩ := complete
      rw [if_pos longer, same, take_append_of_le_length whole, drop_append_of_le_length whole]
      cases taken
      rfl
    next => cases taken

def scanner : Scanner Phase UInt8 Event where
  take := takeUnit
  shorter := takeUnit_shorter
  stable := takeUnit_stable

theorem drain_packets (framing : Framing) (bytes : Bytes) : drain scanner (.packets framing) bytes =
      (.packets framing,
        ((completePackets framing bytes).1.filterMap framing.decode).map Event.packet,
        (completePackets framing bytes).2) := by
  induction bytes using completePackets.induct framing with
  | case1 bytes complete ih =>
    have taken : scanner.take (.packets framing) bytes = _ := if_pos complete
    rw [completePackets_complete complete, drain_some taken, ih]
    dsimp only
    rw [filterMap_cons]
    cases framing.decode (bytes.take (framing.packetBytes bytes)) <;> rfl
  | case2 bytes partly =>
    have stuck : scanner.take (.packets framing) bytes = none := if_neg partly
    rw [completePackets_partly partly, drain_none stuck]
    rfl

/-- Whether more input cannot help: what is left declares a number over its cap. -/
def Phase.thrown : Phase → Bytes → Option Thrown
  | .header, left => headThrown left
  | .packets framing, left => framing.thrown left

/-- The scanner drains what the reference parses. -/
theorem drain_reference (stream : Bytes) :
    (drain scanner .header stream).2 = ((referenceParse stream).events, (referenceParse stream).rest) ∧
      (drain scanner .header stream).1.thrown (referenceParse stream).rest =
        (referenceParse stream).thrown := by
  unfold referenceParse
  cases found : readHead stream with
  | none =>
    have stuck : scanner.take .header stream = none := by
      show (readHead stream).map _ = none
      rw [found]
      rfl
    rw [drain_none stuck]
    exact ⟨rfl, rfl⟩
  | some head =>
    have taken : scanner.take .header stream =
        some (.packets head.framing, head.header.toList.map Event.header,
          stream.drop head.bytes) := by
      show (readHead stream).map _ = _
      rw [found]
      rfl
    rw [drain_some taken, drain_packets]
    exact ⟨rfl, rfl⟩

end Scanning

end AutoMobile.VideoServer
