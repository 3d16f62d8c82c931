import AutoMobile.ByteRecords

/- The framing of a screen capture: the helper's headers, and the decoder of its output. -/
namespace AutoMobile.CaptureFrames

open ByteRecords List

section Helper

def headerSize : Nat := 24
def magic : UInt32 := 0x31464D41
def fieldsOffset : Nat := 8
def audioSampleRate : UInt32 := 8000
def audioChannelCount : UInt32 := 1
def encodedVideoHeightBase : UInt32 := 0xE2640000
def encodedVideoKeyframeBit : UInt32 := 0x00000001

structure Header where
  width : UInt32
  height : UInt32
  bytesPerRow : UInt32
  timestampMs : UInt32
deriving DecidableEq, Repr

namespace FrameProtocol

def crc32Shift (remainder : UInt32) : UInt32 :=
  if remainder &&& 1 ≠ 0 then (0xEDB88320 : UInt32) ^^^ (remainder >>> 1) else remainder >>> 1

def crc32Table : List UInt32 :=
  (List.range 256).map fun index => Nat.repeat crc32Shift 8 (UInt32.ofNat index)

def crc32Step (crc : UInt32) (byte : UInt8) : UInt32 :=
  (crc >>> 8) ^^^ crc32Table.getD ((crc ^^^ byte.toUInt32) &&& 0xFF).toNat 0

def crc32 (data : Bytes) : UInt32 := data.foldl crc32Step 0xFFFFFFFF ^^^ 0xFFFFFFFF

def encodeHeader (header : Header) : Bytes :=
  let data := alloc headerSize
  let data := writeUInt32LE data magic.toNat 0
  let data := writeUInt32LE data header.width.toNat 8
  let data := writeUInt32LE data header.height.toNat 12
  let data := writeUInt32LE data header.bytesPerRow.toNat 16
  let data := writeUInt32LE data header.timestampMs.toNat 20
  let checksum := crc32 (subarray data fieldsOffset headerSize)
  writeUInt32LE data checksum.toNat 4

/-- `UInt32(payloadLength)` traps from `2 ^ 32` on; no record is that long. -/
def encodeAudioHeader (payloadLength : Nat) : Bytes :=
  encodeHeader
    { width := 0
      height := audioSampleRate
      bytesPerRow := audioChannelCount
      timestampMs := UInt32.ofNat payloadLength }

def encodeEncodedVideoHeader (payloadLength : Nat) (isKeyframe : Bool)
    (presentationTimestampMs : UInt32) : Bytes :=
  let keyframeBit := if isKeyframe then encodedVideoKeyframeBit else 0
  encodeHeader
    { width := 0
      height := encodedVideoHeightBase ||| keyframeBit
      bytesPerRow := UInt32.ofNat payloadLength
      timestampMs := presentationTimestampMs }

end FrameProtocol

end Helper

section Headers

def FRAME_MAGIC : Nat := 0x31464d41
def FRAME_MAGIC_BYTES : Bytes := [0x41, 0x4d, 0x46, 0x31]
def FRAME_HEADER_SIZE : Nat := 24
def HEADER_FIELDS_OFFSET : Nat := 8
def MAX_AUDIO_PAYLOAD_BYTES : Nat := 16 * 1024 * 1024
def MAX_ENCODED_VIDEO_PAYLOAD_BYTES : Nat := 16 * 1024 * 1024
def MAX_RECORD_PAYLOAD_BYTES : Nat := max MAX_AUDIO_PAYLOAD_BYTES MAX_ENCODED_VIDEO_PAYLOAD_BYTES
def ENCODED_VIDEO_HEIGHT_BASE : Nat := 0xe2640000
def ENCODED_VIDEO_HEIGHT_MASK : Nat := 0xfffffffe
def ENCODED_VIDEO_KEYFRAME_BIT : Nat := 0x00000001

structure FrameHeader where
  width : Nat
  height : Nat
  bytesPerRow : Nat
  timestampMs : Nat
deriving DecidableEq, Repr

inductive MalformedFrameReason where
  | header_magic_mismatch
  | header_checksum_mismatch
  | header_unsupported_record
  | audio_payload_too_large
  | encoded_video_payload_too_large
deriving DecidableEq, Repr

/-- A callback, or the error thrown at the buffer limit. -/
inductive Report where
  | audio (pcm16le : Bytes)
  | encodedVideo (keyframe : Bool) (presentationTimestampMs : Nat) (payload : Bytes)
  | malformed (reason : MalformedFrameReason) (header : FrameHeader)
  | limitReached
deriving DecidableEq, Repr

/-- The inner loop of `buildCrc32Table`. -/
def tableShift (c : UInt32) : UInt32 :=
  if c &&& 1 ≠ 0 then (0xedb88320 : UInt32) ^^^ (c >>> 1) else c >>> 1

def CRC32_TABLE : List UInt32 :=
  (List.range 256).map fun n => Nat.repeat tableShift 8 (UInt32.ofNat n)

def tableStep (crc : UInt32) (byte : UInt8) : UInt32 :=
  (crc >>> 8) ^^^ CRC32_TABLE.getD ((crc ^^^ byte.toUInt32) &&& 0xff).toNat 0

def crc32 (data : Bytes) : Nat := (data.foldl tableStep 0xffffffff ^^^ 0xffffffff).toNat

example : crc32 [0x31, 0x32, 0x33, 0x34, 0x35, 0x36, 0x37, 0x38, 0x39] = 0xcbf43926 := by
  decide +kernel

def isAudioHeader (header : FrameHeader) : Bool :=
  header.width = 0 && header.height = 8000 && header.bytesPerRow = 1

def isEncodedVideoHeader (header : FrameHeader) : Bool :=
  header.width = 0 && header.height &&& ENCODED_VIDEO_HEIGHT_MASK = ENCODED_VIDEO_HEIGHT_BASE

def payloadSize (header : FrameHeader) : Nat :=
  if isAudioHeader header then header.timestampMs else header.bytesPerRow

def parseFields (buffer : Bytes) (offset : Nat) : FrameHeader where
  width := readUInt32LE buffer (offset + 8)
  height := readUInt32LE buffer (offset + 12)
  bytesPerRow := readUInt32LE buffer (offset + 16)
  timestampMs := readUInt32LE buffer (offset + 20)

def fieldBoundsError (header : FrameHeader) : Option MalformedFrameReason :=
  if isAudioHeader header then
    if MAX_AUDIO_PAYLOAD_BYTES < header.timestampMs then some .audio_payload_too_large else none
  else if isEncodedVideoHeader header then
    if MAX_ENCODED_VIDEO_PAYLOAD_BYTES < header.bytesPerRow then
      some .encoded_video_payload_too_large
    else none
  else some .header_unsupported_record

def headerErrorAt (buffer : Bytes) (offset : Nat) : Option MalformedFrameReason :=
  if readUInt32LE buffer offset ≠ FRAME_MAGIC then some .header_magic_mismatch
  else if readUInt32LE buffer (offset + 4) ≠
      crc32 (subarray buffer (offset + HEADER_FIELDS_OFFSET) (offset + FRAME_HEADER_SIZE)) then
    some .header_checksum_mismatch
  else fieldBoundsError (parseFields buffer offset)

def emitRecord (header : FrameHeader) (payload : Bytes) : Report :=
  if isAudioHeader header then .audio payload
  else
    .encodedVideo (header.height &&& ENCODED_VIDEO_KEYFRAME_BIT ≠ 0) header.timestampMs payload

end Headers

section Decoder

structure FrameDecoder where
  buffer : Bytes := []
  pendingHeader : Option FrameHeader := none
  highWaterMarkBytes : Nat := 0
  resynchronizing : Bool := false
deriving DecidableEq, Repr

/-- `buffer.indexOf(FRAME_MAGIC_BYTES, searchFrom)`. -/
def indexOfMagic (buffer : Bytes) (searchFrom : Nat) : Option Nat :=
  (List.range (buffer.length + 1)).find? fun index =>
    searchFrom ≤ index && FRAME_MAGIC_BYTES.isPrefixOf (buffer.drop index)

variable {index : Nat} {decoder : FrameDecoder}

theorem indexOfMagic_le {buffer : Bytes} {searchFrom : Nat}
    (found : indexOfMagic buffer searchFrom = some index) : searchFrom ≤ index := by
  have here := find?_some found
  simp only [Bool.and_eq_true, decide_eq_true_eq] at here
  exact here.1

/-- Where the search for a marker ends: at a marker whose header is not all there, at a valid
header, or at neither. -/
inductive Search where
  | incomplete (index : Nat)
  | valid (index : Nat)
  | exhausted
deriving DecidableEq, Repr

/-- The loop of `resynchronize`. -/
def searchMarker (buffer : Bytes) (searchFrom : Nat) : Search :=
  if _within : searchFrom + FRAME_MAGIC_BYTES.length ≤ buffer.length then
    match found : indexOfMagic buffer searchFrom with
    | none => .exhausted
    | some index =>
      if buffer.length < index + FRAME_HEADER_SIZE then .incomplete index
      else if headerErrorAt buffer index = none then .valid index
      else searchMarker buffer (index + 1)
  else .exhausted
termination_by buffer.length - searchFrom
decreasing_by
  have later := indexOfMagic_le found
  simp only [FRAME_MAGIC_BYTES, length_cons, length_nil] at _within
  omega

def resynchronize (decoder : FrameDecoder) : FrameDecoder × Bool :=
  let buffer := decoder.buffer
  match searchMarker buffer 0 with
  | .incomplete index => ({ decoder with buffer := buffer.drop index }, false)
  | .valid index => ({ decoder with buffer := buffer.drop index, resynchronizing := false }, true)
  | .exhausted =>
    ({ decoder with buffer := buffer.drop (buffer.length - (FRAME_MAGIC_BYTES.length - 1)) }, false)

inductive HeaderOutcome where
  | starved
  | malformed (report : Report)
  | header (header : FrameHeader)
deriving DecidableEq, Repr

def takeHeader (decoder : FrameDecoder) : FrameDecoder × HeaderOutcome :=
  if decoder.buffer.length < FRAME_HEADER_SIZE then (decoder, .starved)
  else
    match headerErrorAt decoder.buffer 0 with
    | some reason =>
      ({ decoder with resynchronizing := true },
        .malformed (.malformed reason (parseFields decoder.buffer 0)))
    | none =>
      ({ decoder with buffer := decoder.buffer.drop FRAME_HEADER_SIZE },
        .header (parseFields decoder.buffer 0))

/-- One turn of the loop of `decodeAvailable`: whether the loop goes on, and whether this turn made
progress. -/
structure Turn where
  decoder : FrameDecoder
  reports : List Report := []
  again : Bool := false
  progress : Bool := false
deriving DecidableEq, Repr

def takePayload (decoder : FrameDecoder) (pending : FrameHeader) (progress : Bool) : Turn :=
  let expected := payloadSize pending
  if decoder.buffer.length < expected then { decoder, progress }
  else
    { decoder := { decoder with buffer := decoder.buffer.drop expected, pendingHeader := none }
      reports := [emitRecord pending (decoder.buffer.take expected)]
      again := true
      progress := true }

/-- The turn, once alignment is not in question. -/
def alignedTurn (decoder : FrameDecoder) : Turn :=
  match decoder.pendingHeader with
  | some pending => takePayload decoder pending false
  | none =>
    match takeHeader decoder with
    | (decoder, .starved) => { decoder }
    | (decoder, .malformed report) =>
      { decoder, reports := [report], again := true, progress := true }
    | (decoder, .header header) =>
      takePayload { decoder with pendingHeader := some header } header true

def turn (decoder : FrameDecoder) : Turn :=
  if decoder.resynchronizing then
    let (next, aligned) := resynchronize decoder
    if aligned then alignedTurn next else { decoder := next }
  else alignedTurn decoder

theorem byteAt_drop (buffer : Bytes) (start index : Nat) :
    byteAt (buffer.drop start) index = byteAt buffer (start + index) := by
  simp only [byteAt, getD_eq_getElem?_getD, getElem?_drop]

theorem readUInt32LE_drop (buffer : Bytes) (start index : Nat) :
    readUInt32LE (buffer.drop start) index = readUInt32LE buffer (start + index) := by
  simp only [readUInt32LE, byteAt_drop, Nat.add_assoc]

theorem parseFields_drop (buffer : Bytes) (start : Nat) :
    parseFields (buffer.drop start) 0 = parseFields buffer start := by
  simp only [parseFields, readUInt32LE_drop, Nat.zero_add]

/-- A header is judged alike wherever the buffer begins. -/
theorem headerErrorAt_drop (buffer : Bytes) (start : Nat) :
    headerErrorAt (buffer.drop start) 0 = headerErrorAt buffer start := by
  have fields : subarray (buffer.drop start) (0 + HEADER_FIELDS_OFFSET) (0 + FRAME_HEADER_SIZE) =
      subarray buffer (start + HEADER_FIELDS_OFFSET) (start + FRAME_HEADER_SIZE) := by
    unfold subarray
    rw [drop_drop]
    have width : 0 + FRAME_HEADER_SIZE - (0 + HEADER_FIELDS_OFFSET) =
        start + FRAME_HEADER_SIZE - (start + HEADER_FIELDS_OFFSET) := by omega
    rw [width, Nat.zero_add]
  unfold headerErrorAt
  rw [readUInt32LE_drop, readUInt32LE_drop, parseFields_drop, fields, Nat.add_zero, Nat.zero_add]

theorem searchMarker_valid {buffer : Bytes} {searchFrom : Nat}
    (found : searchMarker buffer searchFrom = .valid index) :
    index + FRAME_HEADER_SIZE ≤ buffer.length ∧ headerErrorAt buffer index = none := by
  fun_induction searchMarker buffer searchFrom with
  | case1 | case2 | case5 => cases found
  | case3 searchFrom within here search whole sound =>
    cases found
    exact ⟨Nat.not_lt.mp whole, sound⟩
  | case4 searchFrom within here search whole unsound ih => exact ih found

/-- What the turns of the loop use up: bytes, a header taken in, and the alignment. -/
def FrameDecoder.pendingWork (decoder : FrameDecoder) : Nat :=
  2 * (decoder.buffer.length + if decoder.pendingHeader.isSome then FRAME_HEADER_SIZE - 1 else 0) +
    if decoder.resynchronizing then 0 else 1

theorem takePayload_work (pending : FrameHeader) (progress : Bool)
    (held : decoder.pendingHeader.isSome = true) :
    (takePayload decoder pending progress = { decoder, progress } ∧
        decoder.buffer.length < payloadSize pending) ∨
      (takePayload decoder pending progress).decoder.pendingWork + 2 ≤ decoder.pendingWork := by
  unfold takePayload
  dsimp only
  split
  next short => exact Or.inl ⟨rfl, short⟩
  next =>
    refine Or.inr ?_
    unfold FrameDecoder.pendingWork FRAME_HEADER_SIZE
    simp only [held, length_drop, Option.isSome_none, if_true, Bool.false_eq_true, if_false]
    omega

theorem takeHeader_starved (short : decoder.buffer.length < FRAME_HEADER_SIZE) :
    takeHeader decoder = (decoder, .starved) := by
  unfold takeHeader
  rw [if_pos short]

theorem takeHeader_malformed {reason : MalformedFrameReason}
    (enough : FRAME_HEADER_SIZE ≤ decoder.buffer.length)
    (wrong : headerErrorAt decoder.buffer 0 = some reason) :
    takeHeader decoder = ({ decoder with resynchronizing := true },
      .malformed (.malformed reason (parseFields decoder.buffer 0))) := by
  unfold takeHeader
  rw [if_neg (Nat.not_lt.mpr enough), wrong]

theorem takeHeader_valid (enough : FRAME_HEADER_SIZE ≤ decoder.buffer.length)
    (sound : headerErrorAt decoder.buffer 0 = none) :
    takeHeader decoder = ({ decoder with buffer := decoder.buffer.drop FRAME_HEADER_SIZE },
      .header (parseFields decoder.buffer 0)) := by
  unfold takeHeader
  rw [if_neg (Nat.not_lt.mpr enough), sound]

/-- An aligned turn that makes progress has taken bytes, or lost the alignment. -/
theorem alignedTurn_progress (progress : (alignedTurn decoder).progress = true) :
    (alignedTurn decoder).decoder.pendingWork + 2 ≤ decoder.pendingWork ∨
      (headerErrorAt decoder.buffer 0 ≠ none ∧
        (alignedTurn decoder).decoder = { decoder with resynchronizing := true }) := by
  unfold alignedTurn at progress ⊢
  cases held : decoder.pendingHeader with
  | some pending =>
    rw [held] at progress
    have present : decoder.pendingHeader.isSome = true := by rw [held]; rfl
    rcases takePayload_work pending false present with ⟨stopped, _⟩ | taken
    · dsimp only at progress
      rw [stopped] at progress
      cases progress
    · exact Or.inl taken
  | none =>
    rw [held] at progress
    dsimp only at progress ⊢
    by_cases short : decoder.buffer.length < FRAME_HEADER_SIZE
    · rw [takeHeader_starved short] at progress
      cases progress
    · have enough := Nat.not_lt.mp short
      cases judged : headerErrorAt decoder.buffer 0 with
      | some reason =>
        rw [takeHeader_malformed enough judged]
        exact Or.inr ⟨by simp, by simp [held]⟩
      | none =>
        rw [takeHeader_valid enough judged]
        dsimp only
        have less : FrameDecoder.pendingWork
            { decoder with
              buffer := decoder.buffer.drop FRAME_HEADER_SIZE
              pendingHeader := some (parseFields decoder.buffer 0) } + 2 =
            decoder.pendingWork := by
          unfold FRAME_HEADER_SIZE at enough
          unfold FrameDecoder.pendingWork FRAME_HEADER_SIZE
          simp only [held, length_drop, Option.isSome_some, Option.isSome_none, if_true,
            Bool.false_eq_true, if_false]
          omega
        have taken := @takePayload_work
          { decoder with
            buffer := decoder.buffer.drop FRAME_HEADER_SIZE
            pendingHeader := some (parseFields decoder.buffer 0) }
          (parseFields decoder.buffer 0) true rfl
        rcases taken with ⟨stopped, _⟩ | taken
        · rw [stopped]
          exact Or.inl (Nat.le_of_eq less)
        · exact Or.inl (by omega)

theorem turn_aligned (aligned : decoder.resynchronizing = false) :
    turn decoder = alignedTurn decoder := by
  unfold turn
  rw [aligned, if_neg Bool.false_ne_true]

theorem turn_incomplete (lost : decoder.resynchronizing = true)
    (search : searchMarker decoder.buffer 0 = .incomplete index) :
    turn decoder = { decoder := { decoder with buffer := decoder.buffer.drop index } } := by
  unfold turn resynchronize
  rw [if_pos lost]
  dsimp only
  rw [search]
  rfl

theorem turn_exhausted (lost : decoder.resynchronizing = true)
    (search : searchMarker decoder.buffer 0 = .exhausted) :
    turn decoder = { decoder :=
          { decoder with
            buffer :=
              decoder.buffer.drop (decoder.buffer.length - (FRAME_MAGIC_BYTES.length - 1)) } } := by
  unfold turn resynchronize
  rw [if_pos lost]
  dsimp only
  rw [search]
  rfl

theorem turn_valid (lost : decoder.resynchronizing = true)
    (search : searchMarker decoder.buffer 0 = .valid index) :
    turn decoder = alignedTurn
        { decoder with buffer := decoder.buffer.drop index, resynchronizing := false } := by
  unfold turn resynchronize
  rw [if_pos lost]
  dsimp only
  rw [search]
  rfl

theorem turn_smaller (progress : (turn decoder).progress = true) :
    (turn decoder).decoder.pendingWork < decoder.pendingWork := by
  cases lost : decoder.resynchronizing with
  | false =>
    rw [turn_aligned lost] at progress ⊢
    rcases alignedTurn_progress progress with less | ⟨_, next⟩
    · omega
    · rw [next]
      unfold FrameDecoder.pendingWork
      simp [lost]
  | true =>
    cases search : searchMarker decoder.buffer 0 with
    | incomplete index =>
      rw [turn_incomplete lost search] at progress
      cases progress
    | exhausted =>
      rw [turn_exhausted lost search] at progress
      cases progress
    | valid index =>
      rw [turn_valid lost search] at progress ⊢
      have sound := (searchMarker_valid search).2
      rw [← headerErrorAt_drop] at sound
      have less : FrameDecoder.pendingWork
          { decoder with
            buffer := decoder.buffer.drop index
            resynchronizing := false } ≤ decoder.pendingWork + 1 := by
        unfold FrameDecoder.pendingWork
        simp only [lost, length_drop, if_true, Bool.false_eq_true, if_false]
        omega
      rcases alignedTurn_progress progress with smaller | ⟨wrong, _⟩
      · omega
      · exact absurd sound wrong

theorem takePayload_again {pending : FrameHeader} {progress : Bool}
    (again : (takePayload decoder pending progress).again = true) :
    (takePayload decoder pending progress).progress = true ∧
      (takePayload decoder pending progress).decoder.pendingHeader = none := by
  unfold takePayload at again ⊢
  dsimp only at again ⊢
  split at again
  next => cases again
  next long =>
    rw [if_neg long]
    exact ⟨rfl, rfl⟩

theorem alignedTurn_again (again : (alignedTurn decoder).again = true) :
    (alignedTurn decoder).progress = true ∧ (alignedTurn decoder).decoder.pendingHeader = none := by
  unfold alignedTurn at again ⊢
  cases held : decoder.pendingHeader with
  | some pending =>
    rw [held] at again
    exact takePayload_again again
  | none =>
    rw [held] at again
    dsimp only at again ⊢
    by_cases short : decoder.buffer.length < FRAME_HEADER_SIZE
    · rw [takeHeader_starved short] at again
      cases again
    · have enough := Nat.not_lt.mp short
      cases judged : headerErrorAt decoder.buffer 0 with
      | some reason =>
        rw [takeHeader_malformed enough judged]
        exact ⟨rfl, held⟩
      | none =>
        rw [takeHeader_valid enough judged] at again ⊢
        exact takePayload_again again

/-- Where the loop goes on, it has made progress and holds no header. -/
theorem turn_again (again : (turn decoder).again = true) :
    (turn decoder).progress = true ∧ (turn decoder).decoder.pendingHeader = none := by
  cases lost : decoder.resynchronizing with
  | false =>
    rw [turn_aligned lost] at again ⊢
    exact alignedTurn_again again
  | true =>
    cases search : searchMarker decoder.buffer 0 with
    | incomplete index =>
      rw [turn_incomplete lost search] at again
      cases again
    | exhausted =>
      rw [turn_exhausted lost search] at again
      cases again
    | valid index =>
      rw [turn_valid lost search] at again ⊢
      exact alignedTurn_again again

theorem takePayload_true (decoder : FrameDecoder) (pending : FrameHeader) :
    (takePayload decoder pending true).progress = true := by
  unfold takePayload
  dsimp only
  split <;> rfl

/-- Without a header taken in, an aligned turn makes no progress only where a header is not all
there. -/
theorem alignedTurn_idle (free : decoder.pendingHeader = none)
    (idle : (alignedTurn decoder).progress = false) :
    alignedTurn decoder = { decoder } ∧ decoder.buffer.length < FRAME_HEADER_SIZE := by
  unfold alignedTurn at idle ⊢
  rw [free] at idle ⊢
  dsimp only at idle ⊢
  by_cases short : decoder.buffer.length < FRAME_HEADER_SIZE
  · rw [takeHeader_starved short]
    exact ⟨rfl, short⟩
  · have enough := Nat.not_lt.mp short
    cases judged : headerErrorAt decoder.buffer 0 with
    | some reason =>
      rw [takeHeader_malformed enough judged] at idle
      cases idle
    | none =>
      rw [takeHeader_valid enough judged] at idle
      dsimp only at idle
      rw [takePayload_true] at idle
      cases idle

/-- A turn that holds no header leaves no more work than it finds. -/
theorem turn_le (free : decoder.pendingHeader = none) :
    (turn decoder).decoder.pendingWork ≤ decoder.pendingWork := by
  cases progress : (turn decoder).progress with
  | true => exact Nat.le_of_lt (turn_smaller progress)
  | false =>
    have shrunk : ∀ count, FrameDecoder.pendingWork
        { decoder with buffer := decoder.buffer.drop count } ≤ decoder.pendingWork := by
      intro count
      unfold FrameDecoder.pendingWork
      simp only [free, length_drop]
      omega
    cases lost : decoder.resynchronizing with
    | false =>
      rw [turn_aligned lost] at progress ⊢
      have same := congrArg Turn.decoder (alignedTurn_idle free progress).1
      exact Nat.le_of_eq (congrArg FrameDecoder.pendingWork same)
    | true =>
      cases search : searchMarker decoder.buffer 0 with
      | incomplete index =>
        rw [turn_incomplete lost search]
        exact shrunk index
      | exhausted =>
        rw [turn_exhausted lost search]
        exact shrunk _
      | valid index =>
        rw [turn_valid lost search] at progress
        have short : (decoder.buffer.drop index).length < FRAME_HEADER_SIZE :=
          (@alignedTurn_idle
            { decoder with buffer := decoder.buffer.drop index, resynchronizing := false }
            free progress).2
        have enough := (searchMarker_valid search).1
        rw [length_drop] at short
        omega

/-- The loop: what it leaves, its callbacks, and whether it made progress. -/
def decodeAvailable (decoder : FrameDecoder) : FrameDecoder × List Report × Bool :=
  if _again : (turn decoder).again = true then
    let later := decodeAvailable (turn decoder).decoder
    (later.1, (turn decoder).reports ++ later.2.1, true)
  else ((turn decoder).decoder, (turn decoder).reports, (turn decoder).progress)
termination_by decoder.pendingWork
decreasing_by exact turn_smaller (turn_again _again).1

def bufferLimit : Nat := FRAME_HEADER_SIZE + MAX_RECORD_PAYLOAD_BYTES

/-- `this.buffer.append`, with the high-water mark. -/
def append (decoder : FrameDecoder) (bytes : Bytes) : FrameDecoder :=
  { decoder with
    buffer := decoder.buffer ++ bytes
    highWaterMarkBytes := max decoder.highWaterMarkBytes (decoder.buffer ++ bytes).length }

theorem decodeAvailable_le (free : decoder.pendingHeader = none) :
    (decodeAvailable decoder).1.pendingWork ≤ decoder.pendingWork := by
  fun_induction decodeAvailable decoder with
  | case1 decoder again later ih =>
    have less := turn_smaller (turn_again again).1
    have rest := ih (turn_again again).2
    exact Nat.le_of_lt (Nat.lt_of_le_of_lt rest less)
  | case2 decoder stop => exact turn_le free

theorem decodeAvailable_progress (progress : (decodeAvailable decoder).2.2 = true) :
    (decodeAvailable decoder).1.pendingWork < decoder.pendingWork := by
  unfold decodeAvailable at progress ⊢
  split at progress
  next again =>
    rw [dif_pos again]
    have less := turn_smaller (turn_again again).1
    have rest := decodeAvailable_le (turn_again again).2
    dsimp only
    omega
  next stop =>
    rw [dif_neg stop]
    exact turn_smaller progress

/-- The loop of `push` over what is left of the chunk. -/
def push (decoder : FrameDecoder) (chunk : Bytes) : FrameDecoder × List Report :=
  if _more : chunk ≠ [] then
    let available := bufferLimit - decoder.buffer.length
    if _full : available = 0 then
      let decoded := decodeAvailable decoder
      if _progress : decoded.2.2 = true then
        let later := push decoded.1 chunk
        (later.1, decoded.2.1 ++ later.2)
      else (decoded.1, decoded.2.1 ++ [.limitReached])
    else
      let decoded := decodeAvailable (append decoder (chunk.take available))
      let later := push decoded.1 (chunk.drop available)
      (later.1, decoded.2.1 ++ later.2)
  else (decoder, [])
termination_by (chunk.length, decoder.pendingWork)
decreasing_by
  · exact Prod.Lex.right _ (decodeAvailable_progress _progress)
  · have long := length_pos_of_ne_nil _more
    have shorter : (chunk.drop available).length < chunk.length := by
      rw [length_drop]
      omega
    exact Prod.Lex.left _ _ shorter

end Decoder

end AutoMobile.CaptureFrames
