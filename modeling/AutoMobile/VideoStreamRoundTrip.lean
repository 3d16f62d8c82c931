import AutoMobile.VideoStreamScan

/- What the relay encodes is what the desktop's parser reports, however the bytes are cut. -/
namespace AutoMobile.VideoStream

open ByteRecords IncrementalScan List Runs

section Flags

/-- A flag of one bit. -/
theorem hasFlag_shift (bits position : Nat) :
    hasFlag bits (1 <<< position) = decide (bits / 2 ^ position % 2 = 1) := by
  unfold hasFlag
  rw [Nat.one_shiftLeft, Nat.and_two_pow, Nat.testBit_eq_decide_div_mod_eq]
  by_cases one : bits / 2 ^ position % 2 = 1
  · simp [one]
  · simp [one]

theorem and_PTS_MASK (bits : Nat) : bits &&& PTS_MASK = bits % 2 ^ 59 := by
  unfold PTS_MASK ROTATION_SHIFT
  rw [Nat.one_shiftLeft]
  exact Nat.and_two_pow_sub_one_eq_mod bits 59

theorem rotation_bits (bits : Nat) :
    (bits &&& ROTATION_MASK) >>> ROTATION_SHIFT = bits / 2 ^ 59 % 4 := by
  unfold ROTATION_MASK ROTATION_SHIFT
  rw [Nat.shiftRight_and_distrib, Nat.shiftLeft_shiftRight, Nat.shiftRight_eq_div_pow]
  exact Nat.and_two_pow_sub_one_eq_mod _ 2

/-- Flags above a number of 59 bits are added to it. -/
theorem or_flags {low flags high : Nat} (fits : low < 2 ^ 59) (same : flags = 2 ^ 59 * high) :
    low ||| flags = low + 2 ^ 59 * high := by
  rw [same, Nat.or_comm, ← Nat.two_pow_add_eq_or_of_lt fits high, Nat.add_comm]

/-- What a packet with the flags `high` above the number `low` is dispatched as. -/
theorem dispatchPacket_eq {low high : Nat} (fits : low < 2 ^ 59) (payload : Bytes) :
    dispatchPacket (low + 2 ^ 59 * high) payload = let isConfig := decide (high / 16 % 2 = 1)
      let isKeyFrame := decide (high / 8 % 2 = 1)
      let empty := decide (payload.length = 0)
      let isDroppedFrames := !isConfig && empty && decide (high % 2 = 1)
      let isHeartbeat := !isConfig && empty && decide (high / 2 % 2 = 1)
      if !isConfig && !isKeyFrame && empty && (!isHeartbeat && !isDroppedFrames) &&
          decide (high / 4 % 2 = 1) then
        noticeReport (subscriptionNotice low)
      else
        (.packet
          { payload := payload
            presentationTimeUs := low
            isConfig := isConfig
            isKeyFrame := isKeyFrame
            rotation := if isConfig && decide (high / 4 % 2 = 1) then some (high % 4) else none
            droppedFrames := if isDroppedFrames then some low else none
            heartbeat := isHeartbeat }, false) := by
  have config : (low + 2 ^ 59 * high) / 2 ^ 63 % 2 = high / 16 % 2 := by omega
  have key : (low + 2 ^ 59 * high) / 2 ^ 62 % 2 = high / 8 % 2 := by omega
  have notice : (low + 2 ^ 59 * high) / 2 ^ 61 % 2 = high / 4 % 2 := by omega
  have heartbeat : (low + 2 ^ 59 * high) / 2 ^ 60 % 2 = high / 2 % 2 := by omega
  have dropped : (low + 2 ^ 59 * high) / 2 ^ 59 % 2 = high % 2 := by omega
  have quarter : (low + 2 ^ 59 * high) / 2 ^ 59 % 4 = high % 4 := by omega
  have time : (low + 2 ^ 59 * high) % 2 ^ 59 = low := by omega
  unfold dispatchPacket packetRotation PACKET_FLAG_CONFIG PACKET_FLAG_KEY_FRAME
    PACKET_FLAG_DROPPED_FRAMES PACKET_FLAG_HEARTBEAT PACKET_FLAG_SUBSCRIPTION_NOTICE
    PACKET_FLAG_ROTATION_PRESENT
  rw [rotation_bits, and_PTS_MASK]
  simp only [hasFlag_shift, config, key, notice, heartbeat, dropped, quarter, time]

end Flags

section Events

/-- What the relay sends. -/
inductive RelayEvent where
  | packet (payload : Bytes) (presentationTimeUs : Nat) (isConfig isKeyFrame : Bool)
      (rotation : Option Nat)
  | droppedFrames (count : Nat)
  | heartbeat
  | notice (kind : SubscriptionNotice)
deriving DecidableEq, Repr

/-- Times and counts of 59 bits; a rotation is attested on config packets only. -/
def RelayEvent.Valid : RelayEvent → Prop
  | .packet _ presentationTimeUs isConfig _ rotation =>
    presentationTimeUs < 2 ^ 59 ∧ ∀ quarter ∈ rotation, isConfig = true ∧ quarter < 4
  | .droppedFrames count => count < 2 ^ 59
  | .heartbeat => True
  | .notice _ => True

def RelayEvent.encode : RelayEvent → Option Bytes
  | .packet payload presentationTimeUs isConfig isKeyFrame rotation =>
    encodePacket (encodePtsAndFlags presentationTimeUs isConfig isKeyFrame rotation) payload
  | .droppedFrames count => encodeDroppedFrames count
  | .heartbeat => encodeHeartbeat
  | .notice kind => encodeSubscriptionNotice kind

def SubscriptionNotice.received : SubscriptionNotice → VideoStreamNotice
  | .downgradedToViewer => .Downgraded
  | .deviceRemoved => .Ended .DeviceRemoved
  | .identityQuarantined => .Ended .IdentityQuarantined
  | .daemonShutdown => .Ended .DaemonShutdown
  | .sessionEnded => .Ended .SessionEnded
  | .deviceRestored => .Ended .DeviceRestored

/-- What the parser is to report for the event. -/
def RelayEvent.report : RelayEvent → Report
  | .packet payload presentationTimeUs isConfig isKeyFrame rotation =>
    .packet { payload, presentationTimeUs, isConfig, isKeyFrame, rotation }
  | .droppedFrames count =>
    .packet { payload := [], presentationTimeUs := count, isConfig := false, isKeyFrame := false,
              droppedFrames := some count }
  | .heartbeat =>
    .packet { payload := [], presentationTimeUs := 0, isConfig := false, isKeyFrame := false,
              heartbeat := true }
  | .notice kind => .notice kind.received

def RelayEvent.ends : RelayEvent → Bool
  | .notice .downgradedToViewer => false
  | .notice _ => true
  | _ => false

def RelayEvent.bits : RelayEvent → Nat
  | .packet _ presentationTimeUs isConfig isKeyFrame rotation =>
    encodePtsAndFlags presentationTimeUs isConfig isKeyFrame rotation
  | .droppedFrames count => PACKET_FLAG_DROPPED_FRAMES ||| (count &&& PTS_MASK)
  | .heartbeat => PACKET_FLAG_HEARTBEAT
  | .notice kind => PACKET_FLAG_SUBSCRIPTION_NOTICE ||| kind.code

def RelayEvent.payload : RelayEvent → Bytes
  | .packet payload _ _ _ _ => payload
  | _ => []

theorem RelayEvent.encode_eq (event : RelayEvent) :
    event.encode = encodePacket event.bits event.payload := by
  cases event with
  | packet payload presentationTimeUs isConfig isKeyFrame rotation => rfl
  | droppedFrames count => rfl
  | heartbeat => rfl
  | notice kind =>
    have unpadded : ∀ made : Option Bytes, made = made.bind fun header => some (header ++ []) := by
      intro made
      cases made with
      | none => rfl
      | some header => rw [Option.bind_some, append_nil]
    exact unpadded _

/-- The number and the flags of an event's header. -/
def RelayEvent.low : RelayEvent → Nat
  | .packet _ presentationTimeUs _ _ _ => presentationTimeUs
  | .droppedFrames count => count
  | .heartbeat => 0
  | .notice kind => kind.code

def RelayEvent.high : RelayEvent → Nat
  | .packet _ _ isConfig isKeyFrame rotation =>
    (if isConfig then 16 else 0) + (if isKeyFrame then 8 else 0) +
      (rotation.map fun quarter => 4 + quarter).getD 0
  | .droppedFrames _ => 1
  | .heartbeat => 2
  | .notice _ => 4

variable {event : RelayEvent}

theorem RelayEvent.low_lt (valid : event.Valid) : event.low < 2 ^ 59 := by
  cases event with
  | packet payload presentationTimeUs isConfig isKeyFrame rotation => exact valid.1
  | droppedFrames count => exact valid
  | heartbeat => decide
  | notice kind => cases kind <;> decide

theorem encodePtsAndFlags_eq {presentationTimeUs : Nat} (fits : presentationTimeUs < 2 ^ 59)
    (isConfig isKeyFrame : Bool) {rotation : Option Nat}
    (attested : ∀ quarter ∈ rotation, isConfig = true ∧ quarter < 4) :
    encodePtsAndFlags presentationTimeUs isConfig isKeyFrame rotation =
      presentationTimeUs + 2 ^ 59 *
        ((if isConfig then 16 else 0) + (if isKeyFrame then 8 else 0) +
          (rotation.map fun quarter => 4 + quarter).getD 0) := by
  have masked : presentationTimeUs &&& PTS_MASK = presentationTimeUs := by
    rw [and_PTS_MASK]
    exact Nat.mod_eq_of_lt fits
  unfold encodePtsAndFlags
  rw [masked]
  cases rotation with
  | none =>
    cases isConfig <;> cases isKeyFrame
    · rfl
    · exact or_flags fits (by decide)
    · exact or_flags fits (by decide)
    · simp only [if_true]
      rw [Nat.or_assoc]
      exact or_flags fits (by decide)
  | some quarter =>
    obtain ⟨rfl, small⟩ := attested quarter rfl
    simp only [if_true]
    cases isKeyFrame <;> interval_cases quarter <;> simp only [Nat.or_assoc, if_true,
      Bool.false_eq_true, if_false] <;> exact or_flags fits (by decide)

theorem RelayEvent.bits_eq (valid : event.Valid) :
    event.bits = event.low + 2 ^ 59 * event.high := by
  cases event with
  | packet payload presentationTimeUs isConfig isKeyFrame rotation =>
    exact encodePtsAndFlags_eq valid.1 isConfig isKeyFrame valid.2
  | droppedFrames count =>
    have fits : count < 2 ^ 59 := valid
    show PACKET_FLAG_DROPPED_FRAMES ||| (count &&& PTS_MASK) = count + 2 ^ 59 * 1
    rw [and_PTS_MASK, Nat.mod_eq_of_lt fits, Nat.or_comm]
    exact or_flags fits (by decide)
  | heartbeat => decide
  | notice kind => cases kind <;> decide

/-- An event's packet is dispatched as the event, and ends the stream where the event does. -/
theorem RelayEvent.dispatched (valid : event.Valid) :
    dispatchPacket event.bits event.payload = (event.report, event.ends) := by
  rw [bits_eq valid, dispatchPacket_eq (low_lt valid)]
  cases event with
  | packet payload presentationTimeUs isConfig isKeyFrame rotation =>
    cases rotation with
    | none =>
      cases isConfig <;> cases isKeyFrame <;>
        simp [low, high, report, ends, RelayEvent.payload]
    | some quarter =>
      obtain ⟨rfl, small⟩ := valid.2 quarter rfl
      cases isKeyFrame <;> interval_cases quarter <;>
        simp [low, high, report, ends, RelayEvent.payload]
  | droppedFrames count => simp [low, high, report, ends, RelayEvent.payload]
  | heartbeat => rfl
  | notice kind => cases kind <;> rfl

end Events

section Units

theorem writeBigInt64BE_asIntN {bits : Nat} (fits : bits < 2 ^ 64) :
    writeBigInt64BE (asIntN bits) = writeBE 8 bits := by
  have same : (asIntN bits % 2 ^ 64).toNat = bits := by
    unfold asIntN
    rw [show (2 : Int) ^ 64 = ((2 ^ 64 : Nat) : Int) from by norm_num, Int.bmod_emod]
    omega
  rw [writeBigInt64BE, same]

/-- A 32-bit number is read back, whatever follows. -/
theorem readInt_writeInt32BE {value : Int} {written : Bytes}
    (encoded : writeInt32BE value = some written) (more : Bytes) :
    written.length = 4 ∧ readInt (written ++ more) = value := by
  unfold writeInt32BE at encoded
  split at encoded
  next fits =>
    cases encoded
    have power : 256 ^ 4 = 2 ^ 32 := by norm_num
    have taken : (writeBE 4 (value % 2 ^ 32).toNat ++ more).take 4 =
        writeBE 4 (value % 2 ^ 32).toNat := take_left' (writeBE_length _ _)
    refine ⟨writeBE_length _ _, ?_⟩
    unfold readInt
    rw [taken, readBE_writeBE, power]
    dsimp only
    split <;> omega
  next => cases encoded

theorem readLong_writeBE {bits : Nat} (fits : bits < 2 ^ 64) (more : Bytes) :
    readLong (writeBE 8 bits ++ more) = bits := by
  have power : 256 ^ 8 = 2 ^ 64 := by norm_num
  have taken : (writeBE 8 bits ++ more).take 8 = writeBE 8 bits := take_left' (writeBE_length _ _)
  unfold readLong
  rw [taken, readBE_writeBE, power, Nat.mod_eq_of_lt fits]

theorem RelayEvent.bits_lt {event : RelayEvent} (valid : event.Valid) : event.bits < 2 ^ 64 := by
  have low := low_lt valid
  have high : event.high < 32 := by
    cases event with
    | packet payload presentationTimeUs isConfig isKeyFrame rotation =>
      have quarter : (rotation.map fun quarter => 4 + quarter).getD 0 < 8 := by
        cases rotation with
        | none => decide
        | some quarter =>
          have small := (valid.2 quarter rfl).2
          show 4 + quarter < 8
          omega
      show (if isConfig then 16 else 0) + (if isKeyFrame then 8 else 0) +
        (rotation.map fun quarter => 4 + quarter).getD 0 < 32
      split <;> split <;> omega
    | droppedFrames count => exact show 1 < 32 from by decide
    | heartbeat => decide
    | notice kind => exact show 4 < 32 from by decide
  rw [bits_eq valid]
  omega

/-- The bytes of an event are one unit of the stream. -/
theorem RelayEvent.take_encode {event : RelayEvent} {bytes : Bytes} (valid : event.Valid)
    (encoded : event.encode = some bytes) (more : Bytes) :
    scanner.take .packets (bytes ++ more) =
      some (if event.ends then .ended else .packets, [event.report], more) := by
  have fits := bits_lt valid
  rw [encode_eq] at encoded
  unfold encodePacket encodePacketHeader at encoded
  rw [writeBigInt64BE_asIntN fits] at encoded
  cases size : writeInt32BE event.payload.length with
  | none =>
    rw [size] at encoded
    cases encoded
  | some length =>
    rw [size] at encoded
    have whole : writeBE 8 event.bits ++ length ++ event.payload = bytes := by injection encoded
    obtain ⟨four, read⟩ := readInt_writeInt32BE size (event.payload ++ more)
    have layout : bytes ++ more = writeBE 8 event.bits ++ (length ++ (event.payload ++ more)) := by
      rw [← whole]
      simp only [append_assoc]
    have afterFlags : (bytes ++ more).drop 8 = length ++ (event.payload ++ more) := by
      rw [layout]
      exact drop_left' (writeBE_length _ _)
    have afterHeader : (bytes ++ more).drop 12 = event.payload ++ more := by
      rw [show 12 = 8 + 4 from rfl, ← drop_drop, afterFlags]
      exact drop_left' four
    have long : (bytes ++ more).length = 12 + (event.payload.length + more.length) := by
      rw [layout, length_append, length_append, length_append, writeBE_length, four]
      omega
    have flags : readLong (bytes ++ more) = event.bits := by
      rw [layout]
      exact readLong_writeBE fits _
    show takeUnit .packets (bytes ++ more) = _
    have enough : 12 ≤ (bytes ++ more).length := by omega
    unfold takeUnit
    dsimp only
    rw [if_pos enough, afterFlags, read, afterHeader, flags, if_neg (by omega),
      if_neg (by omega), Int.toNat_natCast, take_left, drop_left, dispatched valid]

theorem encodeStreamHeader_words {width height : Int} {header : Bytes}
    (encoded : encodeStreamHeader width height = some header) :
    ∃ first second third, writeInt32BE CODEC_ID_H264 = some first ∧
      writeInt32BE width = some second ∧ writeInt32BE height = some third ∧
      first ++ second ++ third = header := by
  unfold encodeStreamHeader at encoded
  cases codec : writeInt32BE CODEC_ID_H264 with
  | none => rw [codec] at encoded; cases encoded
  | some first =>
  cases wide : writeInt32BE width with
  | none => rw [codec, wide] at encoded; cases encoded
  | some second =>
  cases high : writeInt32BE height with
  | none => rw [codec, wide, high] at encoded; cases encoded
  | some third =>
    rw [codec, wide, high] at encoded
    exact ⟨first, second, third, rfl, rfl, rfl, by injection encoded⟩

theorem encodeStreamHeader_length {width height : Int} {header : Bytes}
    (encoded : encodeStreamHeader width height = some header) : header.length = 12 := by
  obtain ⟨_, _, _, codec, wide, high, rfl⟩ := encodeStreamHeader_words encoded
  rw [length_append, length_append, (readInt_writeInt32BE codec []).1,
    (readInt_writeInt32BE wide []).1, (readInt_writeInt32BE high []).1]

/-- The stream header is the unit before the packets. -/
theorem take_encodeStreamHeader {width height : Int} {header : Bytes}
    (encoded : encodeStreamHeader width height = some header) (more : Bytes) :
    scanner.take .header (header ++ more) = some (.packets, [.header { width, height }], more) := by
  obtain ⟨first, second, third, codec, wide, high, whole⟩ := encodeStreamHeader_words encoded
  obtain ⟨four, readCodec⟩ := readInt_writeInt32BE codec (second ++ (third ++ more))
  obtain ⟨fourMore, readWidth⟩ := readInt_writeInt32BE wide (third ++ more)
  obtain ⟨lastFour, readHeight⟩ := readInt_writeInt32BE high more
  have layout : header ++ more = first ++ (second ++ (third ++ more)) := by
    rw [← whole]
    simp only [append_assoc]
  have afterCodec : (header ++ more).drop 4 = second ++ (third ++ more) := by
    rw [layout]
    exact drop_left' four
  have afterWidth : (header ++ more).drop 8 = third ++ more := by
    rw [show 8 = 4 + 4 from rfl, ← drop_drop, afterCodec]
    exact drop_left' fourMore
  have afterHeight : (header ++ more).drop 12 = more := by
    rw [show 12 = 8 + 4 from rfl, ← drop_drop, afterWidth]
    exact drop_left' lastFour
  have long : 12 ≤ (header ++ more).length := by
    rw [layout, length_append, length_append, length_append]
    omega
  show takeUnit .header (header ++ more) = _
  unfold takeUnit
  dsimp only
  rw [if_pos long, afterCodec, afterWidth, afterHeight, readWidth, readHeight, layout,
    readCodec, if_neg (fun differs => differs rfl)]

end Units

section Streams

/-- What the relay writes for the events. -/
def encodeAll : List RelayEvent → Option Bytes
  | [] => some []
  | event :: events => do
    let first ← event.encode
    let later ← encodeAll events
    return first ++ later

/-- The events up to the first notice that ends the stream, that notice included. -/
def untilEnd : List RelayEvent → List RelayEvent
  | [] => []
  | event :: events => if event.ends then [event] else event :: untilEnd events

def afterEnd : List RelayEvent → List RelayEvent
  | [] => []
  | event :: events => if event.ends then events else afterEnd events

theorem encodeAll_cons {event : RelayEvent} {events : List RelayEvent} {body : Bytes}
    (encoded : encodeAll (event :: events) = some body) :
    ∃ first later, event.encode = some first ∧ encodeAll events = some later ∧
      body = first ++ later := by
  unfold encodeAll at encoded
  cases one : event.encode with
  | none =>
    rw [one] at encoded
    cases encoded
  | some first =>
    cases others : encodeAll events with
    | none =>
      rw [one, others] at encoded
      cases encoded
    | some later =>
      rw [one, others] at encoded
      cases encoded
      exact ⟨first, later, rfl, rfl, rfl⟩

/-- A scan of the events' bytes reports the events up to the end, and leaves what comes after. -/
theorem drain_encodeAll {events : List RelayEvent} {body tail : Bytes}
    (valid : ∀ event ∈ events, event.Valid) (encoded : encodeAll events = some body)
    (ended : tail = [] ∨ ∃ event ∈ events, event.ends = true) :
    (drain scanner .packets (body ++ tail)).2.1 = (untilEnd events).map RelayEvent.report ∧
      (drain scanner .packets (body ++ tail)).1 ≠ .thrown ∧
      ∃ rest, encodeAll (afterEnd events) = some rest ∧
        (drain scanner .packets (body ++ tail)).2.2 = rest ++ tail := by
  induction events generalizing body with
  | nil =>
    rcases ended with none | ⟨event, member, _⟩
    · subst none
      cases encoded
      have stuck : scanner.take .packets ([] ++ []) = none := rfl
      rw [drain_none stuck]
      exact ⟨rfl, by simp, [], rfl, rfl⟩
    · cases member
  | cons event events ih =>
    obtain ⟨first, later, one, others, whole⟩ := encodeAll_cons encoded
    have taken := RelayEvent.take_encode (valid event mem_cons_self) one (later ++ tail)
    rw [whole, append_assoc, drain_some taken]
    unfold untilEnd afterEnd
    cases last : event.ends with
    | true =>
      have stuck : scanner.take .ended (later ++ tail) = none := rfl
      simp only [if_true]
      rw [drain_none stuck]
      exact ⟨rfl, by simp, later, others, rfl⟩
    | false =>
      have still : tail = [] ∨ ∃ event ∈ events, event.ends = true := by
        rcases ended with none | ⟨other, member, ends⟩
        · exact Or.inl none
        · rcases mem_cons.mp member with same | member
          · rw [same, last] at ends
            cases ends
          · exact Or.inr ⟨other, member, ends⟩
      obtain ⟨reports, alive, rest⟩ :=
        ih (fun event member => valid event (mem_cons_of_mem _ member)) others still
      simp only [Bool.false_eq_true, if_false]
      refine ⟨?_, alive, rest⟩
      rw [reports]
      rfl

theorem parsePackets_rest (bytes : Bytes) : (parsePackets bytes).rest.length ≤ bytes.length := by
  fun_induction parsePackets bytes with
  | case1 | case2 | case5 => simp
  | case3 bytes enough ptsAndFlags size positive whole payload rest =>
    show rest.length ≤ bytes.length
    simp only [rest, length_drop]
    omega
  | case4 bytes enough ptsAndFlags size positive whole payload rest report ended dispatched going
      later ih =>
      have shorter : rest.length ≤ bytes.length := by
        simp only [rest, length_drop]
        omega
      exact ih.trans shorter

/-- The parser holds no more than it has been given. -/
theorem onBytes_buffer (parser : VideoStreamParser) (chunk : Bytes) :
    (onBytes parser chunk).1.buffer.length ≤ parser.buffer.length + chunk.length := by
  have joined : (parser.buffer ++ chunk).length = parser.buffer.length + chunk.length :=
    length_append
  unfold onBytes
  dsimp only
  split
  · exact Nat.le_add_right _ _
  split
  · exact Nat.le_add_right _ _
  split
  · exact joined.le
  split
  · exact (parsePackets_rest _).trans joined.le
  split
  · exact joined.le
  split
  · exact Nat.zero_le _
  · have rest := parsePackets_rest ((parser.buffer ++ chunk).drop 12)
    rw [length_drop, joined] at rest
    exact rest.trans (Nat.sub_le _ _)

/-- Reads of at most `intMax` bytes in all fit. -/
theorem fits_of_short (chunks : List Bytes) (short : chunks.flatten.length ≤ intMax) :
    Meets onBytes Fits {} chunks := by
  have general : ∀ parser : VideoStreamParser,
      parser.buffer.length + chunks.flatten.length ≤ intMax → Meets onBytes Fits parser chunks := by
    clear short
    induction chunks with
    | nil => exact fun _ _ => trivial
    | cons chunk chunks ih =>
      intro parser bound
      rw [flatten_cons, length_append] at bound
      have held := onBytes_buffer parser chunk
      refine ⟨?_, ih _ (by omega)⟩
      unfold Fits
      omega
  refine general {} ?_
  rw [show ({} : VideoStreamParser).buffer.length = 0 from rfl, Nat.zero_add]
  exact short

theorem received_injective {first second : SubscriptionNotice}
    (same : first.received = second.received) : first = second := by
  cases first <;> cases second <;> first | rfl | cases same

/-- No event is reported as another. -/
theorem report_injective {first second : RelayEvent} (same : first.report = second.report) :
    first = second := by
  cases first <;> cases second <;>
    simp only [RelayEvent.report, Report.packet.injEq, Report.notice.injEq, reduceCtorEq,
      VideoPacket.mk.injEq] at same <;> grind [received_injective]

/-- However the bytes are cut into reads that fit, the parser reports the header and the events up
to the first end notice, and keeps the bytes after it. -/
theorem relay_round_trip {width height : Int} {events : List RelayEvent}
    {header body tail : Bytes} {chunks : List Bytes}
    (sized : encodeStreamHeader width height = some header)
    (valid : ∀ event ∈ events, event.Valid) (encoded : encodeAll events = some body)
    (ended : tail = [] ∨ ∃ event ∈ events, event.ends = true)
    (cut : chunks.flatten = header ++ body ++ tail) (fits : Meets onBytes Fits {} chunks) :
    (run onBytes {} chunks).2 =
        .header { width, height } :: (untilEnd events).map RelayEvent.report ∧
      (∃ rest, encodeAll (afterEnd events) = some rest ∧
        (run onBytes {} chunks).1.trailingBytes = rest ++ tail) ∧
      ∀ first second : RelayEvent, first.report = second.report → first = second := by
  obtain ⟨holds, reports⟩ := onBytes_whole fits
  obtain ⟨told, alive, rest, following, left⟩ := drain_encodeAll valid encoded ended
  rw [cut, append_assoc, drain_some (take_encodeStreamHeader sized (body ++ tail))]
    at holds reports
  refine ⟨?_, ⟨rest, following, ?_⟩, fun first second => report_injective⟩
  · rw [reports, told]
    rfl
  · exact (holds.buffer (holds.unthrown alive)).trans left

theorem relay_round_trip_cut :
    (run onBytes {} [[0x68, 0x32, 0x36, 0x34, 0, 0, 0], [1, 0, 0, 0, 2, 0x10, 0, 0, 0, 0, 0, 0],
        [0, 0, 0, 0, 0, 0x20, 0, 0, 0, 0, 0, 0, 5, 0, 0], [0, 0, 7, 8]]).2 =
      [.header { width := 1, height := 2 }, RelayEvent.heartbeat.report,
        .notice (.Ended .SessionEnded)] :=
  (@relay_round_trip 1 2 [.heartbeat, .notice .sessionEnded]
    [0x68, 0x32, 0x36, 0x34, 0, 0, 0, 1, 0, 0, 0, 2]
    [0x10, 0, 0, 0, 0, 0, 0, 0, 0, 0, 0, 0, 0x20, 0, 0, 0, 0, 0, 0, 5, 0, 0, 0, 0] [7, 8]
    [[0x68, 0x32, 0x36, 0x34, 0, 0, 0], [1, 0, 0, 0, 2, 0x10, 0, 0, 0, 0, 0, 0],
      [0, 0, 0, 0, 0, 0x20, 0, 0, 0, 0, 0, 0, 5, 0, 0], [0, 0, 7, 8]]
    (by decide) (by simp [RelayEvent.Valid]) (by decide) (by decide) (by decide)
    (fits_of_short _ (by decide))).1

/-- However the bytes of any stream are cut into reads, the parser reports what it would of one
read, ends in the same phase and, unless it has thrown, holds the same bytes. -/
theorem reads_join {chunks : List Bytes} (short : chunks.flatten.length ≤ intMax) :
    let cut := run onBytes {} chunks
    let whole := onBytes {} chunks.flatten
    cut.2 = whole.2 ∧ cut.1.phase = whole.1.phase ∧
      (cut.1.phase ≠ .thrown → cut.1.buffer = whole.1.buffer) := by
  obtain ⟨cut, reports⟩ := onBytes_whole (fits_of_short chunks short)
  obtain ⟨whole, reports'⟩ := onBytes_whole (fits_of_short [chunks.flatten] (by simpa using short))
  rw [flatten_singleton, run_cons, run_nil] at whole reports'
  dsimp only at whole reports' ⊢
  rw [append_nil] at reports'
  refine ⟨reports.trans reports'.symm, cut.phase.symm.trans whole.phase, fun alive => ?_⟩
  rw [← cut.phase] at alive
  exact (cut.buffer (cut.unthrown alive)).trans (whole.buffer (whole.unthrown alive)).symm

theorem reads_join_refused : (run onBytes {} [[0x68, 0x32], alloc 11]).2 =
    (onBytes {} ([0x68, 0x32] ++ alloc 11)).2 :=
  (@reads_join [[0x68, 0x32], alloc 11] (by decide)).1

/-- A packet of more than `2 ^ 31 - 13` bytes overflows the array that is to hold it. -/
theorem onBytes_oversized {width height : Int} {bits : Nat} {payload header packet : Bytes}
    (sized : encodeStreamHeader width height = some header)
    (encoded : encodePacketHeader bits payload.length = some packet)
    (long : intMax < 12 + payload.length) :
    (run onBytes {} [header ++ packet, payload]).2 =
      [.header { width, height }, .thrown .arraySize] := by
  unfold encodePacketHeader at encoded
  cases size : writeInt32BE payload.length with
  | none =>
    rw [size] at encoded
    cases encoded
  | some length =>
    rw [size] at encoded
    have whole : writeBigInt64BE (asIntN bits) ++ length = packet := by injection encoded
    obtain ⟨four, read⟩ := readInt_writeInt32BE size []
    have proper : payload.length ≠ 0 := by
      intro none
      rw [none] at long
      exact absurd long (by decide)
    have eight : (writeBigInt64BE (asIntN bits)).length = 8 := writeBE_length _ _
    have twelve : packet.length = 12 := by rw [← whole, length_append, four, eight]
    have declared : readInt (packet.drop 8) = payload.length := by
      rw [← whole, drop_left' eight, ← read, append_nil]
    have stuck : scanner.take .packets packet = none := by
      show takeUnit .packets packet = none
      unfold takeUnit
      dsimp only
      rw [twelve, declared, if_pos (Nat.le_refl 12), if_neg (by omega), if_pos (by omega)]
    have short : [header ++ packet].flatten.length ≤ intMax := by
      rw [flatten_singleton, length_append, twelve, encodeStreamHeader_length sized]
      decide
    obtain ⟨holds, reports⟩ := onBytes_whole (fits_of_short [header ++ packet] short)
    rw [flatten_singleton, drain_some (take_encodeStreamHeader sized packet),
      drain_none stuck] at holds reports
    have unthrown := holds.unthrown (by simp)
    have kept : (run onBytes {} [header ++ packet]).1.buffer = packet := holds.buffer unthrown
    have full := onBytes_overflow unthrown proper (by
      unfold Fits
      rw [kept, twelve]
      exact Nat.not_le.mpr long)
    have split : [header ++ packet, payload] = [header ++ packet] ++ [payload] := rfl
    rw [split, run_append, run_cons, full, reports]
    rfl

theorem config_packet_unread {payload : Bytes} (size : payload.length = 2 ^ 31 - 10) :
    (RelayEvent.packet payload 0 true false none).Valid ∧
      encodeStreamHeader 0 0 = some [0x68, 0x32, 0x36, 0x34, 0, 0, 0, 0, 0, 0, 0, 0] ∧
      encodeAll [.packet payload 0 true false none] =
        some ([0x80, 0, 0, 0, 0, 0, 0, 0, 0x7f, 0xff, 0xff, 0xf6] ++ payload) ∧
      (run onBytes {} [[0x68, 0x32, 0x36, 0x34, 0, 0, 0, 0, 0, 0, 0, 0] ++
          [0x80, 0, 0, 0, 0, 0, 0, 0, 0x7f, 0xff, 0xff, 0xf6], payload]).2 =
        [.header { width := 0, height := 0 }, .thrown .arraySize] ∧
      [.header { width := 0, height := 0 }, .thrown .arraySize] ≠
        .header { width := 0, height := 0 } ::
          (untilEnd [.packet payload 0 true false none]).map RelayEvent.report := by
  have header : encodeStreamHeader 0 0 = some [0x68, 0x32, 0x36, 0x34, 0, 0, 0, 0, 0, 0, 0, 0] := by
    decide
  have packet : encodePacketHeader (encodePtsAndFlags 0 true false none) payload.length =
      some [0x80, 0, 0, 0, 0, 0, 0, 0, 0x7f, 0xff, 0xff, 0xf6] := by
    rw [size]
    decide
  refine ⟨⟨by decide, by simp⟩, header, ?_, onBytes_oversized header packet ?_, ?_⟩
  · unfold encodeAll encodeAll RelayEvent.encode encodePacket
    dsimp only
    rw [packet]
    simp
  · rw [size]
    decide
  · intro same
    injection same with _ same
    cases same

/-- A config packet of `2 ^ 31 - 10` bytes is encoded, and the parser never gets to report it. -/
theorem oversized_packet_unread :
    (RelayEvent.packet (alloc (2 ^ 31 - 10)) 0 true false none).Valid ∧
      encodeStreamHeader 0 0 = some [0x68, 0x32, 0x36, 0x34, 0, 0, 0, 0, 0, 0, 0, 0] ∧
      encodeAll [.packet (alloc (2 ^ 31 - 10)) 0 true false none] =
        some ([0x80, 0, 0, 0, 0, 0, 0, 0, 0x7f, 0xff, 0xff, 0xf6] ++ alloc (2 ^ 31 - 10)) ∧
      (run onBytes {} [[0x68, 0x32, 0x36, 0x34, 0, 0, 0, 0, 0, 0, 0, 0] ++
          [0x80, 0, 0, 0, 0, 0, 0, 0, 0x7f, 0xff, 0xff, 0xf6], alloc (2 ^ 31 - 10)]).2 =
        [.header { width := 0, height := 0 }, .thrown .arraySize] ∧
      [.header { width := 0, height := 0 }, .thrown .arraySize] ≠
        .header { width := 0, height := 0 } ::
          (untilEnd [.packet (alloc (2 ^ 31 - 10)) 0 true false none]).map RelayEvent.report :=
  config_packet_unread (alloc_length _)

end Streams

end AutoMobile.VideoStream
