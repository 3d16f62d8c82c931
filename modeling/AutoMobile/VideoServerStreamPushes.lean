import AutoMobile.VideoServerStreamScan

/- Each push drains what the queue holds, so that the pushes together parse the whole stream. -/
namespace AutoMobile.VideoServer

open ByteRecords IncrementalScan List

section Fields

theorem readUInt32BE_eq (bytes : Bytes) (position : Nat) :
    readUInt32BE bytes position = uint32At bytes position := by
  unfold readUInt32BE subarray uint32At
  rw [Nat.add_sub_cancel_left]

theorem readBigUInt64BE_eq (bytes : Bytes) (position : Nat) :
    readBigUInt64BE bytes position = uint64At bytes position := by
  unfold readBigUInt64BE subarray uint64At
  rw [Nat.add_sub_cancel_left]

variable {position count : Nat}

theorem take_take_of_le {bytes : Bytes} {width : Nat} (within : position + width ≤ count) :
    ((bytes.take count).drop position).take width = (bytes.drop position).take width := by
  rw [drop_take, take_take, Nat.min_eq_left (by omega)]

theorem uint32At_take (bytes : Bytes) (within : position + 4 ≤ count) :
    uint32At (bytes.take count) position = uint32At bytes position :=
  congrArg readBE (take_take_of_le within)

theorem uint64At_take (bytes : Bytes) (within : position + 8 ≤ count) :
    uint64At (bytes.take count) position = uint64At bytes position :=
  congrArg readBE (take_take_of_le within)

theorem and_shift_eq_zero (bits position : Nat) :
    bits &&& 1 <<< position = 0 ↔ bits.testBit position = false := by
  rw [Nat.one_shiftLeft, Nat.and_two_pow]
  cases bits.testBit position <;> simp

theorem and_shift_ne_zero (bits position : Nat) :
    (bits &&& 1 <<< position != 0) = bits.testBit position := by
  cases one : bits.testBit position with
  | false =>
    rw [(and_shift_eq_zero bits position).mpr one]
    rfl
  | true =>
    have some : bits &&& 1 <<< position ≠ 0 := by
      intro zero
      rw [(and_shift_eq_zero bits position).mp zero] at one
      cases one
    exact bne_iff_ne.mpr some

theorem rotation_bits (bits : Nat) :
    (bits &&& ROTATION_MASK) >>> ROTATION_SHIFT = bits / 2 ^ 59 % 4 := by
  have mask : ROTATION_MASK >>> ROTATION_SHIFT = 2 ^ 2 - 1 := by decide
  rw [Nat.shiftRight_and_distrib, mask, Nat.and_two_pow_sub_one_eq_mod, Nat.shiftRight_eq_div_pow]
  rfl

theorem pts_bits (bits : Nat) : bits &&& PTS_MASK = bits % 2 ^ 59 := by
  have mask : PTS_MASK = 2 ^ 59 - 1 := by decide
  rw [mask, Nat.and_two_pow_sub_one_eq_mod]

/-- The masks read the fields of the bits. -/
theorem packetOf_eq (trackId codecId bits : Nat) (data : Bytes) :
    packetOf trackId codecId bits data = fromBits trackId codecId bits data := by
  have small : toNumber (bits / 2 ^ 59 % 4) = bits / 2 ^ 59 % 4 :=
    DoublePrecision.nearest_exact (by omega)
  have rotation : rotationFromFlags bits =
      if bits.testBit 63 then some (bits / 2 ^ 59 % 4) else none := by
    unfold rotationFromFlags FLAG_CONFIG
    rw [rotation_bits, small]
    cases config : bits.testBit 63 with
    | false =>
      rw [if_pos ((and_shift_eq_zero bits 63).mpr config)]
      rfl
    | true =>
      have some : ¬(bits &&& 1 <<< 63) = 0 := by
        intro zero
        rw [(and_shift_eq_zero bits 63).mp zero] at config
        cases config
      rw [if_neg some]
      rfl
  unfold packetOf fromBits
  rw [rotation, pts_bits, FLAG_CONFIG, FLAG_KEY_FRAME, FLAG_REPLAYED, and_shift_ne_zero,
    and_shift_ne_zero, and_shift_ne_zero]

end Fields

section Loops

/-- A packet loop of the code does what the framing says. -/
structure Agrees (loop : PacketLoop) (framing : Framing) : Prop where
  headerBytes : loop.headerBytes = framing.headerBytes
  size : ∀ bytes : Bytes, loop.size (bytes.take framing.headerBytes) = framing.size bytes
  dispatch : ∀ (bytes : Bytes) (count : Nat),
    loop.dispatch (bytes.take framing.headerBytes) ((bytes.drop framing.headerBytes).take count) =
      (framing.decode (bytes.take (framing.headerBytes + count))).toList.map Event.packet

theorem legacyPackets_agrees (header : VideoServerStreamHeader) :
    Agrees (legacyPackets (some header)) (.legacy header) where
  headerBytes := rfl
  size bytes := by
    show readUInt32BE (bytes.take 12) 8 = uint32At bytes 8
    rw [readUInt32BE_eq, uint32At_take bytes (by omega)]
  dispatch bytes count := by
    show [Event.packet (packetOf 1 header.codecId (readBigUInt64BE (bytes.take 12) 0)
        ((bytes.drop 12).take count))] =
      [Event.packet (fromBits 1 header.codecId (uint64At (bytes.take (12 + count)) 0)
        ((bytes.take (12 + count)).drop 12))]
    rw [packetOf_eq, readBigUInt64BE_eq, uint64At_take bytes (by omega),
      uint64At_take bytes (by omega), drop_take, Nat.add_sub_cancel_left]

/-- The map of tracks has what was declared last for each. -/
def Declares (muxTracks : InsertionMap Nat MuxTrack) (tracks : List TrackEntry) : Prop :=
  ∀ trackId, InsertionMap.get? muxTracks trackId =
    (declared tracks trackId).map fun track =>
      { codecId := track.codecId, param1 := track.param1, param2 := track.param2 }

theorem muxPackets_agrees {muxTracks : InsertionMap Nat MuxTrack} {tracks : List TrackEntry}
    (declares : Declares muxTracks tracks) : Agrees (muxPackets muxTracks) (.muxed tracks) where
  headerBytes := rfl
  size bytes := by
    show readUInt32BE (bytes.take 16) 12 = uint32At bytes 12
    rw [readUInt32BE_eq, uint32At_take bytes (by omega)]
  dispatch bytes count := by
    show (muxPackets muxTracks).dispatch (bytes.take 16) ((bytes.drop 16).take count) =
      ((declared tracks (uint32At (bytes.take (16 + count)) 0)).map fun track =>
        fromBits (uint32At (bytes.take (16 + count)) 0) track.codecId
          (uint64At (bytes.take (16 + count)) 4)
          ((bytes.take (16 + count)).drop 16)).toList.map Event.packet
    unfold muxPackets
    dsimp only
    rw [readUInt32BE_eq, uint32At_take bytes (by omega), uint32At_take bytes (by omega),
      uint64At_take bytes (by omega), readBigUInt64BE_eq, uint64At_take bytes (by omega),
      drop_take, Nat.add_sub_cancel_left, declares]
    cases declared tracks (uint32At bytes 0) with
    | none => rfl
    | some track =>
      dsimp only [Option.map_some]
      rw [packetOf_eq]
      rfl

/-- The loop drains the scanner, and throws where the scanner meets a size over the cap. -/
theorem drainPackets_drains {loop : PacketLoop} {framing : Framing} (agrees : Agrees loop framing)
    {buffered : BufferQueue} (well : buffered.WellFormed) :
    ∃ rest, (drainPackets loop buffered) =
        (rest, ((completePackets framing buffered.content).1.filterMap framing.decode).map
          Event.packet, framing.thrown (completePackets framing buffered.content).2) ∧
      rest.WellFormed ∧ rest.content = (completePackets framing buffered.content).2 := by
  induction held : buffered.content using completePackets.induct framing generalizing buffered with
  | case1 bytes complete ih =>
    have whole := complete
    obtain ⟨enough, capped, room⟩ := whole
    have size : buffered.length = bytes.length := by rw [well.sized, held]
    have within : assertWithinCap (framing.size bytes) MAX_PACKET_BYTES "packet size" = none :=
      if_neg (Nat.not_lt.mpr capped)
    obtain ⟨payload, discarded, payloadWell, payloadHeld⟩ :=
      well.discard (show framing.headerBytes ≤ buffered.length by omega)
    have payloadSize : payload.length = bytes.length - framing.headerBytes := by
      rw [payloadWell.sized, payloadHeld, held, length_drop]
    unfold Framing.packetBytes at room
    obtain ⟨rest, taken, restWell, restHeld⟩ :=
      payloadWell.takeDetached (show framing.size bytes ≤ payload.length by omega)
    rw [payloadHeld, held] at taken restHeld
    rw [drop_drop] at restHeld
    obtain ⟨last, drained, lastWell, lastHeld⟩ := ih restWell restHeld
    refine ⟨last, ?_, lastWell, ?_⟩
    · rw [drainPackets, agrees.headerBytes, if_pos (by omega), well.peek (by omega), held]
      dsimp only
      rw [agrees.size, within]
      dsimp only
      rw [if_neg (by omega)]
      split
      next missing =>
        rw [discarded] at missing
        cases missing
      next found =>
        rw [discarded] at found
        cases found
        split
        next missing =>
          rw [taken] at missing
          cases missing
        next found =>
          rw [taken] at found
          cases found
          rw [drained, agrees.dispatch, completePackets_complete complete]
          dsimp only
          rw [filterMap_cons]
          unfold Framing.packetBytes
          cases framing.decode (bytes.take (framing.headerBytes + framing.size bytes)) <;> rfl
    · rw [lastHeld, completePackets_complete complete]
  | case2 bytes partly =>
    have size : buffered.length = bytes.length := by rw [well.sized, held]
    rw [completePackets_partly partly]
    refine ⟨buffered, ?_, well, held⟩
    rw [drainPackets, agrees.headerBytes]
    unfold Framing.thrown
    by_cases enough : framing.headerBytes ≤ bytes.length
    · rw [if_pos (by omega), if_pos enough, well.peek (by omega), held]
      dsimp only
      rw [agrees.size]
      cases judged : assertWithinCap (framing.size bytes) MAX_PACKET_BYTES "packet size" with
      | some thrown => rfl
      | none =>
        have capped : framing.size bytes ≤ MAX_PACKET_BYTES := by
          unfold assertWithinCap at judged
          split at judged
          next => cases judged
          next fits => exact Nat.not_lt.mp fits
        have short : buffered.length < framing.headerBytes + framing.size bytes := by
          rw [size]
          exact Nat.not_le.mp fun room => partly ⟨enough, capped, room⟩
        dsimp only
        rw [if_pos short]
        rfl
    · rw [if_neg (by omega), if_neg enough]
      rfl

end Loops

section Heads

theorem trackEntries_succ (stream : Bytes) (count : Nat) :
    trackEntries stream (count + 1) = trackEntries stream count ++ [trackEntry stream count] := by
  unfold trackEntries
  rw [range_succ, map_append]
  rfl

/-- What the loop over the tracks has read is what they declare. -/
structure Reads (table : TrackTable) (tracks : List TrackEntry) : Prop where
  declares : Declares table.muxTracks tracks
  video : table.videoHeader =
    (tracks.reverse.find? fun track => track.codecId = VIDEO_SERVER_CODEC_ID_H264).map
      fun track => { codecId := track.codecId, width := track.param1, height := track.param2 }
  audio : table.hasPcmAudioTrack = tracks.any fun track =>
    track.trackId = VIDEO_SERVER_TRACK_ID_AUDIO && track.codecId = VIDEO_SERVER_CODEC_ID_PCM16

theorem Reads.readTrack {stream : Bytes} {table : TrackTable} {count total : Nat}
    (reads : Reads table (trackEntries stream count)) (less : count < total) :
    Reads (readTrack (stream.take (12 + 16 * total)) table count)
      (trackEntries stream (count + 1)) := by
  have field : ∀ shift, shift + 4 ≤ 16 →
      readUInt32BE (stream.take (12 + 16 * total)) (12 + count * 16 + shift) =
        uint32At stream (12 + 16 * count + shift) := by
    intro shift within
    rw [readUInt32BE_eq, uint32At_take stream (by omega), Nat.mul_comm]
  have trackId : readUInt32BE (stream.take (12 + 16 * total)) (12 + count * 16) =
    (trackEntry stream count).trackId := field 0 (by omega)
  have codecId : readUInt32BE (stream.take (12 + 16 * total)) (12 + count * 16 + 4) =
    (trackEntry stream count).codecId := field 4 (by omega)
  have param1 : readUInt32BE (stream.take (12 + 16 * total)) (12 + count * 16 + 8) =
    (trackEntry stream count).param1 := field 8 (by omega)
  have param2 : readUInt32BE (stream.take (12 + 16 * total)) (12 + count * 16 + 12) =
    (trackEntry stream count).param2 := field 12 (by omega)
  have declares : ∀ value : MuxTrack,
      value = { codecId := (trackEntry stream count).codecId,
                param1 := (trackEntry stream count).param1,
                param2 := (trackEntry stream count).param2 } →
      Declares (InsertionMap.put table.muxTracks (trackEntry stream count).trackId value)
        (trackEntries stream (count + 1)) := by
    intro value same trackId
    rw [InsertionMap.get?_put, reads.declares, trackEntries_succ]
    unfold declared
    rw [reverse_append, reverse_singleton, singleton_append, find?_cons]
    by_cases here : (trackEntry stream count).trackId = trackId
    · rw [if_pos here, decide_eq_true here, same]
      rfl
    · rw [if_neg here, decide_eq_false here]
  have found : ∀ wanted : TrackEntry → Bool,
      (trackEntries stream (count + 1)).reverse.find? wanted =
      if wanted (trackEntry stream count) then some (trackEntry stream count)
      else (trackEntries stream count).reverse.find? wanted := by
    intro wanted
    rw [trackEntries_succ, reverse_append, reverse_singleton, singleton_append,
      find?_cons]
    cases wanted (trackEntry stream count) <;> rfl
  have heard : ∀ wanted : TrackEntry → Bool, (trackEntries stream (count + 1)).any wanted =
      ((trackEntries stream count).any wanted || wanted (trackEntry stream count)) := by
    intro wanted
    rw [trackEntries_succ, any_append, any_cons, any_nil, Bool.or_false]
  unfold VideoServer.readTrack STREAM_HEADER_BYTES MUX_TRACK_BYTES
  dsimp only
  rw [trackId, codecId, param1, param2]
  by_cases video : (trackEntry stream count).codecId = VIDEO_SERVER_CODEC_ID_H264
  · have silent : decide ((trackEntry stream count).codecId = VIDEO_SERVER_CODEC_ID_PCM16) = false := by
      rw [video]
      rfl
    rw [if_pos video]
    refine ⟨declares _ rfl, ?_, ?_⟩
    · rw [found, decide_eq_true video, if_pos rfl]
      rfl
    · rw [heard, silent, Bool.and_false, Bool.or_false]
      exact reads.audio
  · rw [if_neg video]
    have kept : (trackEntries stream (count + 1)).reverse.find?
        (fun track => track.codecId = VIDEO_SERVER_CODEC_ID_H264) =
        (trackEntries stream count).reverse.find?
          fun track => track.codecId = VIDEO_SERVER_CODEC_ID_H264 := by
      rw [found, decide_eq_false video, if_neg Bool.false_ne_true]
    by_cases pcm : (trackEntry stream count).trackId = VIDEO_SERVER_TRACK_ID_AUDIO ∧
        (trackEntry stream count).codecId = VIDEO_SERVER_CODEC_ID_PCM16
    · rw [if_pos pcm]
      refine ⟨declares _ rfl, ?_, ?_⟩
      · rw [kept]
        exact reads.video
      · rw [heard, decide_eq_true pcm.1, decide_eq_true pcm.2, Bool.and_self, Bool.or_true]
    · rw [if_neg pcm]
      refine ⟨declares _ rfl, ?_, ?_⟩
      · rw [kept]
        exact reads.video
      · rw [heard, ← Bool.decide_and, decide_eq_false pcm, Bool.or_false]
        exact reads.audio

theorem readTracks_reads (stream : Bytes) (total : Nat) :
    Reads (readTracks (stream.take (12 + 16 * total)) total) (trackEntries stream total) := by
  have general : ∀ count ≤ total,
      Reads ((List.range count).foldl (readTrack (stream.take (12 + 16 * total))) {})
        (trackEntries stream count) := by
    intro count within
    induction count with
    | zero => exact ⟨fun _ => rfl, rfl, rfl⟩
    | succ count ih =>
      rw [range_succ, foldl_append]
      exact (ih (by omega)).readTrack (by omega)
  exact general total (Nat.le_refl total)

theorem muxHeader_eq {stream fullHeader : Bytes} {table : TrackTable} {tracks : List TrackEntry}
    (reads : Reads table tracks)
    (version : readUInt32BE fullHeader 4 = uint32At stream 4) :
    muxHeader fullHeader table = headerOf tracks (uint32At stream 4) := by
  unfold muxHeader headerOf
  rw [reads.video, reads.audio, version, Option.map_map]
  rfl

/-- The parser's state at a phase of the stream. -/
def Phase.Fits : Phase → VideoServerStreamParser → Prop
  | .header, parser => parser.header = none ∧ parser.muxTracks = none
  | .packets (.legacy known), parser => parser.header = some known ∧ parser.muxTracks = none
  | .packets (.muxed tracks), parser => ∃ muxTracks, parser.muxTracks = some muxTracks ∧
      Declares muxTracks tracks

/-- The parser holds what the scanner has left over. -/
structure Holds (parser : VideoServerStreamParser) (phase : Phase) (left : Bytes) : Prop where
  fits : phase.Fits parser
  well : parser.buffered.WellFormed
  content : parser.buffered.content = left

/-- The read of the header takes it off the front, or waits for more of it. -/
theorem readStreamHeader_spec {parser : VideoServerStreamParser} {left : Bytes}
    (holds : Holds parser .header left) :
    (∃ head next, readHead left = some head ∧
        readStreamHeader parser = (next, head.header.toList.map Event.header, .ok true) ∧
        Holds next (.packets head.framing) (left.drop head.bytes)) ∨
      readHead left = none ∧
        readStreamHeader parser = (parser, [], match headThrown left with
          | some thrown => .error thrown
          | none => .ok false) := by
  obtain ⟨⟨unread, unmuxed⟩, well, content⟩ := holds
  have size : parser.buffered.length = left.length := by rw [well.sized, content]
  unfold readStreamHeader
  by_cases short : left.length < 12
  · have missing : readHead left = none := if_pos short
    have silent : headThrown left = none := if_neg fun both => absurd both.1 (Nat.not_le.mpr short)
    rw [size, if_pos (show left.length < STREAM_HEADER_BYTES from short), missing, silent]
    exact Or.inr ⟨rfl, rfl⟩
  have enough : 12 ≤ left.length := Nat.not_lt.mp short
  have field : ∀ position, position + 4 ≤ 12 →
      readUInt32BE (left.take STREAM_HEADER_BYTES) position = uint32At left position := by
    intro position within
    rw [readUInt32BE_eq]
    exact uint32At_take left within
  rw [size, if_neg (show ¬left.length < STREAM_HEADER_BYTES from short),
    well.peek (show STREAM_HEADER_BYTES ≤ parser.buffered.length by rw [size]; exact enough), content]
  dsimp only
  rw [field 0 (by omega), field 4 (by omega), field 8 (by omega)]
  by_cases mux : uint32At left 0 = VIDEO_SERVER_CODEC_ID_AMUX
  · have judging : headThrown left =
        assertWithinCap (uint32At left 8) MAX_TRACK_COUNT "trackCount" := if_pos ⟨enough, mux⟩
    have reading : readHead left =
        if uint32At left 8 ≤ MAX_TRACK_COUNT ∧ (muxHead left).bytes ≤ left.length then
          some (muxHead left) else none := by
      unfold readHead
      rw [if_neg short, if_pos mux]
    rw [if_pos mux, judging, reading]
    cases judged : assertWithinCap (uint32At left 8) MAX_TRACK_COUNT "trackCount" with
    | some thrown =>
      have many : ¬uint32At left 8 ≤ MAX_TRACK_COUNT := by
        intro few
        unfold assertWithinCap at judged
        rw [if_neg (Nat.not_lt.mpr few)] at judged
        cases judged
      rw [if_neg fun both => many both.1]
      exact Or.inr ⟨rfl, rfl⟩
    | none =>
      have few : uint32At left 8 ≤ MAX_TRACK_COUNT := by
        unfold assertWithinCap at judged
        split at judged
        next => cases judged
        next few => exact Nat.not_lt.mp few
      have headerBytes : STREAM_HEADER_BYTES + uint32At left 8 * MUX_TRACK_BYTES =
          12 + 16 * uint32At left 8 := by
        rw [Nat.mul_comm]
        rfl
      have muxBytes : (muxHead left).bytes = 12 + 16 * uint32At left 8 := rfl
      dsimp only
      rw [headerBytes]
      by_cases whole : 12 + 16 * uint32At left 8 ≤ left.length
      · have reads := readTracks_reads left (uint32At left 8)
        have version : readUInt32BE (left.take (12 + 16 * uint32At left 8)) 4 =
            uint32At left 4 := by
          rw [readUInt32BE_eq, uint32At_take left (by omega)]
        have header := muxHeader_eq reads version
        obtain ⟨rest, discarded, restWell, restHeld⟩ :=
          well.discard (show 12 + 16 * uint32At left 8 ≤ parser.buffered.length by omega)
        rw [if_pos ⟨few, whole⟩, if_neg (by omega), well.peek (by omega), content]
        dsimp only
        rw [discarded, header]
        refine Or.inl ⟨muxHead left, _, rfl, rfl, ⟨_, rfl, reads.declares⟩, restWell, ?_⟩
        rw [restHeld, content]
        rfl
      · rw [if_neg (fun both => whole both.2), if_pos (by omega)]
        exact Or.inr ⟨rfl, rfl⟩
  · have found : readHead left = some (legacyHead left) := by
      unfold readHead
      rw [if_neg short, if_neg mux]
    obtain ⟨rest, discarded, restWell, restHeld⟩ :=
      well.discard (show STREAM_HEADER_BYTES ≤ parser.buffered.length by rw [size]; exact enough)
    rw [if_neg mux, found, discarded]
    refine Or.inl ⟨legacyHead left, _, rfl, rfl, ⟨rfl, unmuxed⟩, restWell, ?_⟩
    rw [restHeld, content]
    rfl

theorem pushPackets_drains {parser : VideoServerStreamParser} {framing : Framing} {left : Bytes}
    (holds : Holds parser (.packets framing) left) :
    (pushPackets parser).2 = ((drain scanner (.packets framing) left).2.1,
        framing.thrown (drain scanner (.packets framing) left).2.2) ∧
      Holds (pushPackets parser).1 (.packets framing)
        (drain scanner (.packets framing) left).2.2 := by
  obtain ⟨fits, well, content⟩ := holds
  rw [drain_packets]
  unfold pushPackets
  cases framing with
  | legacy header =>
    obtain ⟨known, unmuxed⟩ := fits
    obtain ⟨rest, drained, restWell, restHeld⟩ :=
      drainPackets_drains (legacyPackets_agrees header) well
    rw [unmuxed, known]
    dsimp only
    rw [drained, content]
    exact ⟨rfl, ⟨rfl, rfl⟩, restWell, restHeld.trans (by rw [content])⟩
  | muxed tracks =>
    obtain ⟨muxTracks, known, declares⟩ := fits
    obtain ⟨rest, drained, restWell, restHeld⟩ :=
      drainPackets_drains (muxPackets_agrees declares) well
    rw [known]
    dsimp only
    rw [drained, content]
    exact ⟨rfl, ⟨muxTracks, rfl, declares⟩, restWell, restHeld.trans (by rw [content])⟩

end Heads

section Pushes

variable {phase : Phase} {left : Bytes}

/-- A push drains what is held and the chunk after it. -/
theorem push_drains {parser : VideoServerStreamParser} (holds : Holds parser phase left)
    (chunk : Bytes) :
    (push parser chunk).2 = ((drain scanner phase (left ++ chunk)).2.1,
        (drain scanner phase (left ++ chunk)).1.thrown (drain scanner phase (left ++ chunk)).2.2) ∧
      Holds (push parser chunk).1 (drain scanner phase (left ++ chunk)).1
        (drain scanner phase (left ++ chunk)).2.2 := by
  obtain ⟨fits, well, content⟩ := holds
  obtain ⟨nextWell, appended⟩ := well.append chunk
  rw [content] at appended
  have next : Holds { parser with buffered := parser.buffered.append chunk } phase
      (left ++ chunk) := by
    refine ⟨?_, nextWell, appended⟩
    match phase with
    | .header => exact fits
    | .packets (.legacy _) => exact fits
    | .packets (.muxed _) => exact fits
  unfold push
  dsimp only
  cases phase with
  | header =>
    rw [if_pos (show parser.header = none ∧ parser.muxTracks = none from fits)]
    rcases readStreamHeader_spec next with ⟨head, after, found, read, holds⟩ | ⟨missing, read⟩
    · have taken : scanner.take .header (left ++ chunk) =
          some (.packets head.framing, head.header.toList.map Event.header,
            (left ++ chunk).drop head.bytes) := by
        show (readHead (left ++ chunk)).map _ = _
        rw [found]
        rfl
      obtain ⟨drained, kept⟩ := pushPackets_drains holds
      rw [read, drain_some taken]
      dsimp only
      rw [drained]
      have same : (drain scanner (.packets head.framing) ((left ++ chunk).drop head.bytes)).1 =
          .packets head.framing := by rw [drain_packets]
      rw [same]
      exact ⟨rfl, kept⟩
    · have stuck : scanner.take .header (left ++ chunk) = none := by
        show (readHead (left ++ chunk)).map _ = _
        rw [missing]
        rfl
      rw [read, drain_none stuck]
      have judged : Phase.header.thrown (left ++ chunk) = headThrown (left ++ chunk) := rfl
      dsimp only
      rw [judged]
      cases headThrown (left ++ chunk) with
      | none => exact ⟨rfl, next⟩
      | some thrown => exact ⟨rfl, next⟩
  | packets framing =>
    have past : ¬(parser.header = none ∧ parser.muxTracks = none) := by
      intro both
      cases framing with
      | legacy header =>
        rw [fits.1] at both
        cases both.1
      | muxed tracks =>
        obtain ⟨muxTracks, known, -⟩ := fits
        rw [known] at both
        cases both.2
    have same : (drain scanner (.packets framing) (left ++ chunk)).1 = .packets framing := by
      rw [drain_packets]
    rw [if_neg past, same]
    exact pushPackets_drains next

/-- More input changes nothing once a number over its cap is declared. -/
theorem thrown_stable {thrown : Thrown} (declared : phase.thrown left = some thrown)
    (more : Bytes) :
    phase.thrown (left ++ more) = some thrown ∧ scanner.take phase (left ++ more) = none := by
  have exceeds : ∀ {value cap : Nat} {field : String},
      assertWithinCap value cap field = some thrown → ¬value ≤ cap := by
    intro value cap field judged within
    unfold assertWithinCap at judged
    rw [if_neg (Nat.not_lt.mpr within)] at judged
    cases judged
  cases phase with
  | header =>
    change headThrown left = _ at declared
    show headThrown (left ++ more) = _ ∧ (readHead (left ++ more)).map _ = none
    unfold headThrown at declared ⊢
    split at declared
    next mux =>
      have longer : 12 ≤ (left ++ more).length := by
        rw [length_append]
        omega
      have marker := uint32At_append (show 0 + 4 ≤ left.length by omega) more
      have count := uint32At_append (show 8 + 4 ≤ left.length by omega) more
      have missing : readHead (left ++ more) = none := by
        unfold readHead
        rw [if_neg (Nat.not_lt.mpr longer), marker, if_pos mux.2, count,
          if_neg fun both => exceeds declared both.1]
      rw [marker, count, if_pos ⟨longer, mux.2⟩, missing]
      exact ⟨declared, rfl⟩
    next => cases declared
  | packets framing =>
    change framing.thrown left = _ at declared
    show framing.thrown (left ++ more) = _ ∧ (if _ then _ else _) = none
    unfold Framing.thrown at declared ⊢
    split at declared
    next enough =>
      have longer : framing.headerBytes ≤ (left ++ more).length := by
        rw [length_append]
        omega
      rw [if_pos longer, Framing.size_append enough]
      refine ⟨declared, if_neg fun complete => exceeds declared ?_⟩
      rw [← Framing.size_append enough more]
      exact complete.2.1
    next => cases declared

/-- The pushes up to one that throws are a drain of the whole stream. -/
theorem pushAll_drains {parser : VideoServerStreamParser} (chunks : List Bytes)
    (holds : Holds parser phase left) (stuck : scanner.take phase left = none)
    (alive : phase.thrown left = none) :
    (pushAll parser chunks).2 = ((drain scanner phase (left ++ chunks.flatten)).2.1,
        (drain scanner phase (left ++ chunks.flatten)).1.thrown
          (drain scanner phase (left ++ chunks.flatten)).2.2) ∧
      ((pushAll parser chunks).2.2 = none →
        (pushAll parser chunks).1.buffered.content =
          (drain scanner phase (left ++ chunks.flatten)).2.2) := by
  induction chunks generalizing parser phase left with
  | nil =>
    rw [flatten_nil, append_nil, drain_none stuck]
    dsimp only
    rw [alive]
    exact ⟨rfl, fun _ => holds.content⟩
  | cons chunk chunks ih =>
    obtain ⟨pushed, next⟩ := push_drains holds chunk
    rw [flatten_cons, ← append_assoc, drain_append]
    unfold pushAll
    dsimp only
    rw [pushed]
    dsimp only
    cases judged : (drain scanner phase (left ++ chunk)).1.thrown
        (drain scanner phase (left ++ chunk)).2.2 with
    | some thrown =>
      obtain ⟨still, dead⟩ := thrown_stable judged chunks.flatten
      rw [drain_none dead]
      dsimp only
      rw [still, append_nil]
      exact ⟨rfl, fun missing => by cases missing⟩
    | none =>
      obtain ⟨later, kept⟩ := ih next (take_drain _ _) judged
      dsimp only
      rw [later]
      refine ⟨rfl, fun done => kept ?_⟩
      rw [later]
      exact done

/-- However the stream is cut, the pushes report what the reference parse of the whole does, and
the queue keeps the bytes that are left of it. -/
theorem push_reference (chunks : List Bytes) :
    (pushAll {} chunks).2 =
        ((referenceParse chunks.flatten).events, (referenceParse chunks.flatten).thrown) ∧
      ((pushAll {} chunks).2.2 = none →
        (pushAll {} chunks).1.buffered.content = (referenceParse chunks.flatten).rest) ∧
      (referenceParse chunks.flatten).head ++ (referenceParse chunks.flatten).packets.flatten ++
        (referenceParse chunks.flatten).rest = chunks.flatten := by
  have fresh : Holds {} .header [] := ⟨⟨rfl, rfl⟩, BufferQueue.wellFormed_empty, rfl⟩
  obtain ⟨events, kept⟩ := pushAll_drains chunks fresh rfl rfl
  obtain ⟨drained, thrown⟩ := drain_reference chunks.flatten
  rw [nil_append, drained] at events kept
  rw [thrown] at events
  exact ⟨events, kept, referenceParse_bytes chunks.flatten⟩

/-- A multiplexed header whose one track is audio, and an empty packet of that track. -/
def audioOnly : Bytes :=
  [0x61, 0x6d, 0x75, 0x78, 0, 0, 0, 1, 0, 0, 0, 1,
    0, 0, 0, 2, 0x73, 0x31, 0x36, 0x6c, 0, 0, 0, 0, 0, 0, 0, 0,
    0, 0, 0, 2, 0, 0, 0, 0, 0, 0, 0, 0, 0, 0, 0, 0]

/-- The packet is reported with no header before it. -/
theorem audioOnly_headless :
    (readHead audioOnly).isSome ∧
      (pushAll {} [audioOnly]).2 =
        ([.packet (fromBits 2 VIDEO_SERVER_CODEC_ID_PCM16 0 [])], none) := by
  decide +kernel

end Pushes

end AutoMobile.VideoServer
