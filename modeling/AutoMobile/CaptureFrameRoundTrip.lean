import AutoMobile.CaptureFrameScan
import AutoMobile.CaptureFrameWriter

/- What the helper writes is what the decoder reports, and any other stream is scanned alike. -/
namespace AutoMobile.CaptureFrames

open ByteRecords IncrementalScan List Runs

section Headers

/-- Both sides compute one checksum. -/
theorem crc32_eq (data : Bytes) : crc32 data = (FrameProtocol.crc32 data).toNat := rfl

theorem encodeHeader_length (header : Header) :
    (FrameProtocol.encodeHeader header).length = FRAME_HEADER_SIZE := by
  unfold FrameProtocol.encodeHeader
  simp only [writeUInt32LE, overwrite_length, alloc_length]
  rfl

/-- The decoder reads back the fields of an encoded header. -/
theorem parseFields_encodeHeader (header : Header) :
    parseFields (FrameProtocol.encodeHeader header) 0 =
      { width := header.width.toNat
        height := header.height.toNat
        bytesPerRow := header.bytesPerRow.toNat
        timestampMs := header.timestampMs.toNat } := by
  have width := header.width.toNat_lt
  have height := header.height.toNat_lt
  have bytesPerRow := header.bytesPerRow.toNat_lt
  have timestampMs := header.timestampMs.toNat_lt
  unfold parseFields FrameProtocol.encodeHeader
  simp [writeUInt32LE, headerSize, *]

/-- An encoded header has the marker and its checksum. -/
theorem headerErrorAt_encodeHeader (header : Header) :
    headerErrorAt (FrameProtocol.encodeHeader header) 0 =
      fieldBoundsError (parseFields (FrameProtocol.encodeHeader header) 0) := by
  obtain ⟨data, size, marked, encoded⟩ : ∃ data : Bytes, data.length = 24 ∧
      readUInt32LE data 0 = FRAME_MAGIC ∧ FrameProtocol.encodeHeader header =
        writeUInt32LE data (FrameProtocol.crc32 (subarray data fieldsOffset headerSize)).toNat 4 := by
    refine ⟨_, ?_, ?_, rfl⟩
    · simp [writeUInt32LE, headerSize]
    · have magicFits : magic.toNat < 4294967296 := magic.toNat_lt
      simp [writeUInt32LE, headerSize, magicFits]
      rfl
  have checksum := (FrameProtocol.crc32 (subarray data fieldsOffset headerSize)).toNat_lt
  have read : readUInt32LE (FrameProtocol.encodeHeader header) 0 = FRAME_MAGIC := by
    rw [encoded, writeUInt32LE, readUInt32LE_overwrite_apart _ _ (Or.inl (by omega))]
    exact marked
  have fields : subarray (FrameProtocol.encodeHeader header) 8 24 = subarray data 8 24 := by
    rw [encoded]
    exact subarray_overwrite_apart data _ 24 (show 4 + 4 ≤ 8 from by decide)
  have stored : readUInt32LE (FrameProtocol.encodeHeader header) 4 =
      crc32 (subarray (FrameProtocol.encodeHeader header) 8 24) := by
    rw [fields, crc32_eq, encoded, writeUInt32LE, readUInt32LE_overwrite _ checksum (by omega)]
    rfl
  unfold headerErrorAt HEADER_FIELDS_OFFSET FRAME_HEADER_SIZE
  rw [if_neg (not_not.mpr read), Nat.zero_add, Nat.zero_add, Nat.zero_add,
    if_neg (not_not.mpr stored)]

end Headers

section Records

/-- A record whose header is valid and gives its payload's length. -/
structure Sound (record : PendingRecord) : Prop where
  size : record.header.length = FRAME_HEADER_SIZE
  valid : headerErrorAt record.header 0 = none
  payload : payloadSize (parseFields record.header 0) = record.payload.length

def PendingRecord.isAudio (record : PendingRecord) : Bool :=
  isAudioHeader (parseFields record.header 0)

/-- What the decoder is to report for the record. -/
def PendingRecord.report (record : PendingRecord) : Report :=
  emitRecord (parseFields record.header 0) record.payload

variable {record : PendingRecord}

theorem report_audio (audio : record.isAudio = true) :
    record.report = .audio record.payload := by
  unfold PendingRecord.report emitRecord
  exact if_pos audio

/-- A record under an encoded header whose fields are within bounds and give its length. -/
theorem Sound.of_header {header : Header} {fields : FrameHeader} {payload : Bytes}
    (read : parseFields (FrameProtocol.encodeHeader header) 0 = fields)
    (valid : fieldBoundsError fields = none) (size : payloadSize fields = payload.length) :
    Sound ⟨FrameProtocol.encodeHeader header, payload⟩ := by
  have length := encodeHeader_length header
  have checked := headerErrorAt_encodeHeader header
  generalize FrameProtocol.encodeHeader header = bytes at read length checked ⊢
  subst read
  exact ⟨length, checked.trans valid, size⟩

theorem toNat_ofNat_fits {count limit : Nat} (fits : count ≤ limit) (small : limit < 4294967296) :
    (UInt32.ofNat count).toNat = count := by
  rw [UInt32.toNat_ofNat']
  exact Nat.mod_eq_of_lt (Nat.lt_of_le_of_lt fits small)

theorem audio_sound {payload : Bytes} (fits : payload.length ≤ MAX_AUDIO_PAYLOAD_BYTES) :
    Sound ⟨FrameProtocol.encodeAudioHeader payload.length, payload⟩ ∧
      PendingRecord.isAudio ⟨FrameProtocol.encodeAudioHeader payload.length, payload⟩ = true := by
  have fields : parseFields (FrameProtocol.encodeAudioHeader payload.length) 0 =
      { width := 0, height := 8000, bytesPerRow := 1, timestampMs := payload.length } := by
    rw [FrameProtocol.encodeAudioHeader, parseFields_encodeHeader,
      toNat_ofNat_fits fits (by decide)]
    rfl
  refine ⟨.of_header fields ?_ rfl, ?_⟩
  · exact (if_pos rfl).trans (if_neg (Nat.not_lt.mpr fits))
  · show isAudioHeader _ = true
    rw [fields]
    rfl

theorem encoded_sound {payload : Bytes} (isKeyframe : Bool) (presentationTimestampMs : UInt32)
    (fits : payload.length ≤ MAX_ENCODED_VIDEO_PAYLOAD_BYTES) :
    Sound ⟨FrameProtocol.encodeEncodedVideoHeader payload.length isKeyframe
        presentationTimestampMs, payload⟩ ∧
      PendingRecord.report ⟨FrameProtocol.encodeEncodedVideoHeader payload.length isKeyframe
        presentationTimestampMs, payload⟩ =
        .encodedVideo isKeyframe presentationTimestampMs.toNat payload ∧
      PendingRecord.isAudio ⟨FrameProtocol.encodeEncodedVideoHeader payload.length isKeyframe
        presentationTimestampMs, payload⟩ = false := by
  have fields : parseFields (FrameProtocol.encodeEncodedVideoHeader payload.length isKeyframe
      presentationTimestampMs) 0 =
      { width := 0
        height := if isKeyframe then 0xe2640001 else 0xe2640000
        bytesPerRow := payload.length
        timestampMs := presentationTimestampMs.toNat } := by
    rw [FrameProtocol.encodeEncodedVideoHeader, parseFields_encodeHeader,
      toNat_ofNat_fits fits (by decide)]
    cases isKeyframe <;> rfl
  have report : ∀ more : Bytes, emitRecord
      { width := 0
        height := if isKeyframe then 0xe2640001 else 0xe2640000
        bytesPerRow := payload.length
        timestampMs := presentationTimestampMs.toNat } more =
        .encodedVideo isKeyframe presentationTimestampMs.toNat more := by
    intro more
    cases isKeyframe <;> simp [emitRecord, isAudioHeader, ENCODED_VIDEO_KEYFRAME_BIT]
  refine ⟨.of_header fields ?_ ?_, ?_, ?_⟩
  · cases isKeyframe <;>
      simp [fieldBoundsError, isAudioHeader, isEncodedVideoHeader, ENCODED_VIDEO_HEIGHT_MASK,
        ENCODED_VIDEO_HEIGHT_BASE, Nat.not_lt.mpr fits]
  · cases isKeyframe <;> simp [payloadSize, isAudioHeader]
  · show emitRecord (parseFields _ 0) payload = _
    rw [fields, report]
  · show isAudioHeader _ = false
    rw [fields]
    cases isKeyframe <;> rfl

/-- The bytes of a record. -/
def PendingRecord.wire (record : PendingRecord) : Bytes := record.header ++ record.payload

theorem take_wire (sound : Sound record) (more : Bytes) :
    scanner.take .aligned (record.wire ++ more) = some (.aligned, [record.report], more) := by
  obtain ⟨size, valid, payload⟩ := sound
  have layout : record.wire ++ more = record.header ++ (record.payload ++ more) :=
    append_assoc _ _ _
  have first := Nat.le_of_eq size.symm
  have enough : FRAME_HEADER_SIZE ≤ (record.header ++ (record.payload ++ more)).length := by
    rw [length_append]
    omega
  have whole : FRAME_HEADER_SIZE + record.payload.length ≤
      (record.header ++ (record.payload ++ more)).length := by
    rw [length_append, length_append]
    omega
  have after : (record.header ++ (record.payload ++ more)).drop FRAME_HEADER_SIZE =
      record.payload ++ more := drop_left' size
  rw [layout, take_valid .aligned enough ((headerErrorAt_append first _).trans valid), takeRecord,
    parseFields_append first, payload, if_pos whole, after, take_left, drop_left]
  rfl

/-- A header whose payload is still to come is no record. -/
theorem take_header (sound : Sound record) (proper : record.payload ≠ []) :
    scanner.take .aligned record.header = none := by
  obtain ⟨size, valid, payload⟩ := sound
  have positive := length_pos_of_ne_nil proper
  rw [take_valid .aligned (Nat.le_of_eq size.symm) valid, takeRecord, payload, if_neg (by omega)]

theorem drain_wires {records : List PendingRecord} (sound : ∀ record ∈ records, Sound record)
    (more : Bytes) :
    drain scanner .aligned (records.flatMap PendingRecord.wire ++ more) =
      ahead (records.map PendingRecord.report) (drain scanner .aligned more) := by
  induction records with
  | nil => rfl
  | cons record records ih =>
    have first := sound record mem_cons_self
    have rest := ih fun other member => sound other (mem_cons_of_mem _ member)
    rw [flatMap_cons, append_assoc, drain_some (take_wire first _), rest]
    rfl

end Records

section Reference

def Report.payload : Report → Bytes
  | .audio pcm16le => pcm16le
  | .encodedVideo _ _ payload => payload
  | _ => []

def Report.isVideo : Report → Bool
  | .encodedVideo _ _ _ => true
  | _ => false

def Report.isAudio : Report → Bool
  | .audio _ => true
  | _ => false

def payloadBytes (reports : List Report) : Nat :=
  (reports.flatMap Report.payload).length

/-- The longest end of a queue that is within the bound. -/
def longestEnd (maximum : Nat) (queue : List Report) : List Report :=
  (queue.tails.find? fun newest => payloadBytes newest ≤ maximum).getD []

/-- What a writer is for, in terms of the calls and of the worker's turns: sound waits in a queue
that loses its oldest records over its bound, pictures in one that refuses what is over its bound,
and the worker takes from the two by turns, and writes a header and then a payload. -/
structure Reference where
  configuration : Configuration
  audio : List Report := []
  video : List Report := []
  lastTaken : Option RecordKind := none
  /-- The record under way, and whether its header is written. -/
  current : Option (Report × Bool) := none
  taken : List Report := []
  accepted : List Report := []
  returned : List Bool := []
deriving DecidableEq, Repr

namespace Reference

def hear (reference : Reference) (pcm16le : Bytes) : Reference :=
  if pcm16le.length = 0 ∨ reference.configuration.maximumPendingAudioBytes < pcm16le.length then
    reference
  else
    { reference with
      audio := longestEnd reference.configuration.maximumPendingAudioBytes
        (reference.audio ++ [.audio pcm16le]) }

def offer (reference : Reference) (picture : Report) : Reference :=
  if payloadBytes (reference.video ++ [picture]) ≤
      reference.configuration.maximumPendingEncodedBytes then
    { reference with
      video := reference.video ++ [picture]
      accepted := reference.accepted ++ [picture]
      returned := reference.returned ++ [true] }
  else { reference with returned := reference.returned ++ [false] }

def take (reference : Reference) (kind : RecordKind) (report : Report) : Reference :=
  { reference with
    lastTaken := some kind
    current := some (report, false)
    taken := reference.taken ++ [report] }

def work (reference : Reference) : Reference :=
  match reference.current, reference.video, reference.audio with
  | some (report, false), _, _ => { reference with current := some (report, true) }
  | some (_, true), _, _ => { reference with current := none }
  | none, [], [] => reference
  | none, picture :: pictures, [] => { reference.take .encoded picture with video := pictures }
  | none, [], sound :: sounds => { reference.take .audio sound with audio := sounds }
  | none, picture :: pictures, sound :: sounds =>
    if reference.lastTaken = some .encoded then
      { reference.take .audio sound with audio := sounds }
    else { reference.take .encoded picture with video := pictures }

def step (reference : Reference) : WriterEvent → Reference
  | .writeAudio pcm16le => reference.hear pcm16le
  | .writeEncoded isKeyframe presentationTimestampMs payload =>
    reference.offer (.encodedVideo isKeyframe presentationTimestampMs.toNat payload)
  | .worker => reference.work

/-- The sound handed to the worker, and what waits and was not pushed out. -/
def kept (reference : Reference) : List Report :=
  reference.taken.filter Report.isAudio ++ reference.audio

/-- What a reader of the bytes cannot have yet: a record with no payload is read off its header. -/
def unread (reference : Reference) : List Report :=
  (match reference.current with
    | none => []
    | some (report, headerWritten) =>
      if headerWritten && report.payload = [] then [] else [report]) ++
    reference.video ++ reference.audio

end Reference

theorem payloadBytes_cons (report : Report) (reports : List Report) :
    payloadBytes (report :: reports) = report.payload.length + payloadBytes reports :=
  length_append

theorem payloadBytes_snoc (reports : List Report) (report : Report) :
    payloadBytes (reports ++ [report]) = payloadBytes reports + report.payload.length := by
  simp [payloadBytes]

theorem longestEnd_cons (maximum : Nat) (oldest : Report) (queue : List Report) :
    longestEnd maximum (oldest :: queue) =
      if payloadBytes (oldest :: queue) ≤ maximum then oldest :: queue
      else longestEnd maximum queue := by
  unfold longestEnd
  rw [tails, find?_cons]
  by_cases within : payloadBytes (oldest :: queue) ≤ maximum <;> simp [within]

theorem report_payload (record : PendingRecord) : record.report.payload = record.payload := by
  unfold PendingRecord.report emitRecord
  split <;> rfl

theorem report_isAudio (record : PendingRecord) : record.report.isAudio = record.isAudio := by
  unfold PendingRecord.report emitRecord
  split
  next audio => exact (show record.isAudio = true from audio).symm
  next other => exact (show record.isAudio = false from Bool.eq_false_iff.mpr other).symm

theorem report_isVideo (record : PendingRecord) : record.report.isVideo = !record.isAudio := by
  unfold PendingRecord.report emitRecord
  split
  next audio => exact congrArg (! ·) (show record.isAudio = true from audio).symm
  next other =>
    exact congrArg (! ·) (show record.isAudio = false from Bool.eq_false_iff.mpr other).symm

end Reference

section Ledger

/-- The record whose header the worker has taken or written, as far as it is still to be read. -/
def Worker.unread : Worker → List PendingRecord
  | .between => []
  | .taken record => [record]
  | .headerWritten record => if record.payload = [] then [] else [record]

/-- A record without a payload is read off its header. -/
def Worker.early : Worker → List PendingRecord
  | .headerWritten record => if record.payload = [] then [record] else []
  | _ => []

def Worker.partialBytes : Worker → Bytes
  | .headerWritten record => record.header
  | _ => []

def Worker.held : Worker → List PendingRecord
  | .between => []
  | .taken record => [record]
  | .headerWritten record => [record]

def Worker.current : Worker → Option (Report × Bool)
  | .between => none
  | .taken record => some (record.report, false)
  | .headerWritten record => some (record.report, true)

theorem Worker.early_unread (worker : Worker) : worker.early ++ worker.unread = worker.held := by
  cases worker with
  | between => rfl
  | taken record => rfl
  | headerWritten record =>
    show (if record.payload = [] then [record] else []) ++
      (if record.payload = [] then [] else [record]) = [record]
    split <;> rfl

/-- The bytes the sink has received. -/
def sinkBytes (effects : List Effect) : Bytes :=
  effects.flatMap fun effect =>
    match effect with
    | .write data => data
    | _ => []

/-- What the calls to `writeEncoded` return. -/
def returns (effects : List Effect) : List Bool :=
  effects.filterMap fun effect =>
    match effect with
    | .returned accepted => some accepted
    | _ => none

theorem sinkBytes_append (first second : List Effect) :
    sinkBytes (first ++ second) = sinkBytes first ++ sinkBytes second := flatMap_append

theorem returns_append (first second : List Effect) :
    returns (first ++ second) = returns first ++ returns second := filterMap_append

/-- What the writer holds against what the reference makes of the same events: `written` are the
records written. -/
structure Ledger (writer : FrameWriter) (past : List Effect) (written : List PendingRecord)
    (reference : Reference) : Prop where
  bytes : sinkBytes past = written.flatMap PendingRecord.wire ++ writer.worker.partialBytes
  sound : ∀ record ∈ written ++ writer.worker.held, Sound record
  soundAudio : ∀ record ∈ writer.pendingAudio, Sound record ∧ record.isAudio = true
  soundEncoded : ∀ record ∈ writer.pendingEncoded, Sound record ∧ record.isAudio = false
  configuration : reference.configuration = writer.configuration
  audio : reference.audio = writer.pendingAudio.map PendingRecord.report
  video : reference.video = writer.pendingEncoded.map PendingRecord.report
  audioBytes : writer.pendingAudioBytes = payloadBytes reference.audio
  encodedBytes : writer.pendingEncodedBytes = payloadBytes reference.video
  lastTaken : reference.lastTaken = writer.lastWrittenRecordKind
  current : reference.current = writer.worker.current
  taken : reference.taken = (written ++ writer.worker.held).map PendingRecord.report
  accepted : reference.accepted = reference.taken.filter Report.isVideo ++ reference.video
  returned : returns past = reference.returned
  scheduled : writer.outputWorkerScheduled = false →
    writer.pendingAudio = [] ∧ writer.pendingEncoded = [] ∧ writer.worker = .between

variable {writer : FrameWriter} {past : List Effect} {written : List PendingRecord}
  {record : PendingRecord} {reference : Reference}

/-- The loop leaves the longest end of the queue that has room for one record more. -/
theorem dropOldest_spec {maximum : Nat} {sound : Report}
    (small : sound.payload.length ≤ maximum) (pending : List PendingRecord) :
    let left := dropOldest maximum sound.payload.length pending
      (payloadBytes (pending.map PendingRecord.report))
    longestEnd maximum (pending.map PendingRecord.report ++ [sound]) =
        left.1.map PendingRecord.report ++ [sound] ∧
      left.2 = payloadBytes (left.1.map PendingRecord.report) ∧
      left.1.Sublist pending := by
  induction pending with
  | nil =>
    refine ⟨?_, rfl, Sublist.refl _⟩
    rw [map_nil, nil_append, longestEnd_cons, if_pos]
    · rfl
    · rw [payloadBytes_cons]
      exact small
  | cons oldest rest ih =>
    have total : payloadBytes ((oldest :: rest).map PendingRecord.report ++ [sound]) =
        payloadBytes ((oldest :: rest).map PendingRecord.report) + sound.payload.length :=
      payloadBytes_snoc _ _
    have less : payloadBytes ((oldest :: rest).map PendingRecord.report) - oldest.payload.length =
        payloadBytes (rest.map PendingRecord.report) := by
      rw [map_cons, payloadBytes_cons, report_payload, Nat.add_sub_cancel_left]
    intro left
    by_cases full : maximum <
        payloadBytes ((oldest :: rest).map PendingRecord.report) + sound.payload.length
    · obtain ⟨kept, bytes, part⟩ := ih
      have dropped : left = dropOldest maximum sound.payload.length rest
          (payloadBytes (rest.map PendingRecord.report)) := (if_pos full).trans (by rw [less])
      rw [dropped]
      refine ⟨?_, bytes, part.cons oldest⟩
      rw [← kept, map_cons, cons_append, longestEnd_cons, if_neg]
      exact Nat.not_le.mpr (total ▸ full)
    · have kept : left = (oldest :: rest, payloadBytes ((oldest :: rest).map PendingRecord.report)) :=
        if_neg full
      rw [kept]
      refine ⟨?_, rfl, Sublist.refl _⟩
      rw [map_cons, cons_append, longestEnd_cons, if_pos]
      exact Nat.not_lt.mp (total ▸ full)

theorem Ledger.writeAudio {pcm16le : Bytes} (ledger : Ledger writer past written reference)
    (fits : pcm16le.length ≤ MAX_AUDIO_PAYLOAD_BYTES) :
    Ledger (CaptureFrames.writeAudio writer pcm16le).1
      (past ++ (CaptureFrames.writeAudio writer pcm16le).2) written (reference.hear pcm16le) := by
  have none : past ++ (CaptureFrames.writeAudio writer pcm16le).2 = past := by
    unfold CaptureFrames.writeAudio
    split <;> exact append_nil past
  rw [none]
  unfold CaptureFrames.writeAudio Reference.hear
  rw [ledger.configuration]
  by_cases ignored : pcm16le.length = 0 ∨
      writer.configuration.maximumPendingAudioBytes < pcm16le.length
  · simp only [Bool.or_eq_true, decide_eq_true_eq, if_pos ignored]
    exact ledger
  simp only [Bool.or_eq_true, decide_eq_true_eq, if_neg ignored]
  have small := Nat.not_lt.mp (not_or.mp ignored).2
  obtain ⟨sound, audio⟩ := audio_sound fits
  obtain ⟨kept, bytes, part⟩ :=
    @dropOldest_spec _ (.audio pcm16le) small writer.pendingAudio
  rw [← ledger.audio, ← ledger.audioBytes] at kept bytes part
  refine
    { ledger with
      configuration := rfl, soundAudio := ?_, audio := ?_, audioBytes := ?_, scheduled := fun idle => by cases idle }
  · intro other member
    rcases mem_append.mp member with old | new
    · exact ledger.soundAudio other (part.subset old)
    · rw [mem_singleton.mp new]
      exact ⟨sound, audio⟩
  · show longestEnd _ _ = (_ ++ [_]).map PendingRecord.report
    rw [map_append, kept]
    exact congrArg (_ ++ [·]) (report_audio audio).symm
  · show _ = payloadBytes (longestEnd _ _)
    rw [kept, payloadBytes_snoc, ← bytes]
    rfl

theorem Ledger.writeEncoded {payload : Bytes} (ledger : Ledger writer past written reference)
    (isKeyframe : Bool) (presentationTimestampMs : UInt32)
    (fits : payload.length ≤ MAX_ENCODED_VIDEO_PAYLOAD_BYTES) :
    Ledger (CaptureFrames.writeEncoded writer isKeyframe presentationTimestampMs payload).1
      (past ++ (CaptureFrames.writeEncoded writer isKeyframe presentationTimestampMs payload).2)
      written (reference.offer
        (.encodedVideo isKeyframe presentationTimestampMs.toNat payload)) := by
  obtain ⟨sound, report, video⟩ := encoded_sound isKeyframe presentationTimestampMs fits
  have quiet : ∀ accepted, sinkBytes (past ++ [.returned accepted]) =
      written.flatMap PendingRecord.wire ++ writer.worker.partialBytes := fun accepted => by
    rw [sinkBytes_append, ledger.bytes]
    exact append_nil _
  have returned : ∀ accepted, returns (past ++ [.returned accepted]) =
      reference.returned ++ [accepted] := fun accepted => by
    rw [returns_append, ledger.returned]
    rfl
  have total : payloadBytes (reference.video ++
      [.encodedVideo isKeyframe presentationTimestampMs.toNat payload]) =
      writer.pendingEncodedBytes + payload.length := by
    rw [payloadBytes_snoc, ledger.encodedBytes]
    rfl
  unfold CaptureFrames.writeEncoded Reference.offer wouldOverflowOutputQueue
  rw [total, ledger.configuration]
  by_cases full : writer.configuration.maximumPendingEncodedBytes <
      writer.pendingEncodedBytes + payload.length
  · simp only [decide_eq_true_eq, if_pos full, if_neg (Nat.not_le.mpr full)]
    exact
      { ledger with
        configuration := rfl, bytes := quiet false, returned := returned false }
  · simp only [decide_eq_true_eq, if_neg full, if_pos (Nat.not_lt.mp full)]
    refine
      { ledger with
        configuration := rfl, bytes := quiet true, returned := returned true, soundEncoded := ?_, video := ?_,
        encodedBytes := total.symm, accepted := ?_, scheduled := fun idle => by cases idle }
    · intro other member
      rcases mem_append.mp member with old | new
      · exact ledger.soundEncoded other old
      · rw [mem_singleton.mp new]
        exact ⟨sound, video⟩
    · show _ ++ [_] = (_ ++ [_]).map PendingRecord.report
      rw [map_append, ledger.video]
      exact congrArg (_ ++ [·]) report.symm
    · show reference.accepted ++ _ = _
      rw [ledger.accepted, append_assoc]

/-- A worker between two records takes a sound one. -/
theorem Ledger.hold (ledger : Ledger writer past written reference)
    (between : writer.worker = .between) (first : Sound record) :
    sinkBytes past = written.flatMap PendingRecord.wire ++ (Worker.taken record).partialBytes ∧
      (∀ other ∈ written ++ [record], Sound other) ∧
      reference.taken ++ [record.report] = (written ++ [record]).map PendingRecord.report := by
  have held : writer.worker.held = [] := by
    rw [between]
    rfl
  have fresh := ledger.sound
  have taken := ledger.taken
  rw [held, append_nil] at fresh taken
  refine ⟨?_, ?_, ?_⟩
  · rw [ledger.bytes, between]
    rfl
  · intro other member
    rcases mem_append.mp member with old | new
    · exact fresh other old
    · rw [mem_singleton.mp new]
      exact first
  · rw [taken, ← map_singleton, ← map_append]

/-- The first picture waiting leaves its queue for the worker. -/
theorem Ledger.takeMedia {rest : List PendingRecord}
    (ledger : Ledger writer past written reference) (between : writer.worker = .between)
    (scheduled : writer.outputWorkerScheduled = true)
    (front : writer.pendingEncoded = record :: rest) :
    Ledger { (takeMediaLocked writer).1 with worker := .taken record } past written
      { reference.take .encoded record.report with video := rest.map PendingRecord.report } := by
  obtain ⟨first, kind⟩ := ledger.soundEncoded record (front ▸ mem_cons_self)
  obtain ⟨bytes, fresh, taken⟩ := ledger.hold between first
  have pending := ledger.encodedBytes
  rw [ledger.video, front, map_cons, payloadBytes_cons, report_payload] at pending
  unfold takeMediaLocked
  rw [front]
  refine
    { ledger with
      bytes, sound := fresh, soundEncoded := fun other member =>
        ledger.soundEncoded other (front ▸ mem_cons_of_mem _ member),
      video := rfl, encodedBytes := ?_, lastTaken := rfl, current := rfl, taken,
      accepted := ?_, scheduled := fun idle => by cases scheduled.symm.trans idle }
  · show writer.pendingEncodedBytes - record.payload.length = _
    rw [pending, Nat.add_sub_cancel_left]
  · show reference.accepted = (reference.taken ++ [record.report]).filter _ ++ _
    rw [ledger.accepted, ledger.video, front, filter_append, append_assoc]
    simp [report_isVideo, kind]

/-- The first sound waiting leaves its queue for the worker. -/
theorem Ledger.takeAudio {rest : List PendingRecord}
    (ledger : Ledger writer past written reference) (between : writer.worker = .between)
    (scheduled : writer.outputWorkerScheduled = true)
    (front : writer.pendingAudio = record :: rest) :
    Ledger { (takeAudioLocked writer).1 with worker := .taken record } past written
      { reference.take .audio record.report with audio := rest.map PendingRecord.report } := by
  obtain ⟨first, kind⟩ := ledger.soundAudio record (front ▸ mem_cons_self)
  obtain ⟨bytes, fresh, taken⟩ := ledger.hold between first
  have pending := ledger.audioBytes
  rw [ledger.audio, front, map_cons, payloadBytes_cons, report_payload] at pending
  unfold takeAudioLocked
  rw [front]
  refine
    { ledger with
      bytes, sound := fresh, soundAudio := fun other member =>
        ledger.soundAudio other (front ▸ mem_cons_of_mem _ member),
      audio := rfl, audioBytes := ?_, lastTaken := rfl, current := rfl, taken,
      accepted := ?_, scheduled := fun idle => by cases scheduled.symm.trans idle }
  · show writer.pendingAudioBytes - record.payload.length = _
    rw [pending, Nat.add_sub_cancel_left]
  · show reference.accepted = (reference.taken ++ [record.report]).filter _ ++ _
    rw [ledger.accepted, filter_append]
    simp [report_isVideo, kind, Reference.take]

/-- A write to the sink is about no queue. -/
theorem Ledger.write {after : List PendingRecord} {worker : Worker} (data : Bytes)
    (ledger : Ledger writer past written reference) (busy : writer.worker ≠ .between)
    (same : after ++ worker.held = written ++ writer.worker.held)
    (bytes : after.flatMap PendingRecord.wire ++ worker.partialBytes =
      written.flatMap PendingRecord.wire ++ writer.worker.partialBytes ++ data) :
    Ledger { writer with worker } (past ++ [.write data]) after
      { reference with current := worker.current } := by
  refine
    { ledger with
      bytes := ?_, sound := same ▸ ledger.sound, current := rfl, taken := same ▸ ledger.taken,
      returned := ?_, scheduled := fun idle => absurd (ledger.scheduled idle).2.2 busy }
  · rw [sinkBytes_append, ledger.bytes, bytes]
    exact congrArg (_ ++ ·) (append_nil data)
  · rw [returns_append, ledger.returned]
    exact append_nil _

theorem Ledger.next (ledger : Ledger writer past written reference)
    (between : writer.worker = .between) (scheduled : writer.outputWorkerScheduled = true) :
    Ledger (drainStep writer).1 past written reference.work := by
  have idle : reference.current = none := by
    rw [ledger.current, between]
    rfl
  have video := ledger.video
  have sound := ledger.audio
  have turn := ledger.lastTaken
  cases encoded : writer.pendingEncoded with
  | nil =>
    rw [encoded, map_nil] at video
    cases audio : writer.pendingAudio with
    | nil =>
      rw [audio, map_nil] at sound
      have worked : reference.work = reference := by simp [Reference.work, idle, video, sound]
      have drained : (drainStep writer).1 = { writer with outputWorkerScheduled := false } := by
        simp [drainStep, takeNextRecord, between, scheduled, encoded, audio]
      rw [worked, drained]
      exact { ledger with scheduled := fun _ => ⟨audio, encoded, between⟩ }
    | cons oldest later =>
      rw [audio, map_cons] at sound
      have worked : reference.work = { reference.take .audio oldest.report with
          audio := later.map PendingRecord.report } := by
        simp [Reference.work, idle, video, sound]
      have drained : (drainStep writer).1 =
          { (takeAudioLocked writer).1 with worker := .taken oldest } := by
        simp [drainStep, takeNextRecord, takeAudioLocked, between, scheduled, encoded, audio]
      rw [worked, drained]
      exact ledger.takeAudio between scheduled audio
  | cons first rest =>
    rw [encoded, map_cons] at video
    have media : reference.lastTaken ≠ some .encoded ∨ writer.pendingAudio = [] →
        Ledger (drainStep writer).1 past written reference.work := by
      intro free
      have worked : reference.work = { reference.take .encoded first.report with
          video := rest.map PendingRecord.report } := by
        unfold Reference.work
        rw [idle, video, sound]
        cases waits : writer.pendingAudio with
        | nil => rfl
        | cons oldest later => exact if_neg (free.resolve_right (by simp [waits]))
      have drained : (drainStep writer).1 =
          { (takeMediaLocked writer).1 with worker := .taken first } := by
        have taken : takeNextRecord writer = takeMediaLocked writer := by
          unfold takeNextRecord
          rw [turn] at free
          rcases free with last | none
          · simp [encoded, last]
          · simp [encoded, none]
        simp [drainStep, taken, takeMediaLocked, between, scheduled, encoded]
      rw [worked, drained]
      exact ledger.takeMedia between scheduled encoded
    cases audio : writer.pendingAudio with
    | nil => exact media (Or.inr audio)
    | cons oldest later =>
      rw [audio, map_cons] at sound
      by_cases last : reference.lastTaken = some .encoded
      · have worked : reference.work = { reference.take .audio oldest.report with
            audio := later.map PendingRecord.report } := by
          unfold Reference.work
          rw [idle, video, sound]
          exact if_pos last
        have drained : (drainStep writer).1 =
            { (takeAudioLocked writer).1 with worker := .taken oldest } := by
          have spoke := turn.symm.trans last
          simp [drainStep, takeNextRecord, takeAudioLocked, between, scheduled, encoded, audio,
            spoke]
        rw [worked, drained]
        exact ledger.takeAudio between scheduled audio
      · exact media (Or.inl last)

theorem Ledger.worker (ledger : Ledger writer past written reference) :
    ∃ after, Ledger (drainStep writer).1 (past ++ (drainStep writer).2) after reference.work := by
  have current := ledger.current
  cases held : writer.worker with
  | between =>
    have quiet : (drainStep writer).2 = [] := by
      unfold drainStep
      rw [held]
      dsimp only
      split
      · split <;> rfl
      · rfl
    rw [quiet, append_nil]
    cases scheduled : writer.outputWorkerScheduled with
    | true => exact ⟨written, ledger.next held scheduled⟩
    | false =>
      obtain ⟨audio, encoded, _⟩ := ledger.scheduled scheduled
      unfold drainStep Reference.work
      rw [held, current, held, ledger.video, ledger.audio, audio, encoded, scheduled]
      exact ⟨written, ledger⟩
  | taken record =>
    unfold drainStep Reference.work
    rw [held, current, held]
    refine ⟨written, ledger.write record.header (by rw [held]; exact Worker.noConfusion) ?_ ?_⟩
    · rw [held]
      rfl
    · rw [held]
      simp [Worker.partialBytes]
  | headerWritten record =>
    unfold drainStep Reference.work
    rw [held, current, held]
    refine ⟨written ++ [record],
      ledger.write record.payload (by rw [held]; exact Worker.noConfusion) ?_ ?_⟩
    · rw [held]
      exact append_nil _
    · rw [held]
      simp [Worker.partialBytes, PendingRecord.wire]

end Ledger

section Delivery

def WriterEvent.Fits : WriterEvent → Prop
  | .writeAudio pcm16le => pcm16le.length ≤ 16 * 1024 * 1024
  | .writeEncoded _ _ payload => payload.length ≤ 16 * 1024 * 1024
  | .worker => True

/-- The writer keeps to the reference that sees the same events. -/
theorem ledger_run {events : List WriterEvent} (fits : ∀ event ∈ events, event.Fits)
    {writer : FrameWriter} {past : List Effect} {written : List PendingRecord}
    {reference : Reference} (ledger : Ledger writer past written reference) :
    ∃ after, Ledger (run writerStep writer events).1 (past ++ (run writerStep writer events).2)
      after (events.foldl Reference.step reference) := by
  induction events generalizing writer past written reference with
  | nil => exact ⟨written, (append_nil past).symm ▸ ledger⟩
  | cons event events ih =>
    have first : ∃ after, Ledger (writerStep writer event).1
        (past ++ (writerStep writer event).2) after (reference.step event) := by
      have fit := fits event mem_cons_self
      cases event with
      | writeAudio pcm16le => exact ⟨written, ledger.writeAudio fit⟩
      | writeEncoded isKeyframe presentationTimestampMs payload =>
        exact ⟨written, ledger.writeEncoded isKeyframe presentationTimestampMs fit⟩
      | worker => exact ledger.worker
    obtain ⟨after, next⟩ := first
    rw [run_cons, ← append_assoc]
    exact ih (fun later member => fits later (mem_cons_of_mem _ member)) next

theorem Ledger.fresh (configuration : Configuration) :
    Ledger { configuration } [] [] { configuration } where
  bytes := rfl
  sound := by simp [Worker.held]
  soundAudio := by simp
  soundEncoded := by simp
  configuration := rfl
  audio := rfl
  video := rfl
  audioBytes := rfl
  encodedBytes := rfl
  lastTaken := rfl
  current := rfl
  taken := rfl
  accepted := rfl
  returned := rfl
  scheduled _ := ⟨rfl, rfl, rfl⟩

/-- What is still to be read is what the worker is at and what waits. -/
theorem Ledger.unread {writer : FrameWriter} {past : List Effect} {written : List PendingRecord}
    {reference : Reference} (ledger : Ledger writer past written reference) :
    reference.unread = writer.worker.unread.map PendingRecord.report ++ reference.video ++
      reference.audio := by
  unfold Reference.unread
  rw [ledger.current]
  cases writer.worker with
  | between => rfl
  | taken record => rfl
  | headerWritten record =>
    simp only [Worker.current, Worker.unread, report_payload]
    by_cases empty : record.payload = [] <;> simp [empty]

theorem referenceScan_wires {written : List PendingRecord} {worker : Worker}
    (sound : ∀ record ∈ written ++ worker.held, Sound record) :
    referenceScan (written.flatMap PendingRecord.wire ++ worker.partialBytes) =
      (written ++ worker.early).map PendingRecord.report := by
  have last : (drain scanner .aligned worker.partialBytes).2.1 =
      worker.early.map PendingRecord.report := by
    have nothing : (drain scanner .aligned ([] : Bytes)).2.1 = [] := by
      rw [drain_none (show scanner.take .aligned [] = none from rfl)]
    cases worker with
    | between => exact nothing
    | taken record => exact nothing
    | headerWritten record =>
      have ready := sound record (mem_append_right _ mem_cons_self)
      by_cases empty : record.payload = []
      · have taken := take_wire ready []
        have layout : record.wire ++ [] = record.header := by
          rw [PendingRecord.wire, empty, append_nil, append_nil]
        rw [layout] at taken
        show (drain scanner .aligned record.header).2.1 =
          (if record.payload = [] then [record] else []).map PendingRecord.report
        rw [drain_some taken, if_pos empty, nothing]
        rfl
      · show (drain scanner .aligned record.header).2.1 =
          (if record.payload = [] then [record] else []).map PendingRecord.report
        rw [drain_none (take_header ready empty), if_neg empty]
        rfl
  rw [← drain_referenceScan,
    drain_wires fun record member => sound record (mem_append_left _ member)]
  show _ ++ (drain scanner .aligned worker.partialBytes).2.1 = _
  rw [last, map_append]

/-- The decoder reports the pictures accepted and the sound kept, in order, as far as their bytes
have been written, and nothing else; any other stream is scanned as the reference scan scans it,
however it is cut. -/
theorem capture_frames_delivered {configuration : Configuration} {events : List WriterEvent}
    {chunks : List Bytes} (fits : ∀ event ∈ events, event.Fits)
    (cut : chunks.flatten = sinkBytes (run writerStep { configuration } events).2) :
    let reference := events.foldl Reference.step { configuration }
    ((run push {} chunks).2.filter Report.isVideo ++ reference.unread.filter Report.isVideo =
        reference.accepted ∧
      (run push {} chunks).2.filter Report.isAudio ++ reference.unread.filter Report.isAudio =
        reference.kept ∧
      (∀ report ∈ (run push {} chunks).2, report.isVideo = true ∨ report.isAudio = true) ∧
      returns (run writerStep { configuration } events).2 = reference.returned ∧
      ((run writerStep { configuration } events).1.outputWorkerScheduled = false →
        reference.unread = [])) ∧
    ∀ stream : List Bytes,
      (run push {} stream).2 = referenceScan stream.flatten ∧
        .limitReached ∉ (run push {} stream).2 ∧
        (run push {} stream).1.highWaterMarkBytes ≤ bufferLimit := by
  intro reference
  refine ⟨?_, fun stream => ?_⟩
  · obtain ⟨written, ledger⟩ := ledger_run fits (Ledger.fresh configuration)
    rw [nil_append] at ledger
    change Ledger _ _ written reference at ledger
    generalize run writerStep { configuration } events = ran at cut ledger ⊢
    obtain ⟨writer, effects⟩ := ran
    dsimp only at cut ledger ⊢
    have reports : (run push {} chunks).2 =
        (written ++ writer.worker.early).map PendingRecord.report := by
      rw [(push_run chunks).1, cut, ledger.bytes, referenceScan_wires ledger.sound]
    have whole : (run push {} chunks).2 ++ writer.worker.unread.map PendingRecord.report =
        reference.taken := by
      rw [reports, ← map_append, append_assoc, writer.worker.early_unread, ledger.taken]
    have pictures : ∀ report ∈ reference.video, report.isVideo = true ∧ report.isAudio = false := by
      intro report member
      rw [ledger.video] at member
      obtain ⟨record, waits, rfl⟩ := mem_map.mp member
      rw [report_isVideo, report_isAudio, (ledger.soundEncoded record waits).2]
      exact ⟨rfl, rfl⟩
    have sounds : ∀ report ∈ reference.audio, report.isVideo = false ∧ report.isAudio = true := by
      intro report member
      rw [ledger.audio] at member
      obtain ⟨record, waits, rfl⟩ := mem_map.mp member
      rw [report_isVideo, report_isAudio, (ledger.soundAudio record waits).2]
      exact ⟨rfl, rfl⟩
    refine ⟨?_, ?_, ?_, ledger.returned, fun idle => ?_⟩
    · have noSound : reference.audio.filter Report.isVideo = [] :=
        filter_eq_nil_iff.mpr fun report member => by simp [(sounds report member).1]
      rw [ledger.unread, ledger.accepted, ← whole, filter_append, filter_append, filter_append,
        noSound, filter_eq_self.mpr fun report member => (pictures report member).1, append_nil,
        append_assoc]
    · have noPicture : reference.video.filter Report.isAudio = [] :=
        filter_eq_nil_iff.mpr fun report member => by simp [(pictures report member).2]
      rw [ledger.unread, Reference.kept, ← whole, filter_append, filter_append, filter_append,
        noPicture, filter_eq_self.mpr fun report member => (sounds report member).2, append_nil,
        append_assoc]
    · intro report member
      rw [reports] at member
      obtain ⟨record, _, rfl⟩ := mem_map.mp member
      rw [report_isVideo, report_isAudio]
      cases record.isAudio
      · exact Or.inl rfl
      · exact Or.inr rfl
    · obtain ⟨audio, encoded, between⟩ := ledger.scheduled idle
      rw [ledger.unread, ledger.video, ledger.audio, audio, encoded, between]
      rfl
  · obtain ⟨same, limit⟩ := push_run stream
    refine ⟨same, ?_, limit⟩
    rw [same]
    exact referenceScan_limit _

/-- Sound pushed out by later sound, a picture accepted and one refused, and a worker that stops;
the bytes are cut inside the first header. -/
theorem capture_frames_delivered_cut :
    let configuration : Configuration :=
      { maximumPendingAudioBytes := 3, maximumPendingEncodedBytes := 4 }
    let events : List WriterEvent :=
      [.writeAudio [1, 2], .writeEncoded true 7 [3], .writeEncoded false 9 [4, 5, 6, 7],
        .writeAudio [8, 9]] ++ replicate 7 .worker
    let bytes := sinkBytes (run writerStep { configuration } events).2
    (run push {} [bytes.take 5, bytes.drop 5]).2.filter Report.isVideo =
        [.encodedVideo true 7 [3]] ∧
      (run push {} [bytes.take 5, bytes.drop 5]).2.filter Report.isAudio = [.audio [8, 9]] ∧
      returns (run writerStep { configuration } events).2 = [true, false] := by
  intro configuration events bytes
  have cut : [bytes.take 5, bytes.drop 5].flatten = bytes := by
    rw [flatten_cons, flatten_singleton, take_append_drop]
  have fits : ∀ event ∈ events, event.Fits := by
    simp [events, WriterEvent.Fits, replicate]
  obtain ⟨⟨video, audio, _, returned, _⟩, _⟩ :=
    @capture_frames_delivered configuration events _ fits cut
  have reference : events.foldl Reference.step { configuration } =
      { configuration
        lastTaken := some .audio
        taken := [.encodedVideo true 7 [3], .audio [8, 9]]
        accepted := [.encodedVideo true 7 [3]]
        returned := [true, false] } := by
    decide
  rw [reference] at video audio returned
  exact ⟨(append_nil _).symm.trans video, (append_nil _).symm.trans audio, returned⟩

/-- Sound over the bound is never reported, though nothing was waiting that could push it out. -/
theorem oversized_audio_ignored :
    let effects := (run writerStep { configuration := { maximumPendingAudioBytes := 1 } }
      [.writeAudio [1, 2], .worker]).2
    sinkBytes effects = [] ∧ (run push {} [sinkBytes effects]).2 = [] := by
  intro effects
  have nothing : sinkBytes effects = [] := by decide
  refine ⟨nothing, ?_⟩
  rw [nothing, (push_run _).1, referenceScan]
  rfl

end Delivery

end AutoMobile.CaptureFrames
