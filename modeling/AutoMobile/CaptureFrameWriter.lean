import AutoMobile.CaptureFrameProtocol
import AutoMobile.Runs

/- The writer of a screen capture: bounded queues of records, and the worker that empties them. -/
namespace AutoMobile.CaptureFrames

open ByteRecords Runs

section Writer

structure Configuration where
  maximumPendingAudioBytes : Nat := 64 * 1024
  maximumPendingEncodedBytes : Nat := 64 * 1024 * 1024
deriving DecidableEq, Repr

structure PendingRecord where
  header : Bytes
  payload : Bytes
deriving DecidableEq, Repr

inductive RecordKind where
  | audio
  | encoded
deriving DecidableEq, Repr

/-- Where the worker is in the body of `drain`. -/
inductive Worker where
  | between
  | taken (record : PendingRecord)
  | headerWritten (record : PendingRecord)
deriving DecidableEq, Repr

structure FrameWriter where
  configuration : Configuration := {}
  pendingAudio : List PendingRecord := []
  pendingAudioBytes : Nat := 0
  pendingEncoded : List PendingRecord := []
  pendingEncodedBytes : Nat := 0
  lastWrittenRecordKind : Option RecordKind := none
  outputWorkerScheduled : Bool := false
  highWaterMarkBytes : Nat := 0
  worker : Worker := .between
deriving DecidableEq, Repr

/-- Bytes written to the sink, and what `writeEncoded` returns. -/
inductive Effect where
  | write (data : Bytes)
  | returned (accepted : Bool)
deriving DecidableEq, Repr

def queuedBytesLocked (writer : FrameWriter) : Nat :=
  writer.pendingAudioBytes + writer.pendingEncodedBytes

/-- The loop that makes room for an audio record of `count` bytes. -/
def dropOldest (maximum count : Nat) :
    List PendingRecord → Nat → List PendingRecord × Nat
  | [], bytes => ([], bytes)
  | oldest :: rest, bytes =>
    if maximum < bytes + count then
      dropOldest maximum count rest (bytes - oldest.payload.length)
    else (oldest :: rest, bytes)

def writeAudio (writer : FrameWriter) (pcm16le : Bytes) : FrameWriter × List Effect :=
  if pcm16le.length = 0 || writer.configuration.maximumPendingAudioBytes < pcm16le.length then
    (writer, [])
  else
    let record : PendingRecord :=
      { header := FrameProtocol.encodeAudioHeader pcm16le.length
        payload := pcm16le }
    let (kept, keptBytes) := dropOldest writer.configuration.maximumPendingAudioBytes
      record.payload.length writer.pendingAudio writer.pendingAudioBytes
    let next : FrameWriter :=
      { writer with
        pendingAudio := kept ++ [record]
        pendingAudioBytes := keptBytes + record.payload.length }
    ({ next with
        highWaterMarkBytes := max next.highWaterMarkBytes (queuedBytesLocked next)
        outputWorkerScheduled := true }, [])

/-- `EncoderDropPolicy.wouldOverflowOutputQueue`. -/
def wouldOverflowOutputQueue (queuedBytes recordBytes maxQueuedBytes : Nat) : Bool :=
  maxQueuedBytes < queuedBytes + recordBytes

/-- `writeEncoded`, with the header that its caller encodes. -/
def writeEncoded (writer : FrameWriter) (isKeyframe : Bool) (presentationTimestampMs : UInt32)
    (payload : Bytes) : FrameWriter × List Effect :=
  let record : PendingRecord :=
    { header := FrameProtocol.encodeEncodedVideoHeader payload.length isKeyframe
        presentationTimestampMs
      payload := payload }
  if wouldOverflowOutputQueue writer.pendingEncodedBytes record.payload.length
      writer.configuration.maximumPendingEncodedBytes then
    (writer, [.returned false])
  else
    let next : FrameWriter :=
      { writer with
        pendingEncoded := writer.pendingEncoded ++ [record]
        pendingEncodedBytes := writer.pendingEncodedBytes + record.payload.length }
    ({ next with
        highWaterMarkBytes := max next.highWaterMarkBytes (queuedBytesLocked next)
        outputWorkerScheduled := true }, [.returned true])

def takeMediaLocked (writer : FrameWriter) : FrameWriter × Option PendingRecord :=
  match writer.pendingEncoded with
  | [] => (writer, none)
  | encoded :: rest =>
    ({ writer with
        pendingEncoded := rest
        pendingEncodedBytes := writer.pendingEncodedBytes - encoded.payload.length
        lastWrittenRecordKind := some .encoded }, some encoded)

/-- Called with audio pending. -/
def takeAudioLocked (writer : FrameWriter) : FrameWriter × Option PendingRecord :=
  match writer.pendingAudio with
  | [] => (writer, none)
  | audio :: rest =>
    ({ writer with
        pendingAudio := rest
        pendingAudioBytes := writer.pendingAudioBytes - audio.payload.length
        lastWrittenRecordKind := some .audio }, some audio)

def takeNextRecord (writer : FrameWriter) : FrameWriter × Option PendingRecord :=
  if writer.pendingEncoded ≠ [] ∧ writer.pendingAudio ≠ [] then
    if writer.lastWrittenRecordKind = some .encoded then takeAudioLocked writer
    else takeMediaLocked writer
  else if writer.pendingEncoded ≠ [] then takeMediaLocked writer
  else if writer.pendingAudio ≠ [] then takeAudioLocked writer
  else ({ writer with outputWorkerScheduled := false }, none)

/-- The worker's next step: take a record, write its header, write its payload. -/
def drainStep (writer : FrameWriter) : FrameWriter × List Effect :=
  match writer.worker with
  | .between =>
    if writer.outputWorkerScheduled then
      match takeNextRecord writer with
      | (next, some record) => ({ next with worker := .taken record }, [])
      | (next, none) => (next, [])
    else (writer, [])
  | .taken record => ({ writer with worker := .headerWritten record }, [.write record.header])
  | .headerWritten record => ({ writer with worker := .between }, [.write record.payload])

inductive WriterEvent where
  | writeAudio (pcm16le : Bytes)
  | writeEncoded (isKeyframe : Bool) (presentationTimestampMs : UInt32) (payload : Bytes)
  | worker
deriving DecidableEq, Repr

def writerStep (writer : FrameWriter) : WriterEvent → FrameWriter × List Effect
  | .writeAudio pcm16le => writeAudio writer pcm16le
  | .writeEncoded isKeyframe presentationTimestampMs payload =>
    writeEncoded writer isKeyframe presentationTimestampMs payload
  | .worker => drainStep writer

end Writer

end AutoMobile.CaptureFrames
