import AutoMobile.ProtobufMessages

/- Length-prefixed messages, put together again from the chunks in which they arrive. -/
namespace AutoMobile.GrpcFraming

open ByteRecords List

section Frames

def HEADER_BYTES : Nat := 5

def frameMessage (message : Bytes) : Bytes := 0 :: writeBE 4 message.length ++ message

structure GrpcFrameDecoder where
  buffer : Bytes := []
  maxMessageBytes : Nat := 16 * 1024 * 1024
deriving DecidableEq, Repr

/-- The length field of the frame at the front. -/
def frameLength (buffer : Bytes) : Nat := readBE (subarray buffer 1 HEADER_BYTES)

/-- The loop of `push`: the messages of the complete frames, and the bytes left in the buffer. -/
def drainFrames (maxMessageBytes : Nat) (buffer : Bytes) (messages : List Bytes) :
    Bytes × Except String (List Bytes) :=
  if _enough : HEADER_BYTES ≤ buffer.length then
    if byteAt buffer 0 ≠ 0 then
      (buffer, .error "received a compressed gRPC message; compression was not negotiated")
    else
      let length := frameLength buffer
      if maxMessageBytes < length then
        (buffer, .error ("gRPC message of " ++ toString length ++ " bytes exceeds the " ++
          toString maxMessageBytes ++ "-byte limit"))
      else if buffer.length < HEADER_BYTES + length then (buffer, .ok messages)
      else
        drainFrames maxMessageBytes (buffer.drop (HEADER_BYTES + length))
          (messages ++ [subarray buffer HEADER_BYTES (HEADER_BYTES + length)])
  else (buffer, .ok messages)
termination_by buffer.length
decreasing_by
  unfold HEADER_BYTES at _enough ⊢
  rw [length_drop]
  omega

def push (decoder : GrpcFrameDecoder) (chunk : Bytes) :
    GrpcFrameDecoder × Except String (List Bytes) :=
  let drained := drainFrames decoder.maxMessageBytes (decoder.buffer ++ chunk) []
  ({ decoder with buffer := drained.1 }, drained.2)

def pendingBytes (decoder : GrpcFrameDecoder) : Nat := decoder.buffer.length

/-- Push after push, up to one that throws. -/
def pushAll (decoder : GrpcFrameDecoder) : List Bytes → GrpcFrameDecoder × Except String (List Bytes)
  | [] => (decoder, .ok [])
  | chunk :: chunks =>
    let pushed := push decoder chunk
    match pushed.2 with
    | .error thrown => (pushed.1, .error thrown)
    | .ok messages =>
      let later := pushAll pushed.1 chunks
      (later.1, later.2.map (messages ++ ·))

end Frames

section Splits

/-- A message within the limit, whose length fits its field. -/
def Within (maxMessageBytes : Nat) (message : Bytes) : Prop :=
  message.length ≤ maxMessageBytes ∧ message.length < 2 ^ 32

def framesOf (messages : List Bytes) : Bytes := (messages.map frameMessage).flatten

/-- The bytes of a frame that is not yet complete: none where no message is left. -/
def Incomplete (left : Bytes) : List Bytes → Prop
  | [] => left = []
  | message :: _ => ∃ missing, missing ≠ [] ∧ left ++ missing = frameMessage message

variable {maxMessageBytes : Nat} {message rest left : Bytes} {messages : List Bytes}

theorem frameMessage_length (message : Bytes) :
    (frameMessage message).length = HEADER_BYTES + message.length := by
  unfold frameMessage HEADER_BYTES
  rw [length_append, length_cons, writeBE_length]

theorem frameLength_frame (within : Within maxMessageBytes message) (rest : Bytes) :
    frameLength (frameMessage message ++ rest) = message.length := by
  have field : subarray (frameMessage message ++ rest) 1 HEADER_BYTES = writeBE 4 message.length := by
    unfold subarray frameMessage HEADER_BYTES
    rw [append_assoc, cons_append, drop_succ_cons, drop_zero,
      take_append_of_le_length (Nat.le_of_eq (writeBE_length _ _).symm), take_of_length_le
        (Nat.le_of_eq (writeBE_length _ _))]
  unfold frameLength
  rw [field, readBE_writeBE]
  apply Nat.mod_eq_of_lt
  have fits := within.2
  norm_num at fits ⊢
  exact fits

theorem byteAt_frame (message rest : Bytes) : byteAt (frameMessage message ++ rest) 0 = 0 := rfl

/-- The bytes sent so far are complete frames and the start of the next. -/
theorem exists_split {sent : Bytes} (messages : List Bytes) (more : Bytes)
    (whole : sent ++ more = framesOf messages) :
    ∃ done todo left, messages = done ++ todo ∧ sent = framesOf done ++ left ∧
      Incomplete left todo := by
  induction messages generalizing sent with
  | nil =>
    have empty : sent = [] := (append_eq_nil_iff.mp whole).1
    exact ⟨[], [], [], rfl, empty, rfl⟩
  | cons message messages ih =>
    have split : sent ++ more = frameMessage message ++ framesOf messages := whole
    by_cases short : sent.length < (frameMessage message).length
    · refine ⟨[], message :: messages, sent, rfl, rfl,
        (frameMessage message).drop sent.length, ?_, ?_⟩
      · intro none
        have past := drop_eq_nil_iff.mp none
        omega
      · have front := congrArg (List.take sent.length) split
        rw [take_left, take_append_of_le_length (Nat.le_of_lt short)] at front
        calc sent ++ (frameMessage message).drop sent.length
            = (frameMessage message).take sent.length ++
                (frameMessage message).drop sent.length := by rw [← front]
          _ = frameMessage message := take_append_drop _ _
    · have long : (frameMessage message).length ≤ sent.length := Nat.not_lt.mp short
      have front := congrArg (List.take (frameMessage message).length) split
      rw [take_append_of_le_length long, take_left] at front
      have rest := congrArg (List.drop (frameMessage message).length) split
      rw [drop_append_of_le_length long, drop_left] at rest
      obtain ⟨done, todo, left, parts, sent', incomplete⟩ := ih rest
      refine ⟨message :: done, todo, left, by rw [parts]; rfl, ?_, incomplete⟩
      have cut := take_append_drop (frameMessage message).length sent
      rw [front, sent'] at cut
      rw [← cut]
      exact (append_assoc _ _ _).symm

/-- An incomplete frame stays in the buffer. -/
theorem drainFrames_incomplete {todo : List Bytes}
    (within : ∀ message ∈ todo, Within maxMessageBytes message) (incomplete : Incomplete left todo)
    (messages : List Bytes) :
    drainFrames maxMessageBytes left messages = (left, .ok messages) := by
  rw [drainFrames]
  by_cases enough : HEADER_BYTES ≤ left.length
  · rw [dif_pos enough]
    cases todo with
    | nil =>
      cases incomplete
      exact absurd enough (by decide)
    | cons message todo =>
      obtain ⟨missing, some, whole⟩ := incomplete
      have proper := within message mem_cons_self
      have head : byteAt left 0 = 0 := by
        have same := byteAt_frame message []
        rw [append_nil, ← whole] at same
        match left, enough with
        | first :: others, _ => exact same
      have length : frameLength left = message.length := by
        have same := frameLength_frame proper []
        rw [append_nil, ← whole] at same
        rw [← same]
        unfold frameLength subarray
        unfold HEADER_BYTES at enough ⊢
        rw [drop_append_of_le_length (by omega),
          take_append_of_le_length (by rw [length_drop]; omega)]
      have short : left.length < HEADER_BYTES + message.length := by
        have size := congrArg List.length whole
        have positive := length_pos_of_ne_nil some
        rw [length_append, frameMessage_length] at size
        omega
      have capped := proper.1
      dsimp only
      rw [if_neg (not_not.mpr head), length, if_neg (Nat.not_lt.mpr capped), if_pos short]
  · rw [dif_neg enough]

/-- The complete frames give their messages. -/
theorem drainFrames_frames {done todo : List Bytes}
    (within : ∀ message ∈ done ++ todo, Within maxMessageBytes message)
    (incomplete : Incomplete left todo) (messages : List Bytes) :
    drainFrames maxMessageBytes (framesOf done ++ left) messages =
      (left, .ok (messages ++ done)) := by
  induction done generalizing messages with
  | nil =>
    rw [append_nil]
    exact drainFrames_incomplete within incomplete messages
  | cons message done ih =>
    have proper := within message mem_cons_self
    have whole : framesOf (message :: done) ++ left =
        frameMessage message ++ (framesOf done ++ left) := append_assoc _ _ _
    have size := frameMessage_length message
    have payload : subarray (frameMessage message ++ (framesOf done ++ left)) HEADER_BYTES
        (HEADER_BYTES + message.length) = message := by
      have header : (0 :: writeBE 4 message.length).length = HEADER_BYTES := by
        rw [length_cons, writeBE_length]
        rfl
      unfold subarray frameMessage
      rw [append_assoc, ← header, drop_left, Nat.add_sub_cancel_left, take_left]
    have capped := proper.1
    rw [whole, drainFrames, dif_pos (by rw [length_append]; omega)]
    dsimp only
    rw [if_neg (not_not.mpr (byteAt_frame message _)), frameLength_frame proper,
      if_neg (Nat.not_lt.mpr capped), if_neg (by rw [length_append]; omega), payload,
      ← size, drop_left, ih fun other member => within other (mem_cons_of_mem _ member),
      append_assoc]
    rfl

/-- What the pushes of a part of the stream give, and what the buffer holds after them. -/
theorem pushAll_part {decoder : GrpcFrameDecoder} {todo : List Bytes}
    (within : ∀ message ∈ todo, Within decoder.maxMessageBytes message) (chunks : List Bytes)
    (more : Bytes) (whole : decoder.buffer ++ (chunks.flatten ++ more) = framesOf todo)
    (incomplete : Incomplete decoder.buffer todo) :
    ∃ done rest left, todo = done ++ rest ∧
      decoder.buffer ++ chunks.flatten = framesOf done ++ left ∧ Incomplete left rest ∧
      pushAll decoder chunks = ({ decoder with buffer := left }, .ok done) := by
  induction chunks generalizing decoder todo with
  | nil => exact ⟨[], todo, decoder.buffer, rfl, append_nil _, incomplete, rfl⟩
  | cons chunk chunks ih =>
    rw [flatten_cons, append_assoc, ← append_assoc] at whole
    obtain ⟨done, rest, left, rfl, sent, partly⟩ := exists_split todo _ whole
    have pushed : push decoder chunk = ({ decoder with buffer := left }, .ok done) := by
      unfold push
      rw [sent, drainFrames_frames within partly]
      rfl
    have further : left ++ (chunks.flatten ++ more) = framesOf rest := by
      rw [sent, append_assoc] at whole
      unfold framesOf at whole
      rw [map_append, flatten_append] at whole
      exact append_cancel_left whole
    obtain ⟨later, todo, last, rfl, rejoined, unfinished, ran⟩ :=
      @ih { decoder with buffer := left } rest
        (fun message member => within message (mem_append_right _ member)) further partly
    refine ⟨done ++ later, todo, last, (append_assoc _ _ _).symm, ?_, unfinished, ?_⟩
    · rw [flatten_cons, ← append_assoc, sent, append_assoc, rejoined]
      unfold framesOf
      rw [map_append, flatten_append, append_assoc]
    · unfold pushAll
      rw [pushed]
      dsimp only
      rw [ran]
      rfl

/-- Nothing is left over when all the frames are there. -/
theorem incomplete_framesOf {todo : List Bytes} (incomplete : Incomplete (framesOf todo) todo) :
    todo = [] := by
  cases todo with
  | nil => rfl
  | cons message todo =>
    obtain ⟨missing, some, whole⟩ := incomplete
    have size := congrArg List.length whole
    have positive := length_pos_of_ne_nil some
    have split : framesOf (message :: todo) = frameMessage message ++ framesOf todo := rfl
    rw [split, length_append, length_append] at size
    omega

end Splits

section Streams

open DoublePrecision ProtobufWire

/-- Decoding throws, or ends at the end of the bytes. -/
def Settles (bytes : Bytes) : Prop :=
  (∃ thrown, decodeFields bytes = .error thrown) ∨
    ∃ fields, decodeLoop bytes 0 = .ok (fields, .finite bytes.length)

/-- Frames and messages come back as they were written; other bytes settle just where no length is
a varint with a late zero. -/
theorem grpc_round_trip (maxMessageBytes : Nat) (messages chunks : List Bytes) (calls : List Call)
    (bytes : Bytes) :
    ((∀ message ∈ messages, Within maxMessageBytes message) → chunks.flatten = framesOf messages →
      (pushAll { maxMessageBytes } chunks).2 = .ok messages ∧
        ∀ before after, chunks = before ++ after → ∃ done todo left,
          messages = done ++ todo ∧ before.flatten = framesOf done ++ left ∧
            Incomplete left todo ∧ (pushAll { maxMessageBytes } before).2 = .ok done ∧
            pendingBytes (pushAll { maxMessageBytes } before).1 = left.length) ∧
      ((∀ call ∈ calls, call.InRange) → ∃ message, finish calls = .ok message) ∧
      (∀ message : Bytes, finish calls = .ok message →
        decodeFields message = .ok (calls.filterMap Call.decoded)) ∧
      decodeFields bytes ≠ .error .outside ∧
      (Settles bytes ↔ ¬Stalls bytes) := by
  refine ⟨?_, finish_ok, fun _ => decodeFields_finish, ?_, ?_⟩
  · intro within whole
    have start : Incomplete [] messages := by
      cases messages with
      | nil => rfl
      | cons message messages => exact ⟨frameMessage message, cons_ne_nil _ _, rfl⟩
    have part : ∀ before after, chunks = before ++ after → ∃ done todo left,
        messages = done ++ todo ∧ before.flatten = framesOf done ++ left ∧ Incomplete left todo ∧
          pushAll { maxMessageBytes } before = ({ buffer := left, maxMessageBytes }, .ok done) := by
      intro before after split
      rw [split, flatten_append] at whole
      exact @pushAll_part { maxMessageBytes } messages within before after.flatten whole start
    refine ⟨?_, fun before after split => ?_⟩
    · obtain ⟨done, todo, left, parts, sent, incomplete, ran⟩ := part chunks [] (append_nil _).symm
      rw [whole, parts] at sent
      unfold framesOf at sent
      rw [map_append, flatten_append] at sent
      have rest : framesOf todo = left := append_cancel_left sent
      rw [← rest] at incomplete
      rw [ran, parts, incomplete_framesOf incomplete, append_nil]
    · obtain ⟨done, todo, left, parts, sent, incomplete, ran⟩ := part before after split
      refine ⟨done, todo, left, parts, sent, incomplete, ?_, ?_⟩
      · rw [ran]
      · rw [ran]
        rfl
  · intro failed
    unfold decodeFields at failed
    cases ran : decodeLoop bytes 0 with
    | error thrown =>
      rw [ran] at failed
      cases failed
      exact decodeLoop_ne_outside ran
    | ok result =>
      rw [ran] at failed
      cases failed
  · constructor
    · intro settles stalls
      obtain ⟨fields, stalled⟩ := decodeLoop_stalls stalls (rfl : bytes.drop 0 = bytes)
      rcases settles with ⟨thrown, failed⟩ | ⟨others, done⟩
      · unfold decodeFields at failed
        rw [stalled] at failed
        cases failed
      · rw [stalled] at done
        cases done
    · intro moving
      unfold Settles decodeFields
      cases ran : decodeLoop bytes 0 with
      | error thrown => exact Or.inl ⟨thrown, rfl⟩
      | ok result =>
        obtain ⟨fields, ended⟩ := result
        rcases of_decodeLoop (Nat.zero_le _) ran with whole | ⟨-, stalls⟩
        · exact Or.inr ⟨fields, by rw [whole]⟩
        · exact absurd stalls moving

theorem grpc_round_trip_split : (pushAll {} [[0, 0, 0], [0, 2, 7], [9]]).2 = .ok [[7, 9]] ∧
      decodeFields [0x10, 0x96, 0x01, 0x1a, 0x01, 0x05] =
        .ok [{ field := 2, value := .varint (.finite 150) }, { field := 3, value := .bytes [5] }] :=
  ⟨((grpc_round_trip (16 * 1024 * 1024) [[7, 9]] [[0, 0, 0], [0, 2, 7], [9]] [] []).1
      (fun message member => by
        rw [mem_singleton.mp member]
        exact ⟨by decide, by decide⟩) (by decide)).1,
    (grpc_round_trip 0 [] [] [.varint 2 150, .bytes 3 [5], .varint 4 0] []).2.2.1
      [0x10, 0x96, 0x01, 0x1a, 0x01, 0x05] (by decide +kernel)⟩

/-- A field of one length-delimited value, whose length is a varint of 148 zero groups, and a byte
after it. -/
def stalling : Bytes := 0x0a :: List.replicate 147 0x80 ++ [0x00, 0x07]

/-- The last byte is neither decoded nor refused. -/
theorem stalling_unread : decodeLoop stalling 0 = .ok ([{ field := 1, value := .bytes [] }], .nan) ∧
      ¬Settles stalling := by
  have stalled : decodeLoop stalling 0 = .ok ([{ field := 1, value := .bytes [] }], .nan) := by
    decide +kernel
  refine ⟨stalled, ?_⟩
  rintro (⟨thrown, failed⟩ | ⟨fields, done⟩)
  · unfold decodeFields at failed
    rw [stalled] at failed
    cases failed
  · rw [stalled] at done
    cases done

end Streams

end AutoMobile.GrpcFraming
