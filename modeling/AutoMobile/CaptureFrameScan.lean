import AutoMobile.CaptureFrameProtocol
import AutoMobile.IncrementalScan
import AutoMobile.Runs

/- The decoder as a scanner: what it reports does not depend on how its input is cut. -/
namespace AutoMobile.CaptureFrames

open ByteRecords IncrementalScan List Runs

section Headers

variable {bytes : Bytes}

theorem byteAt_append {index : Nat} (within : index < bytes.length) (more : Bytes) :
    byteAt (bytes ++ more) index = byteAt bytes index := by
  simp only [byteAt, getD_eq_getElem?_getD, getElem?_append_left within]

theorem readUInt32LE_append {index : Nat} (within : index + 4 ≤ bytes.length) (more : Bytes) :
    readUInt32LE (bytes ++ more) index = readUInt32LE bytes index := by
  unfold readUInt32LE
  rw [byteAt_append (by omega), byteAt_append (by omega), byteAt_append (by omega),
    byteAt_append (by omega)]

theorem parseFields_append (enough : FRAME_HEADER_SIZE ≤ bytes.length) (more : Bytes) :
    parseFields (bytes ++ more) 0 = parseFields bytes 0 := by
  unfold FRAME_HEADER_SIZE at enough
  unfold parseFields
  rw [readUInt32LE_append (by omega), readUInt32LE_append (by omega),
    readUInt32LE_append (by omega), readUInt32LE_append (by omega)]

/-- The header's bytes alone decide whether it is valid. -/
theorem headerErrorAt_append (enough : FRAME_HEADER_SIZE ≤ bytes.length) (more : Bytes) :
    headerErrorAt (bytes ++ more) 0 = headerErrorAt bytes 0 := by
  have fields : subarray (bytes ++ more) (0 + HEADER_FIELDS_OFFSET) (0 + FRAME_HEADER_SIZE) =
      subarray bytes (0 + HEADER_FIELDS_OFFSET) (0 + FRAME_HEADER_SIZE) := by
    unfold FRAME_HEADER_SIZE at enough
    unfold subarray HEADER_FIELDS_OFFSET FRAME_HEADER_SIZE
    rw [drop_append_of_le_length (by omega), take_append_of_le_length (by rw [length_drop]; omega)]
  have size := enough
  unfold FRAME_HEADER_SIZE at size
  unfold headerErrorAt
  rw [readUInt32LE_append (by omega), readUInt32LE_append (by omega), parseFields_append enough,
    fields]

/-- The marker's number is read off the marker's bytes. -/
theorem readUInt32LE_magic (read : readUInt32LE bytes 0 = FRAME_MAGIC) (enough : 4 ≤ bytes.length) :
    FRAME_MAGIC_BYTES.isPrefixOf bytes = true := by
  match bytes, enough with
  | first :: second :: third :: fourth :: rest, _ =>
    have sum : first.toNat + 256 * second.toNat + 65536 * third.toNat +
        16777216 * fourth.toNat = 0x31464d41 := read
    have one := first.toNat_lt
    have two := second.toNat_lt
    have three := third.toNat_lt
    have four := fourth.toNat_lt
    have same : ∀ {byte : UInt8} {value : UInt8}, byte.toNat = value.toNat → byte = value :=
      UInt8.toNat_inj.mp
    have byte1 : first = 0x41 := same (show first.toNat = 65 by omega)
    have byte2 : second = 0x4d := same (show second.toNat = 77 by omega)
    have byte3 : third = 0x46 := same (show third.toNat = 70 by omega)
    have byte4 : fourth = 0x31 := same (show fourth.toNat = 49 by omega)
    rw [byte1, byte2, byte3, byte4]
    rfl

theorem headerErrorAt_magic (sound : headerErrorAt bytes 0 = none) (enough : 4 ≤ bytes.length) :
    FRAME_MAGIC_BYTES.isPrefixOf bytes = true := by
  apply readUInt32LE_magic _ enough
  unfold headerErrorAt at sound
  split at sound
  next => cases sound
  next read => exact not_not.mp read

end Headers

section Scanning

inductive Phase where
  | aligned
  | lost
deriving DecidableEq, Repr

/-- The record at a valid header, once its payload is there. -/
def takeRecord (bytes : Bytes) : Option (Phase × List Report × Bytes) :=
  let header := parseFields bytes 0
  let size := payloadSize header
  if FRAME_HEADER_SIZE + size ≤ bytes.length then
    some (.aligned, [emitRecord header ((bytes.drop FRAME_HEADER_SIZE).take size)],
      (bytes.drop FRAME_HEADER_SIZE).drop size)
  else none

/-- A record, or a malformed header. -/
def takeAligned (bytes : Bytes) : Option (Phase × List Report × Bytes) :=
  if FRAME_HEADER_SIZE ≤ bytes.length then
    match headerErrorAt bytes 0 with
    | none => takeRecord bytes
    | some reason => some (.lost, [.malformed reason (parseFields bytes 0)], bytes.drop 1)
  else none

/-- A record, or a byte that begins no valid header. -/
def takeLost (bytes : Bytes) : Option (Phase × List Report × Bytes) :=
  if FRAME_MAGIC_BYTES.length ≤ bytes.length then
    if FRAME_MAGIC_BYTES.isPrefixOf bytes then
      if FRAME_HEADER_SIZE ≤ bytes.length then
        if headerErrorAt bytes 0 = none then takeRecord bytes else some (.lost, [], bytes.drop 1)
      else none
    else some (.lost, [], bytes.drop 1)
  else none

def takeUnit : Phase → Bytes → Option (Phase × List Report × Bytes)
  | .aligned => takeAligned
  | .lost => takeLost

variable {bytes rest : Bytes} {next : Phase} {reports : List Report}

theorem takeRecord_shorter (taken : takeRecord bytes = some (next, reports, rest)) :
    rest.length < bytes.length := by
  unfold takeRecord at taken
  dsimp only at taken
  split at taken
  next enough =>
    cases taken
    unfold FRAME_HEADER_SIZE at enough ⊢
    rw [length_drop, length_drop]
    omega
  next => cases taken

theorem takeRecord_stable (taken : takeRecord bytes = some (next, reports, rest)) (more : Bytes) :
    takeRecord (bytes ++ more) = some (next, reports, rest ++ more) := by
  unfold takeRecord at taken ⊢
  dsimp only at taken ⊢
  split at taken
  next enough =>
    have header : FRAME_HEADER_SIZE ≤ bytes.length := by omega
    have payload : payloadSize (parseFields bytes 0) ≤ (bytes.drop FRAME_HEADER_SIZE).length := by
      rw [length_drop]
      omega
    rw [parseFields_append header, drop_append_of_le_length header,
      take_append_of_le_length payload, drop_append_of_le_length payload,
      if_pos (by rw [length_append]; omega)]
    cases taken
    rfl
  next => cases taken

theorem isPrefixOf_append {marker : Bytes} (enough : marker.length ≤ bytes.length) (more : Bytes) :
    marker.isPrefixOf (bytes ++ more) = marker.isPrefixOf bytes := by
  rw [Bool.eq_iff_iff, isPrefixOf_iff_prefix, isPrefixOf_iff_prefix,
    prefix_iff_eq_take, prefix_iff_eq_take, take_append_of_le_length enough]

theorem takeUnit_shorter {phase : Phase}
    (taken : takeUnit phase bytes = some (next, reports, rest)) : rest.length < bytes.length := by
  have dropped : 4 ≤ bytes.length → (bytes.drop 1).length < bytes.length := by
    intro enough
    rw [length_drop]
    omega
  cases phase with
  | aligned =>
    change takeAligned bytes = _ at taken
    unfold takeAligned at taken
    split at taken
    next enough =>
      split at taken
      next => exact takeRecord_shorter taken
      next =>
        cases taken
        exact dropped (Nat.le_trans (by decide) enough)
    next => cases taken
  | lost =>
    change takeLost bytes = _ at taken
    unfold takeLost at taken
    split at taken
    next enough =>
      split at taken
      next =>
        split at taken
        next =>
          split at taken
          next => exact takeRecord_shorter taken
          next =>
            cases taken
            exact dropped enough
        next => cases taken
      next =>
        cases taken
        exact dropped enough
    next => cases taken

theorem takeUnit_stable {phase : Phase} (taken : takeUnit phase bytes = some (next, reports, rest))
    (more : Bytes) :
    takeUnit phase (bytes ++ more) = some (next, reports, rest ++ more) := by
  have longer : ∀ {count}, count ≤ bytes.length → count ≤ (bytes ++ more).length := by
    intro count enough
    rw [length_append]
    omega
  have dropped : 4 ≤ bytes.length → (bytes ++ more).drop 1 = bytes.drop 1 ++ more :=
    fun enough => drop_append_of_le_length (by omega)
  cases phase with
  | aligned =>
    change takeAligned bytes = _ at taken
    show takeAligned (bytes ++ more) = _
    unfold takeAligned at taken ⊢
    split at taken
    next enough =>
      rw [if_pos (longer enough), headerErrorAt_append enough, parseFields_append enough]
      split at taken
      next => exact takeRecord_stable taken more
      next =>
        cases taken
        rw [dropped (Nat.le_trans (by decide) enough)]
    next => cases taken
  | lost =>
    change takeLost bytes = _ at taken
    show takeLost (bytes ++ more) = _
    unfold takeLost at taken ⊢
    split at taken
    next enough =>
      rw [if_pos (longer enough), isPrefixOf_append enough]
      split at taken
      next marked =>
        rw [if_pos marked]
        split at taken
        next whole =>
          rw [if_pos (longer whole), headerErrorAt_append whole]
          split at taken
          next sound =>
            rw [if_pos sound]
            exact takeRecord_stable taken more
          next wrong =>
            rw [if_neg wrong]
            cases taken
            rw [dropped enough]
        next => cases taken
      next unmarked =>
        rw [if_neg unmarked]
        cases taken
        rw [dropped enough]
    next => cases taken

def scanner : Scanner Phase UInt8 Report where
  take := takeUnit
  shorter := takeUnit_shorter
  stable := takeUnit_stable

end Scanning

section Search

variable {bytes : Bytes} {searchFrom : Nat}

/-- Where a lost scan meets no valid header, it moves on by one byte. -/
theorem drain_lost (enough : FRAME_MAGIC_BYTES.length ≤ bytes.length)
    (wrong : FRAME_MAGIC_BYTES.isPrefixOf bytes = false ∨
      (FRAME_HEADER_SIZE ≤ bytes.length ∧ headerErrorAt bytes 0 ≠ none)) :
    drain scanner .lost bytes = drain scanner .lost (bytes.drop 1) := by
  have taken : scanner.take .lost bytes = some (.lost, [], bytes.drop 1) := by
    show takeLost bytes = _
    unfold takeLost
    rw [if_pos enough]
    rcases wrong with unmarked | ⟨whole, invalid⟩
    · rw [unmarked, if_neg Bool.false_ne_true]
    · rw [if_pos whole, if_neg invalid]
      split <;> rfl
  rw [drain_some taken]
  rfl

/-- Bytes that carry no marker are passed over. -/
theorem drain_lost_range {start stop : Nat} (ordered : start ≤ stop)
    (within : stop + 3 ≤ bytes.length) (unmarked : ∀ index, start ≤ index → index < stop →
      FRAME_MAGIC_BYTES.isPrefixOf (bytes.drop index) = false) :
    drain scanner .lost (bytes.drop start) = drain scanner .lost (bytes.drop stop) := by
  induction ordered with
  | refl => rfl
  | @step stop ordered ih =>
    have inner := ih (by omega) fun index first last => unmarked index first (by omega)
    have enough : FRAME_MAGIC_BYTES.length ≤ (bytes.drop stop).length := by
      rw [length_drop]
      show 4 ≤ _
      omega
    rw [inner, drain_lost enough (Or.inl (unmarked stop ordered (Nat.lt_succ_self _))), drop_drop]

theorem drain_lost_short (short : bytes.length < FRAME_MAGIC_BYTES.length) :
    drain scanner .lost bytes = (.lost, [], bytes) := by
  apply drain_none
  show takeLost bytes = none
  unfold takeLost
  rw [if_neg (Nat.not_le.mpr short)]

theorem indexOfMagic_some {buffer : Bytes} {index : Nat}
    (found : indexOfMagic buffer searchFrom = some index) :
    FRAME_MAGIC_BYTES.isPrefixOf (buffer.drop index) = true ∧
      ∀ earlier, searchFrom ≤ earlier → earlier < index →
        FRAME_MAGIC_BYTES.isPrefixOf (buffer.drop earlier) = false := by
  obtain ⟨here, _, before⟩ := find?_range_eq_some.mp found
  rw [Bool.and_eq_true] at here
  refine ⟨here.2, fun earlier first last => ?_⟩
  have missing := before earlier last
  rw [decide_eq_true first, Bool.true_and, Bool.not_eq_true'] at missing
  exact missing

theorem indexOfMagic_none {buffer : Bytes} (found : indexOfMagic buffer searchFrom = none)
    {index : Nat} (first : searchFrom ≤ index) (within : index ≤ buffer.length) :
    FRAME_MAGIC_BYTES.isPrefixOf (buffer.drop index) = false := by
  have missing := find?_range_eq_none.mp found index (Nat.lt_succ_of_le within)
  rw [decide_eq_true first, Bool.true_and, Bool.not_eq_true'] at missing
  exact missing

theorem isPrefixOf_length {marker : Bytes} (marked : marker.isPrefixOf bytes = true) :
    marker.length ≤ bytes.length :=
  (List.isPrefixOf_iff_prefix.mp marked).length_le

/-- What a lost scan leaves where the search for a marker ends. -/
def Search.drained (bytes : Bytes) : Search → Phase × List Report × Bytes
  | .incomplete index => (.lost, [], bytes.drop index)
  | .valid index => drain scanner .lost (bytes.drop index)
  | .exhausted => (.lost, [], bytes.drop (bytes.length - (FRAME_MAGIC_BYTES.length - 1)))

/-- The search for a marker is the lost scan. -/
theorem drain_searchMarker (start : searchFrom = 0 ∨ searchFrom + 4 ≤ bytes.length) :
    drain scanner .lost (bytes.drop searchFrom) = (searchMarker bytes searchFrom).drained bytes := by
  fun_induction searchMarker bytes searchFrom with
  | case1 searchFrom within found =>
    have room : searchFrom + 4 ≤ bytes.length := within
    have skipped := @drain_lost_range bytes searchFrom (bytes.length - 3) (by omega) (by omega)
      fun index first last => indexOfMagic_none found first (by omega)
    have short : (bytes.drop (bytes.length - 3)).length < FRAME_MAGIC_BYTES.length := by
      rw [length_drop]
      show _ < 4
      omega
    rw [skipped, drain_lost_short short]
    rfl
  | case2 searchFrom within index found early =>
    obtain ⟨marked, before⟩ := indexOfMagic_some found
    have four := isPrefixOf_length marked
    have later := indexOfMagic_le found
    rw [length_drop] at four
    have inside : index + 3 ≤ bytes.length := by
      have size : FRAME_MAGIC_BYTES.length = 4 := rfl
      omega
    have stuck : scanner.take .lost (bytes.drop index) = none := by
      show takeLost (bytes.drop index) = none
      unfold takeLost
      rw [if_pos (by rw [length_drop]; exact four), if_pos marked,
        if_neg (by rw [length_drop]; omega)]
    rw [drain_lost_range later inside before, drain_none stuck]
    rfl
  | case3 searchFrom within index found whole sound =>
    have later := indexOfMagic_le found
    have room : index + 24 ≤ bytes.length := Nat.not_lt.mp whole
    exact drain_lost_range later (by omega) (indexOfMagic_some found).2
  | case4 searchFrom within index found whole wrong ih =>
    obtain ⟨marked, before⟩ := indexOfMagic_some found
    have later := indexOfMagic_le found
    have room : index + 24 ≤ bytes.length := Nat.not_lt.mp whole
    have enough : FRAME_HEADER_SIZE ≤ (bytes.drop index).length := by
      rw [length_drop]
      show 24 ≤ _
      omega
    rw [← ih (Or.inr (by omega)), drain_lost_range later (by omega) before,
      drain_lost (isPrefixOf_length marked)
        (Or.inr ⟨enough, by rw [headerErrorAt_drop]; exact wrong⟩), drop_drop]
  | case5 searchFrom within =>
    have short : bytes.length < searchFrom + 4 := Nat.not_le.mp within
    have zero : searchFrom = 0 := by omega
    have none : bytes.length - (FRAME_MAGIC_BYTES.length - 1) = 0 := by
      show bytes.length - 3 = 0
      omega
    subst zero
    rw [drop_zero, drain_lost_short (by show _ < 4; omega)]
    show _ = (Phase.lost, [], bytes.drop (bytes.length - (FRAME_MAGIC_BYTES.length - 1)))
    rw [none, drop_zero]

end Search

section Reads

/-- The decoder holds what the scanner has left over, up to a valid header that it has taken in. -/
inductive Holds : FrameDecoder → Phase → Bytes → Prop where
  | free (decoder : FrameDecoder) (phase : Phase) (none : decoder.pendingHeader = none)
      (lost : decoder.resynchronizing = decide (phase = .lost)) :
      Holds decoder phase decoder.buffer
  | pending (decoder : FrameDecoder) (phase : Phase) (front : Bytes)
      (size : front.length = FRAME_HEADER_SIZE) (sound : headerErrorAt front 0 = Option.none)
      (header : decoder.pendingHeader = some (parseFields front 0))
      (aligned : decoder.resynchronizing = false) :
      Holds decoder phase (front ++ decoder.buffer)

/-- The outputs, ahead of what is drained later. -/
def ahead (reports : List Report) (later : Phase × List Report × Bytes) :
    Phase × List Report × Bytes := (later.1, reports ++ later.2.1, later.2.2)

theorem ahead_nil (later : Phase × List Report × Bytes) : ahead [] later = later := rfl

/-- What a turn of the loop is to the scanner: its reports, and then the rest of the scan. -/
def Drains (phase : Phase) (bytes : Bytes) (turn : Turn) : Prop :=
  ∃ next rest, Holds turn.decoder next rest ∧
    drain scanner phase bytes = ahead turn.reports (drain scanner next rest) ∧
    (turn.again = false → scanner.take next rest = none)

variable {bytes : Bytes} {decoder : FrameDecoder} {phase : Phase}

theorem take_valid (phase : Phase) (enough : FRAME_HEADER_SIZE ≤ bytes.length)
    (sound : headerErrorAt bytes 0 = none) : scanner.take phase bytes = takeRecord bytes := by
  cases phase with
  | aligned =>
    show takeAligned bytes = _
    unfold takeAligned
    rw [if_pos enough, sound]
  | lost =>
    have four : FRAME_MAGIC_BYTES.length ≤ bytes.length := Nat.le_trans (by decide) enough
    show takeLost bytes = _
    unfold takeLost
    rw [if_pos four, if_pos (headerErrorAt_magic sound four), if_pos enough, if_pos sound]

/-- The payload after a valid header. -/
theorem takePayload_drains {front : Bytes} (phase : Phase) (progress : Bool)
    (size : front.length = FRAME_HEADER_SIZE) (sound : headerErrorAt front 0 = none)
    (header : decoder.pendingHeader = some (parseFields front 0))
    (aligned : decoder.resynchronizing = false) :
    Drains phase (front ++ decoder.buffer)
      (takePayload decoder (parseFields front 0) progress) := by
  have same := parseFields_append (Nat.le_of_eq size.symm) decoder.buffer
  have valid := headerErrorAt_append (Nat.le_of_eq size.symm) decoder.buffer
  have payload : (front ++ decoder.buffer).drop FRAME_HEADER_SIZE = decoder.buffer :=
    drop_left' size
  have enough : FRAME_HEADER_SIZE ≤ (front ++ decoder.buffer).length := by
    rw [length_append]
    omega
  have taken := take_valid phase enough (valid.trans sound)
  unfold takeRecord at taken
  dsimp only at taken
  rw [same, payload] at taken
  unfold takePayload
  dsimp only
  split
  next short =>
    have stuck : scanner.take phase (front ++ decoder.buffer) = none := by
      rw [taken, if_neg (by rw [length_append]; omega)]
    exact ⟨phase, _, Holds.pending decoder phase front size sound header aligned,
      (ahead_nil _).symm, fun _ => stuck⟩
  next long =>
    rw [if_pos (by rw [length_append]; omega)] at taken
    refine ⟨.aligned, _, Holds.free _ .aligned rfl aligned, ?_, fun missing => by cases missing⟩
    rw [drain_some taken]
    rfl

theorem alignedTurn_drains (free : decoder.pendingHeader = none)
    (aligned : decoder.resynchronizing = false) (certain : phase = .aligned ∨
      (FRAME_HEADER_SIZE ≤ decoder.buffer.length ∧ headerErrorAt decoder.buffer 0 = none)) :
    Drains phase decoder.buffer (alignedTurn decoder) := by
  unfold alignedTurn
  rw [free]
  dsimp only
  by_cases short : decoder.buffer.length < FRAME_HEADER_SIZE
  · have start : phase = .aligned := by
      rcases certain with start | ⟨enough, _⟩
      · exact start
      · omega
    subst start
    have stuck : scanner.take .aligned decoder.buffer = none := by
      show takeAligned decoder.buffer = none
      unfold takeAligned
      rw [if_neg (Nat.not_le.mpr short)]
    rw [takeHeader_starved short]
    exact ⟨.aligned, _, Holds.free decoder .aligned free aligned, (ahead_nil _).symm,
      fun _ => stuck⟩
  · have enough := Nat.not_lt.mp short
    cases judged : headerErrorAt decoder.buffer 0 with
    | some reason =>
      have start : phase = .aligned := by
        rcases certain with start | ⟨_, sound⟩
        · exact start
        · rw [sound] at judged
          cases judged
      subst start
      have taken : scanner.take .aligned decoder.buffer =
          some (.lost, [.malformed reason (parseFields decoder.buffer 0)],
            decoder.buffer.drop 1) := by
        show takeAligned decoder.buffer = _
        unfold takeAligned
        rw [if_pos enough, judged]
      have wrong : headerErrorAt decoder.buffer 0 ≠ none := by
        rw [judged]
        exact Option.some_ne_none reason
      rw [takeHeader_malformed enough judged]
      refine ⟨.lost, decoder.buffer, Holds.free
        { decoder with resynchronizing := true } .lost free rfl, ?_,
        fun missing => by cases missing⟩
      rw [drain_some taken, drain_lost (Nat.le_trans (by decide) enough)
        (Or.inr ⟨enough, wrong⟩)]
      rfl
    | none =>
      rw [takeHeader_valid enough judged]
      have size : (decoder.buffer.take FRAME_HEADER_SIZE).length = FRAME_HEADER_SIZE :=
        length_take_of_le enough
      have whole := take_append_drop FRAME_HEADER_SIZE decoder.buffer
      have sound : headerErrorAt (decoder.buffer.take FRAME_HEADER_SIZE) 0 = none := by
        rw [← headerErrorAt_append (Nat.le_of_eq size.symm)
          (decoder.buffer.drop FRAME_HEADER_SIZE), whole]
        exact judged
      have fields : parseFields (decoder.buffer.take FRAME_HEADER_SIZE) 0 =
          parseFields decoder.buffer 0 := by
        rw [← parseFields_append (Nat.le_of_eq size.symm)
          (decoder.buffer.drop FRAME_HEADER_SIZE), whole]
      have drains := @takePayload_drains
        { decoder with
          buffer := decoder.buffer.drop FRAME_HEADER_SIZE
          pendingHeader := some (parseFields decoder.buffer 0) }
        (decoder.buffer.take FRAME_HEADER_SIZE) phase true size sound (by rw [fields]) aligned
      rw [fields] at drains
      dsimp only at drains
      rw [whole] at drains
      exact drains

theorem turn_drains (holds : Holds decoder phase bytes) : Drains phase bytes (turn decoder) := by
  cases holds with
  | pending front size sound header aligned =>
    rw [turn_aligned aligned]
    unfold alignedTurn
    rw [header]
    exact takePayload_drains phase false size sound header aligned
  | free free lost =>
    cases phase with
    | aligned =>
      rw [turn_aligned lost]
      exact alignedTurn_drains free lost (Or.inl rfl)
    | lost =>
      have adrift : decoder.resynchronizing = true := lost
      have drained := @drain_searchMarker decoder.buffer 0 (Or.inl rfl)
      rw [drop_zero] at drained
      have stopped : ∀ count,
          drain scanner .lost decoder.buffer = (.lost, [], decoder.buffer.drop count) →
          Drains .lost decoder.buffer
            { decoder := { decoder with buffer := decoder.buffer.drop count } } := by
        intro count left
        have stuck := @take_drain _ _ _ scanner .lost decoder.buffer
        rw [left] at stuck
        refine ⟨.lost, decoder.buffer.drop count, Holds.free
          { decoder with buffer := decoder.buffer.drop count } .lost free adrift, ?_,
          fun _ => stuck⟩
        rw [left, drain_none stuck]
        rfl
      cases search : searchMarker decoder.buffer 0 with
      | incomplete index =>
        rw [search] at drained
        rw [turn_incomplete adrift search]
        exact stopped index drained
      | exhausted =>
        rw [search] at drained
        rw [turn_exhausted adrift search]
        exact stopped _ drained
      | valid index =>
        rw [search] at drained
        rw [turn_valid adrift search]
        obtain ⟨room, sound⟩ := searchMarker_valid search
        rw [← headerErrorAt_drop] at sound
        have enough : FRAME_HEADER_SIZE ≤ (decoder.buffer.drop index).length := by
          rw [length_drop]
          omega
        have drains := @alignedTurn_drains
          { decoder with buffer := decoder.buffer.drop index, resynchronizing := false }
          .lost free rfl (Or.inr ⟨enough, sound⟩)
        obtain ⟨next, rest, holds, later, idle⟩ := drains
        exact ⟨next, rest, holds, drained.trans later, idle⟩

/-- The loop drains the scanner. -/
theorem decodeAvailable_drains (holds : Holds decoder phase bytes) :
    Holds (decodeAvailable decoder).1 (drain scanner phase bytes).1
        (drain scanner phase bytes).2.2 ∧
      (decodeAvailable decoder).2.1 = (drain scanner phase bytes).2.1 := by
  induction decoder using decodeAvailable.induct generalizing phase bytes with
  | case1 decoder again ih =>
    obtain ⟨next, rest, holds, drained, _⟩ := turn_drains holds
    obtain ⟨after, reports⟩ := ih holds
    rw [decodeAvailable, dif_pos again, drained]
    refine ⟨after, ?_⟩
    dsimp only
    rw [reports]
    rfl
  | case2 decoder stop =>
    rw [decodeAvailable, dif_neg stop]
    obtain ⟨next, rest, holds, drained, idle⟩ := turn_drains holds
    have stuck := idle (Bool.eq_false_iff.mpr stop)
    rw [drained, drain_none stuck]
    exact ⟨holds, (append_nil _).symm⟩

theorem payloadSize_le (sound : headerErrorAt bytes 0 = none) :
    payloadSize (parseFields bytes 0) ≤ MAX_RECORD_PAYLOAD_BYTES := by
  have bounded : fieldBoundsError (parseFields bytes 0) = none := by
    unfold headerErrorAt at sound
    split at sound
    · cases sound
    split at sound
    · cases sound
    · exact sound
  unfold payloadSize
  unfold fieldBoundsError at bounded
  split at bounded
  next audio =>
    rw [if_pos audio]
    split at bounded
    next => cases bounded
    next fits => exact Nat.le_trans (Nat.not_lt.mp fits) (Nat.le_max_left _ _)
  next other =>
    rw [if_neg other]
    split at bounded
    next =>
      split at bounded
      next => cases bounded
      next fits => exact Nat.le_trans (Nat.not_lt.mp fits) (Nat.le_max_right _ _)
    next => cases bounded

theorem takeRecord_none (sound : headerErrorAt bytes 0 = none) (stuck : takeRecord bytes = none) :
    bytes.length < bufferLimit := by
  have bound := payloadSize_le sound
  unfold takeRecord at stuck
  dsimp only at stuck
  split at stuck
  next => cases stuck
  next short =>
    unfold bufferLimit
    omega

/-- What cannot be taken yet is less than one maximal record. -/
theorem stuck_length (stuck : scanner.take phase bytes = none) : bytes.length < bufferLimit := by
  have header : FRAME_HEADER_SIZE ≤ bufferLimit := Nat.le_add_right _ _
  by_cases enough : FRAME_HEADER_SIZE ≤ bytes.length
  · cases judged : headerErrorAt bytes 0 with
    | none => exact takeRecord_none judged ((take_valid phase enough judged).symm.trans stuck)
    | some reason =>
      have four : FRAME_MAGIC_BYTES.length ≤ bytes.length := Nat.le_trans (by decide) enough
      cases phase with
      | aligned =>
        change takeAligned bytes = none at stuck
        unfold takeAligned at stuck
        rw [if_pos enough, judged] at stuck
        cases stuck
      | lost =>
        change takeLost bytes = none at stuck
        unfold takeLost at stuck
        rw [if_pos four, if_pos enough, judged] at stuck
        split at stuck <;> cases stuck
  · omega

theorem Holds.buffer_le (holds : Holds decoder phase bytes) :
    decoder.buffer.length ≤ bytes.length := by
  cases holds with
  | free => exact Nat.le_refl _
  | pending front =>
    rw [length_append]
    exact Nat.le_add_left _ _

theorem Holds.append (holds : Holds decoder phase bytes) (more : Bytes) :
    Holds (CaptureFrames.append decoder more) phase (bytes ++ more) := by
  cases holds with
  | free free lost => exact Holds.free (CaptureFrames.append decoder more) phase free lost
  | pending front size sound header aligned =>
    rw [append_assoc]
    exact Holds.pending (CaptureFrames.append decoder more) phase front size sound header aligned

theorem takePayload_highWaterMark (decoder : FrameDecoder) (pending : FrameHeader)
    (progress : Bool) :
    (takePayload decoder pending progress).decoder.highWaterMarkBytes =
      decoder.highWaterMarkBytes := by
  unfold takePayload
  dsimp only
  split <;> rfl

theorem alignedTurn_highWaterMark (decoder : FrameDecoder) :
    (alignedTurn decoder).decoder.highWaterMarkBytes = decoder.highWaterMarkBytes := by
  unfold alignedTurn
  cases held : decoder.pendingHeader with
  | some pending => exact takePayload_highWaterMark _ _ _
  | none =>
    have kept : (takeHeader decoder).1.highWaterMarkBytes = decoder.highWaterMarkBytes := by
      unfold takeHeader
      split
      · rfl
      split <;> rfl
    cases taken : takeHeader decoder with
    | mk next outcome =>
      rw [taken] at kept
      cases outcome with
      | starved => exact kept
      | malformed report => exact kept
      | header header => exact (takePayload_highWaterMark _ _ _).trans kept

theorem decodeAvailable_highWaterMark (decoder : FrameDecoder) :
    (decodeAvailable decoder).1.highWaterMarkBytes = decoder.highWaterMarkBytes := by
  have step : ∀ decoder, (turn decoder).decoder.highWaterMarkBytes = decoder.highWaterMarkBytes := by
    intro decoder
    unfold turn resynchronize
    dsimp only
    split
    · cases searchMarker decoder.buffer 0 with
      | incomplete index => rfl
      | exhausted => rfl
      | valid index => exact alignedTurn_highWaterMark _
    · exact alignedTurn_highWaterMark _
  induction decoder using decodeAvailable.induct with
  | case1 decoder again ih =>
    rw [decodeAvailable, dif_pos again]
    exact ih.trans (step decoder)
  | case2 decoder stop =>
    rw [decodeAvailable, dif_neg stop]
    exact step decoder

/-- A chunk drains the scanner over what was left and the chunk, and no more than one maximal
record is ever held. -/
theorem push_drains {left : Bytes} (chunk : Bytes) (holds : Holds decoder phase left)
    (stuck : scanner.take phase left = none) (bounded : decoder.highWaterMarkBytes ≤ bufferLimit) :
    (Holds (push decoder chunk).1 (drain scanner phase (left ++ chunk)).1
        (drain scanner phase (left ++ chunk)).2.2 ∧
      (push decoder chunk).2 = (drain scanner phase (left ++ chunk)).2.1) ∧
      (push decoder chunk).1.highWaterMarkBytes ≤ bufferLimit := by
  induction size : chunk.length using Nat.strongRecOn generalizing decoder phase left chunk with
  | _ bound ih =>
    have room := stuck_length stuck
    have held := holds.buffer_le
    rw [push]
    by_cases more : chunk ≠ []
    · have free : ¬bufferLimit - decoder.buffer.length = 0 := by omega
      have positive := length_pos_of_ne_nil more
      rw [dif_pos more]
      dsimp only
      rw [dif_neg free]
      generalize available : bufferLimit - decoder.buffer.length = count at free ⊢
      have appended := holds.append (chunk.take count)
      obtain ⟨after, reports⟩ := decodeAvailable_drains appended
      have smaller : (chunk.drop count).length < bound := by
        rw [length_drop]
        omega
      have marked : (decodeAvailable
          (CaptureFrames.append decoder (chunk.take count))).1.highWaterMarkBytes ≤
          bufferLimit := by
        rw [decodeAvailable_highWaterMark]
        show max _ (decoder.buffer ++ chunk.take count).length ≤ _
        rw [length_append, length_take]
        omega
      obtain ⟨⟨last, later⟩, limit⟩ :=
        ih _ smaller (chunk.drop count) after (take_drain _ _) marked rfl
      have whole := @drain_append _ _ _ scanner phase (left ++ chunk.take count)
        (chunk.drop count)
      rw [append_assoc, take_append_drop] at whole
      rw [whole]
      refine ⟨⟨last, ?_⟩, limit⟩
      dsimp only
      rw [reports, later]
    · have none : chunk = [] := not_not.mp more
      subst none
      rw [dif_neg more, append_nil, drain_none stuck]
      exact ⟨⟨holds, rfl⟩, bounded⟩

end Reads

section Reference

/-- The least later offset at which a header validates. -/
def nextHeader (bytes : Bytes) : Option Nat :=
  (List.range bytes.length).find? fun offset =>
    0 < offset && offset + FRAME_HEADER_SIZE ≤ bytes.length && headerErrorAt bytes offset = none

variable {bytes : Bytes}

theorem nextHeader_some {offset : Nat} (found : nextHeader bytes = some offset) :
    (0 < offset ∧ offset + FRAME_HEADER_SIZE ≤ bytes.length ∧ headerErrorAt bytes offset = none) ∧
      ∀ earlier, 0 < earlier → earlier < offset → headerErrorAt bytes earlier ≠ none := by
  obtain ⟨here, _, before⟩ := find?_range_eq_some.mp found
  simp only [Bool.and_eq_true, decide_eq_true_eq] at here
  refine ⟨⟨here.1.1, here.1.2, here.2⟩, fun earlier positive less sound => ?_⟩
  have missing := before earlier less
  have room : earlier + FRAME_HEADER_SIZE ≤ bytes.length := by omega
  simp [positive, room, sound] at missing

theorem nextHeader_none (found : nextHeader bytes = none) {offset : Nat} (positive : 0 < offset)
    (room : offset + FRAME_HEADER_SIZE ≤ bytes.length) :
    headerErrorAt bytes offset ≠ none := by
  intro sound
  have within : offset < bytes.length := by
    have size : FRAME_HEADER_SIZE = 24 := rfl
    omega
  have missing := find?_range_eq_none.mp found offset within
  simp [positive, room, sound] at missing

/-- The scan of a whole stream, from an aligned offset on. -/
def referenceScan (bytes : Bytes) : List Report :=
  if _enough : FRAME_HEADER_SIZE ≤ bytes.length then
    match headerErrorAt bytes 0 with
    | none =>
      let header := parseFields bytes 0
      let size := payloadSize header
      if FRAME_HEADER_SIZE + size ≤ bytes.length then
        emitRecord header ((bytes.drop FRAME_HEADER_SIZE).take size) ::
          referenceScan ((bytes.drop FRAME_HEADER_SIZE).drop size)
      else []
    | some reason =>
      .malformed reason (parseFields bytes 0) :: match _found : nextHeader bytes with
        | none => []
        | some offset => referenceScan (bytes.drop offset)
  else []
termination_by bytes.length
decreasing_by
  · unfold FRAME_HEADER_SIZE at _enough ⊢
    rw [length_drop, length_drop]
    omega
  · have later := (nextHeader_some _found).1.1
    unfold FRAME_HEADER_SIZE at _enough
    rw [length_drop]
    omega

/-- A lost scan passes over the offsets at which no header validates. -/
theorem drain_lost_invalid {stop : Nat} (room : stop + FRAME_HEADER_SIZE ≤ bytes.length + 1)
    (invalid : ∀ offset < stop, headerErrorAt bytes offset ≠ none) :
    drain scanner .lost bytes = drain scanner .lost (bytes.drop stop) := by
  induction stop with
  | zero => rw [drop_zero]
  | succ stop ih =>
    have enough : FRAME_HEADER_SIZE ≤ (bytes.drop stop).length := by
      rw [length_drop]
      omega
    rw [ih (by omega) fun offset less => invalid offset (by omega),
      drain_lost (Nat.le_trans (by decide) enough)
        (Or.inr ⟨enough, by
          rw [headerErrorAt_drop]
          exact invalid stop (Nat.lt_succ_self _)⟩),
      drop_drop]

/-- Fewer bytes than a header hold no record. -/
theorem drain_lost_silent (short : bytes.length < FRAME_HEADER_SIZE) :
    (drain scanner .lost bytes).2.1 = [] := by
  induction size : bytes.length using Nat.strongRecOn generalizing bytes with
  | _ bound ih =>
    by_cases four : FRAME_MAGIC_BYTES.length ≤ bytes.length
    · cases marked : FRAME_MAGIC_BYTES.isPrefixOf bytes with
      | true =>
        have stuck : scanner.take .lost bytes = none := by
          show takeLost bytes = none
          unfold takeLost
          rw [if_pos four, if_pos marked, if_neg (Nat.not_le.mpr short)]
        rw [drain_none stuck]
      | false =>
        have positive : 4 ≤ bytes.length := four
        have less : (bytes.drop 1).length < bound := by
          rw [length_drop]
          omega
        rw [drain_lost four (Or.inl marked)]
        exact ih _ less (by omega) rfl
    · rw [drain_lost_short (Nat.not_le.mp four)]

/-- At a valid header, the phase makes no difference to the reports. -/
theorem drain_valid (enough : FRAME_HEADER_SIZE ≤ bytes.length)
    (sound : headerErrorAt bytes 0 = none) :
    (drain scanner .lost bytes).2.1 = (drain scanner .aligned bytes).2.1 := by
  have lost := take_valid .lost enough sound
  have aligned := take_valid .aligned enough sound
  cases taken : takeRecord bytes with
  | none => rw [drain_none (lost.trans taken), drain_none (aligned.trans taken)]
  | some unit =>
    obtain ⟨next, reports, rest⟩ := unit
    rw [drain_some (lost.trans taken), drain_some (aligned.trans taken)]

/-- The scanner reports what the reference scan does. -/
theorem drain_referenceScan (bytes : Bytes) :
    (drain scanner .aligned bytes).2.1 = referenceScan bytes := by
  induction size : bytes.length using Nat.strongRecOn generalizing bytes with
  | _ bound ih =>
    have header : FRAME_HEADER_SIZE = 24 := rfl
    rw [referenceScan]
    by_cases enough : FRAME_HEADER_SIZE ≤ bytes.length
    · rw [dif_pos enough]
      cases judged : headerErrorAt bytes 0 with
      | none =>
        have taken := take_valid .aligned enough judged
        unfold takeRecord at taken
        dsimp only at taken ⊢
        split
        next whole =>
          rw [if_pos whole] at taken
          rw [drain_some taken]
          have less : ((bytes.drop FRAME_HEADER_SIZE).drop
              (payloadSize (parseFields bytes 0))).length < bound := by
            rw [length_drop, length_drop]
            omega
          dsimp only
          rw [ih _ less _ rfl]
          rfl
        next short =>
          rw [if_neg short] at taken
          rw [drain_none taken]
      | some reason =>
        have taken : scanner.take .aligned bytes =
            some (.lost, [.malformed reason (parseFields bytes 0)], bytes.drop 1) := by
          show takeAligned bytes = _
          unfold takeAligned
          rw [if_pos enough, judged]
        have wrong : headerErrorAt bytes 0 ≠ none := by
          rw [judged]
          exact Option.some_ne_none reason
        rw [drain_some taken, ← drain_lost (Nat.le_trans (by decide) enough)
          (Or.inr ⟨enough, wrong⟩)]
        dsimp only
        split
        next found =>
          have invalid : ∀ offset < bytes.length - 23, headerErrorAt bytes offset ≠ none := by
            intro offset less
            rcases Nat.eq_zero_or_pos offset with zero | positive
            · rw [zero]
              exact wrong
            · exact nextHeader_none found positive (by omega)
          have short : (bytes.drop (bytes.length - 23)).length < FRAME_HEADER_SIZE := by
            rw [length_drop]
            omega
          rw [drain_lost_invalid (by omega) invalid, drain_lost_silent short]
          rfl
        next offset found =>
          obtain ⟨⟨positive, room, sound⟩, before⟩ := nextHeader_some found
          have invalid : ∀ earlier < offset, headerErrorAt bytes earlier ≠ none := by
            intro earlier less
            rcases Nat.eq_zero_or_pos earlier with zero | later
            · rw [zero]
              exact wrong
            · exact before earlier later less
          have whole : FRAME_HEADER_SIZE ≤ (bytes.drop offset).length := by
            rw [length_drop]
            omega
          have less : (bytes.drop offset).length < bound := by
            rw [length_drop]
            omega
          rw [drain_lost_invalid (by omega) invalid,
            drain_valid whole (by rw [headerErrorAt_drop]; exact sound), ih _ less _ rfl]
          rfl
    · have stuck : scanner.take .aligned bytes = none := by
        show takeAligned bytes = none
        unfold takeAligned
        rw [if_neg enough]
      rw [dif_neg enough, drain_none stuck]

theorem referenceScan_limit (bytes : Bytes) : Report.limitReached ∉ referenceScan bytes := by
  induction size : bytes.length using Nat.strongRecOn generalizing bytes with
  | _ bound ih =>
    have header : FRAME_HEADER_SIZE = 24 := rfl
    rw [referenceScan]
    split
    next enough =>
      split
      next =>
        dsimp only
        split
        next =>
          have less : ((bytes.drop FRAME_HEADER_SIZE).drop
              (payloadSize (parseFields bytes 0))).length < bound := by
            rw [length_drop, length_drop]
            omega
          refine not_mem_cons_of_ne_of_not_mem ?_ (ih _ less _ rfl)
          unfold emitRecord
          split <;> exact Report.noConfusion
        next => exact not_mem_nil
      next reason =>
        refine not_mem_cons_of_ne_of_not_mem (by simp) ?_
        split
        next => exact not_mem_nil
        next offset found =>
          have positive := (nextHeader_some found).1.1
          have less : (bytes.drop offset).length < bound := by
            rw [length_drop]
            omega
          exact ih _ less _ rfl
    next => exact not_mem_nil

/-- However a stream is cut into chunks, the decoder reports what the reference scan does, and
never holds more than one maximal record. -/
theorem push_run (chunks : List Bytes) : (run push {} chunks).2 = referenceScan chunks.flatten ∧
      (run push {} chunks).1.highWaterMarkBytes ≤ bufferLimit := by
  have general : ∀ {decoder : FrameDecoder} {phase : Phase} {left : Bytes},
      Holds decoder phase left → scanner.take phase left = none →
      decoder.highWaterMarkBytes ≤ bufferLimit →
      (run push decoder chunks).2 = (drain scanner phase (left ++ chunks.flatten)).2.1 ∧
        (run push decoder chunks).1.highWaterMarkBytes ≤ bufferLimit := by
    induction chunks with
    | nil =>
      intro decoder phase left holds stuck bounded
      rw [flatten_nil, append_nil, drain_none stuck]
      exact ⟨rfl, bounded⟩
    | cons chunk chunks ih =>
      intro decoder phase left holds stuck bounded
      obtain ⟨⟨after, reports⟩, limit⟩ := push_drains chunk holds stuck bounded
      obtain ⟨later, last⟩ := ih after (take_drain _ _) limit
      rw [run_cons, flatten_cons, ← append_assoc, drain_append]
      refine ⟨?_, last⟩
      dsimp only
      rw [reports, later]
  have start := general (Holds.free {} .aligned rfl rfl) rfl (Nat.zero_le _)
  rw [← drain_referenceScan]
  exact start

end Reference

end AutoMobile.CaptureFrames
