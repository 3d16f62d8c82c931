import AutoMobile.IncrementalScan
import AutoMobile.Runs
import AutoMobile.VideoStreamFraming

/- The parser as a scanner: reads that fit an array report what a scan of the whole stream does. -/
namespace AutoMobile.VideoStream

open ByteRecords IncrementalScan List Runs

section Scanning

/-- What the stream's next bytes are. -/
inductive Phase where
  | header
  | packets
  | ended
  | thrown
deriving DecidableEq, Repr

/-- The next header or packet, once all its bytes are there. -/
def takeUnit : Phase → Bytes → Option (Phase × List Report × Bytes)
  | .header, bytes =>
    if 12 ≤ bytes.length then
      if readInt bytes ≠ CODEC_ID_H264 then
        some (.thrown, [.thrown (.unexpectedCodec (readInt bytes))], bytes.drop 12)
      else
        some (.packets,
          [.header { width := readInt (bytes.drop 4), height := readInt (bytes.drop 8) }],
          bytes.drop 12)
    else none
  | .packets, bytes =>
    if 12 ≤ bytes.length then
      if readInt (bytes.drop 8) < 0 then
        some (.thrown, [.thrown (.negativeLength (readInt (bytes.drop 8)))], bytes.drop 12)
      else if (bytes.length : Int) - 12 < readInt (bytes.drop 8) then none
      else
        let size := (readInt (bytes.drop 8)).toNat
        let dispatched := dispatchPacket (readLong bytes) ((bytes.drop 12).take size)
        some (if dispatched.2 then .ended else .packets, [dispatched.1], (bytes.drop 12).drop size)
    else none
  | .ended, _ => none
  | .thrown, _ => none

variable {bytes : Bytes}

theorem readInt_append (enough : 4 ≤ bytes.length) (more : Bytes) :
    readInt (bytes ++ more) = readInt bytes := by
  unfold readInt
  rw [take_append_of_le_length enough]

theorem readLong_append (enough : 8 ≤ bytes.length) (more : Bytes) :
    readLong (bytes ++ more) = readLong bytes := by
  unfold readLong
  rw [take_append_of_le_length enough]

/-- The bytes of a unit are read the same when more follow. -/
theorem drop_append_of_le {count : Nat} (enough : count ≤ bytes.length) (more : Bytes) :
    (bytes ++ more).drop count = bytes.drop count ++ more :=
  drop_append_of_le_length enough

theorem takeUnit_shorter {phase next : Phase} {rest : Bytes} {reports : List Report}
    (taken : takeUnit phase bytes = some (next, reports, rest)) : rest.length < bytes.length := by
  unfold takeUnit at taken
  split at taken
  · split at taken
    · split at taken
      · cases taken
        rw [length_drop]
        omega
      · cases taken
        rw [length_drop]
        omega
    · cases taken
  · split at taken
    · split at taken
      · cases taken
        rw [length_drop]
        omega
      · split at taken
        · cases taken
        · cases taken
          rw [length_drop, length_drop]
          omega
    · cases taken
  · cases taken
  · cases taken

theorem takeUnit_stable {phase next : Phase} {rest : Bytes} {reports : List Report}
    (taken : takeUnit phase bytes = some (next, reports, rest)) (more : Bytes) :
    takeUnit phase (bytes ++ more) = some (next, reports, rest ++ more) := by
  unfold takeUnit at taken ⊢
  split at taken
  next =>
    split at taken
    next enough =>
      have longer : 12 ≤ (bytes ++ more).length := by
        rw [length_append]
        omega
      rw [if_pos longer, readInt_append (by omega), drop_append_of_le (by omega),
        drop_append_of_le (by omega), drop_append_of_le (by omega),
        readInt_append (by rw [length_drop]; omega),
        readInt_append (by rw [length_drop]; omega)]
      split at taken
      next wrong =>
        rw [if_pos wrong]
        cases taken
        rfl
      next right =>
        rw [if_neg right]
        cases taken
        rfl
    next => cases taken
  next =>
    split at taken
    next enough =>
      have longer : 12 ≤ (bytes ++ more).length := by
        rw [length_append]
        omega
      rw [if_pos longer, drop_append_of_le (by omega), drop_append_of_le (by omega),
        readInt_append (by rw [length_drop]; omega), readLong_append (by omega)]
      split at taken
      next negative =>
        rw [if_pos negative]
        cases taken
        rfl
      next positive =>
        rw [if_neg positive]
        split at taken
        next => cases taken
        next whole =>
          have fits : (readInt (bytes.drop 8)).toNat ≤ (bytes.drop 12).length := by
            rw [length_drop]
            omega
          rw [if_neg (by rw [length_append]; omega)]
          dsimp only
          rw [take_append_of_le_length fits, drop_append_of_le fits]
          cases taken
          rfl
    next => cases taken
  next => cases taken
  next => cases taken

def scanner : Scanner Phase UInt8 Report where
  take := takeUnit
  shorter := takeUnit_shorter
  stable := takeUnit_stable

end Scanning

section Reads

/-- The loop over complete packets drains the scanner. -/
theorem drain_packets (bytes : Bytes) : (drain scanner .packets bytes).1 =
        (if (parsePackets bytes).thrown then .thrown
          else if (parsePackets bytes).ended then .ended else .packets) ∧
      (drain scanner .packets bytes).2.1 = (parsePackets bytes).reports ∧
      ((parsePackets bytes).thrown = false →
        (drain scanner .packets bytes).2.2 = (parsePackets bytes).rest) := by
  induction size : bytes.length using Nat.strongRecOn generalizing bytes with
  | _ bound ih =>
    have finished : ∀ {phase : Phase} {rest : Bytes}, phase = .ended ∨ phase = .thrown →
        drain scanner phase rest = (phase, [], rest) := by
      intro phase rest finish
      apply drain_none
      rcases finish with rfl | rfl <;> rfl
    by_cases enough : 12 ≤ bytes.length
    · by_cases negative : readInt (bytes.drop 8) < 0
      · have taken : scanner.take .packets bytes =
            some (.thrown, [.thrown (.negativeLength (readInt (bytes.drop 8)))],
              bytes.drop 12) := by
          show takeUnit .packets bytes = _
          simp only [takeUnit, if_pos enough, if_pos negative]
        rw [parsePackets, dif_pos enough]
        dsimp only
        rw [if_pos negative, drain_some taken, finished (Or.inr rfl)]
        exact ⟨rfl, rfl, fun missing => by cases missing⟩
      · by_cases early : (bytes.length : Int) - 12 < readInt (bytes.drop 8)
        · have stuck : scanner.take .packets bytes = none := by
            show takeUnit .packets bytes = _
            simp only [takeUnit, if_pos enough, if_neg negative, if_pos early]
          rw [parsePackets, dif_pos enough]
          dsimp only
          rw [if_neg negative, if_pos early, drain_none stuck]
          exact ⟨rfl, rfl, fun _ => rfl⟩
        · have taken : scanner.take .packets bytes = some (if (dispatchPacket (readLong bytes)
                  ((bytes.drop 12).take (readInt (bytes.drop 8)).toNat)).2 then .ended
                else .packets,
                [(dispatchPacket (readLong bytes)
                  ((bytes.drop 12).take (readInt (bytes.drop 8)).toNat)).1],
                (bytes.drop 12).drop (readInt (bytes.drop 8)).toNat) := by
            show takeUnit .packets bytes = _
            simp only [takeUnit, if_pos enough, if_neg negative, if_neg early]
          have smaller := scanner.shorter taken
          rw [parsePackets, dif_pos enough]
          dsimp only
          rw [if_neg negative, if_neg early, drain_some taken]
          split
          next =>
            rw [finished (Or.inl rfl)]
            exact ⟨rfl, rfl, fun _ => rfl⟩
          next =>
            obtain ⟨phase, reports, rest⟩ := ih _ (size ▸ smaller) _ rfl
            refine ⟨phase, ?_, rest⟩
            rw [reports]
            rfl
    · have stuck : scanner.take .packets bytes = none := by
        show takeUnit .packets bytes = _
        simp only [takeUnit, if_neg enough]
      rw [parsePackets, dif_neg enough, drain_none stuck]
      exact ⟨rfl, rfl, fun _ => rfl⟩

def VideoStreamParser.phase (parser : VideoStreamParser) : Phase :=
  if parser.thrown then .thrown
  else if parser.hasEnded then .ended
  else if parser.headerSeen then .packets
  else .header

/-- The parser holds what the scanner has left over. -/
structure Holds (parser : VideoStreamParser) (waiting : Phase × Bytes) : Prop where
  phase : waiting.1 = parser.phase
  buffer : parser.thrown = false → parser.buffer = waiting.2
  stuck : scanner.take waiting.1 waiting.2 = none

variable {parser : VideoStreamParser} {waiting : Phase × Bytes}

theorem Holds.unthrown (holds : Holds parser waiting) (alive : waiting.1 ≠ .thrown) :
    parser.thrown = false := by
  have phase := holds.phase
  cases thrown : parser.thrown with
  | false => rfl
  | true =>
    unfold VideoStreamParser.phase at phase
    rw [thrown, if_pos rfl] at phase
    exact absurd phase alive

/-- The read, after the bytes left over, fits an array. -/
def Fits (parser : VideoStreamParser) (chunk : Bytes) : Prop :=
  parser.buffer.length + chunk.length ≤ intMax

theorem onBytes_overflow {chunk : Bytes} (alive : parser.thrown = false) (proper : chunk.length ≠ 0)
    (overflow : ¬Fits parser chunk) :
    onBytes parser chunk = ({ parser with thrown := true }, [.thrown .arraySize]) := by
  have skipped : ¬(decide (chunk.length = 0) || parser.thrown) = true := by simp [proper, alive]
  unfold onBytes
  rw [if_neg skipped, if_pos (Nat.not_le.mp overflow)]

/-- A read that fits feeds the scanner. -/
theorem onBytes_feeds {chunk : Bytes} (holds : Holds parser waiting) (fits : Fits parser chunk) :
    Holds (onBytes parser chunk).1 (feed scanner waiting chunk).1 ∧
      (onBytes parser chunk).2 = (feed scanner waiting chunk).2 := by
  obtain ⟨phase, left⟩ := waiting
  obtain ⟨same, buffer, stuck⟩ := holds
  have fed : feed scanner (phase, left) chunk =
      (((drain scanner phase (left ++ chunk)).1, (drain scanner phase (left ++ chunk)).2.2),
        (drain scanner phase (left ++ chunk)).2.1) := rfl
  have idle : scanner.take phase (left ++ chunk) = none → ∀ next : VideoStreamParser,
      next.phase = parser.phase → (next.thrown = false → next.buffer = left ++ chunk) →
      Holds next (feed scanner (phase, left) chunk).1 ∧
        ([] : List Report) = (feed scanner (phase, left) chunk).2 := by
    intro still next alike kept
    rw [fed, drain_none still]
    exact ⟨⟨same.trans alike.symm, kept, still⟩, rfl⟩
  dsimp only at same buffer stuck
  unfold onBytes
  by_cases skipped : (decide (chunk.length = 0) || parser.thrown) = true
  · rw [if_pos skipped]
    rcases Bool.or_eq_true_iff.mp skipped with empty | thrown
    · have nothing : chunk = [] := length_eq_zero_iff.mp (of_decide_eq_true empty)
      subst nothing
      rw [append_nil] at idle
      exact idle stuck parser rfl buffer
    · have dead : phase = .thrown := by
        rw [same]
        simp [VideoStreamParser.phase, thrown]
      subst dead
      refine idle rfl parser rfl fun alive => ?_
      rw [thrown] at alive
      cases alive
  · rw [if_neg skipped, if_neg (Nat.not_lt.mpr fits)]
    have alive : parser.thrown = false := by
      simp only [Bool.or_eq_true, not_or, Bool.not_eq_true] at skipped
      exact skipped.2
    rw [buffer alive]
    dsimp only
    cases ended : parser.hasEnded with
    | true =>
      have past : phase = .ended := by
        rw [same]
        simp [VideoStreamParser.phase, alive, ended]
      subst past
      rw [if_pos rfl]
      refine idle rfl _ ?_ fun _ => rfl
      simp [VideoStreamParser.phase, ended]
    | false =>
      rw [if_neg Bool.false_ne_true]
      have packets : ∀ bytes, Holds (onPackets parser bytes).1
            ((drain scanner .packets bytes).1, (drain scanner .packets bytes).2.2) ∧
          (onPackets parser bytes).2 = (drain scanner .packets bytes).2.1 := by
        intro bytes
        obtain ⟨after, reports, rest⟩ := drain_packets bytes
        refine ⟨⟨?_, ?_, take_drain _ _⟩, reports.symm⟩
        · rw [after]
          rfl
        · intro unthrown
          exact (rest unthrown).symm
      cases seen : parser.headerSeen with
      | true =>
        have middle : phase = .packets := by
          rw [same]
          simp [VideoStreamParser.phase, alive, ended, seen]
        subst middle
        rw [if_pos rfl]
        exact packets (left ++ chunk)
      | false =>
        have start : phase = .header := by
          rw [same]
          simp [VideoStreamParser.phase, alive, ended, seen]
        subst start
        rw [if_neg Bool.false_ne_true]
        by_cases enough : 12 ≤ (left ++ chunk).length
        · rw [if_neg (Nat.not_lt.mpr enough)]
          by_cases wrong : readInt (left ++ chunk) ≠ CODEC_ID_H264
          · have taken : scanner.take .header (left ++ chunk) =
                some (.thrown, [.thrown (.unexpectedCodec (readInt (left ++ chunk)))],
                  (left ++ chunk).drop 12) := by
              show takeUnit .header (left ++ chunk) = _
              simp only [takeUnit, if_pos enough, if_pos wrong]
            have dead : scanner.take .thrown ((left ++ chunk).drop 12) = none := rfl
            rw [if_pos wrong, fed, drain_some taken, drain_none dead]
            refine ⟨⟨rfl, fun missing => ?_, rfl⟩, rfl⟩
            cases missing
          · have taken : scanner.take .header (left ++ chunk) = some (.packets,
                  [.header { width := readInt ((left ++ chunk).drop 4),
                             height := readInt ((left ++ chunk).drop 8) }],
                  (left ++ chunk).drop 12) := by
              show takeUnit .header (left ++ chunk) = _
              simp only [takeUnit, if_pos enough, if_neg wrong]
            obtain ⟨holds, reports⟩ := packets ((left ++ chunk).drop 12)
            rw [if_neg wrong, fed, drain_some taken]
            refine ⟨holds, ?_⟩
            show _ :: (onPackets parser ((left ++ chunk).drop 12)).2 = _
            rw [reports]
            rfl
        · have still : scanner.take .header (left ++ chunk) = none := by
            show takeUnit .header (left ++ chunk) = _
            simp only [takeUnit, if_neg enough]
          rw [if_pos (Nat.not_le.mp enough)]
          refine idle still _ ?_ fun _ => rfl
          simp [VideoStreamParser.phase, alive, ended, seen]

theorem onBytes_run {chunks : List Bytes} (holds : Holds parser waiting)
    (fits : Meets onBytes Fits parser chunks) :
    Holds (run onBytes parser chunks).1 (feedAll scanner waiting chunks).1 ∧
      (run onBytes parser chunks).2 = (feedAll scanner waiting chunks).2 := by
  induction chunks generalizing parser waiting with
  | nil => exact ⟨holds, rfl⟩
  | cons chunk chunks ih =>
    obtain ⟨after, reports⟩ := onBytes_feeds holds fits.1
    obtain ⟨last, later⟩ := ih after fits.2
    refine ⟨last, ?_⟩
    rw [run_cons]
    unfold feedAll
    dsimp only
    rw [reports, later]

/-- Reads that fit report what a scan of the whole stream does, however it is cut. -/
theorem onBytes_whole {chunks : List Bytes} (fits : Meets onBytes Fits {} chunks) :
    Holds (run onBytes {} chunks).1
        ((drain scanner .header chunks.flatten).1, (drain scanner .header chunks.flatten).2.2) ∧
      (run onBytes {} chunks).2 = (drain scanner .header chunks.flatten).2.1 := by
  have fresh : Holds {} (.header, []) := ⟨rfl, fun _ => rfl, rfl⟩
  obtain ⟨holds, reports⟩ := onBytes_run fresh fits
  have whole := feedAll_eq (.header : Phase) [] fresh.stuck chunks
  rw [whole] at holds reports
  exact ⟨holds, reports⟩

end Reads

end AutoMobile.VideoStream
