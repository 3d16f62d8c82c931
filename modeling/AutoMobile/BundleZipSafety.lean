import AutoMobile.BundleZipAccepted
import AutoMobile.BundleZipChecked

/- No read of the bundle reader is outside the buffer: each comes after the check that covers it. -/
namespace AutoMobile.BundleZip

open ByteRecords InsertionMap

variable {bytes : Bytes} {position stop directory : Nat} {entry : BundleZipEntry}

theorem endOfDirectoryChecked_eq (bytes : Bytes) :
    endOfDirectoryChecked bytes = lifted (endOfDirectory bytes) := by
  have scanned : signaturesFrom bytes (bytes.length - 65557)
      (bytes.length - 3 - (bytes.length - 65557)) = .ok (endPositions bytes) :=
    signaturesFrom_eq _ (by omega)
  unfold endOfDirectoryChecked endOfDirectory
  dsimp only
  rw [scanned, ok_next]
  generalize (endPositions bytes).headD 0 = stop
  refine require_plain decide_eq_true_iff fun _ => ?_
  refine require_plain decide_eq_true_iff fun fits => ?_
  have locator : either (.ok (stop < 20)) (differs (read32 bytes (stop - 20)) 0x07064b50) =
      .ok (stop < 20 || readUInt32LE bytes (stop - 20) != 0x07064b50) := by
    apply either_of_first
    intro late
    rw [decide_eq_false_iff_not] at late
    rw [read32_inside (by omega), differs_ok]
  refine require_bind locator (by simp) fun _ => ?_
  refine read16_bind (by omega) ?_
  refine require_plain decide_eq_true_iff fun _ => ?_
  refine require_plain decide_eq_true_iff fun _ => ?_
  rw [read16_inside (show stop + 4 + 2 ≤ bytes.length by omega),
    read16_inside (show stop + 6 + 2 ≤ bytes.length by omega),
    read16_inside (show stop + 8 + 2 ≤ bytes.length by omega),
    read16_inside (show stop + 10 + 2 ≤ bytes.length by omega),
    read32_inside (show stop + 12 + 4 ≤ bytes.length by omega),
    read32_inside (show stop + 16 + 4 ≤ bytes.length by omega)]
  simp only [equals_ok, differs_ok, both_ok, ok_next]
  refine require_plain (by simp) fun _ => ?_
  refine require_bind rfl (by simp) fun _ => ?_
  refine require_plain (by simp) fun _ => ?_
  refine require_bind rfl (by simp) fun _ => ?_
  rfl

theorem entryAttributesChecked_eq (inside : position + 46 ≤ bytes.length) :
    entryAttributesChecked bytes position entry =
      lifted (entryAttributes bytes position entry) := by
  unfold entryAttributesChecked entryAttributes
  dsimp only
  rw [read16_inside (show position + 6 + 2 ≤ bytes.length by omega),
    read16_inside (show position + 30 + 2 ≤ bytes.length by omega),
    read16_inside (show position + 32 + 2 ≤ bytes.length by omega),
    read16_inside (show position + 34 + 2 ≤ bytes.length by omega),
    read32_inside (show position + 38 + 4 ≤ bytes.length by omega)]
  simp only [equals_ok, below_ok, both_ok, ok_next]
  refine require_plain decide_eq_true_iff fun _ => ?_
  refine require_bind rfl (by simp) fun _ => ?_
  refine require_plain decide_eq_true_iff fun _ => ?_
  refine require_plain decide_eq_true_iff fun _ => ?_
  refine require_plain (by simp) fun _ => ?_
  refine require_plain (by simp [and_assoc]) fun _ => ?_
  refine require_plain (by simp) fun _ => ?_
  exact require_last rfl decide_eq_true_iff

theorem centralEntryChecked_eq (position : Nat) (inside : stop ≤ bytes.length) :
    centralEntryChecked bytes position stop = lifted (centralEntry bytes position stop) := by
  unfold centralEntryChecked centralEntry
  have signature : both (.ok (position + 46 ≤ stop)) (equals (read32 bytes position) 0x02014b50) =
      .ok (position + 46 ≤ stop && readUInt32LE bytes position == 0x02014b50) := by
    apply both_of_first
    intro room
    rw [decide_eq_true_eq] at room
    rw [read32_inside (by omega), equals_ok]
  refine require_bind signature (by simp) fun header => ?_
  have room : position + 46 ≤ bytes.length := by omega
  rw [read16_inside (show position + 28 + 2 ≤ bytes.length by omega),
    read16_inside (show position + 30 + 2 ≤ bytes.length by omega),
    read16_inside (show position + 32 + 2 ≤ bytes.length by omega),
    read16_inside (show position + 8 + 2 ≤ bytes.length by omega),
    read16_inside (show position + 10 + 2 ≤ bytes.length by omega),
    read32_inside (show position + 16 + 4 ≤ bytes.length by omega),
    read32_inside (show position + 20 + 4 ≤ bytes.length by omega),
    read32_inside (show position + 24 + 4 ≤ bytes.length by omega),
    read32_inside (show position + 42 + 4 ≤ bytes.length by omega)]
  simp only [ok_next]
  refine require_plain decide_eq_true_iff fun _ => ?_
  rw [lifted_bind]
  apply bind_congr
  intro name
  rw [entryAttributesChecked_eq room, lifted_bind]
  rfl

theorem localEntryChecked_eq (entry : BundleZipEntry) (inside : directory ≤ bytes.length) :
    localEntryChecked bytes entry directory = lifted (localEntry bytes entry directory) := by
  unfold localEntryChecked localEntry
  have signature : both (.ok (entry.offset + 30 ≤ directory))
      (equals (read32 bytes entry.offset) 0x04034b50) =
      .ok (entry.offset + 30 ≤ directory && readUInt32LE bytes entry.offset == 0x04034b50) := by
    apply both_of_first
    intro room
    rw [decide_eq_true_eq] at room
    rw [read32_inside (by omega), equals_ok]
  refine require_bind signature (by simp) fun header => ?_
  rw [read16_inside (show entry.offset + 26 + 2 ≤ bytes.length by omega),
    read16_inside (show entry.offset + 28 + 2 ≤ bytes.length by omega),
    read16_inside (show entry.offset + 6 + 2 ≤ bytes.length by omega),
    read16_inside (show entry.offset + 8 + 2 ≤ bytes.length by omega),
    read16_inside (show entry.offset + 4 + 2 ≤ bytes.length by omega),
    read32_inside (show entry.offset + 14 + 4 ≤ bytes.length by omega),
    read32_inside (show entry.offset + 18 + 4 ≤ bytes.length by omega),
    read32_inside (show entry.offset + 22 + 4 ≤ bytes.length by omega)]
  simp only [equals_ok, below_ok, ok_next]
  refine require_plain decide_eq_true_iff fun _ => ?_
  refine require_plain beq_iff_eq fun _ => ?_
  refine require_plain decide_eq_true_iff fun _ => ?_
  refine require_plain beq_iff_eq fun _ => ?_
  refine require_plain beq_iff_eq fun _ => ?_
  refine require_plain beq_iff_eq fun _ => ?_
  refine require_plain beq_iff_eq fun _ => ?_
  refine require_plain beq_iff_eq fun _ => ?_
  refine require_plain decide_eq_true_iff fun _ => ?_
  exact require_plain decide_eq_true_iff fun _ => rfl

theorem readUInt16LE_lt (bytes : Bytes) (position : Nat) : readUInt16LE bytes position < 65536 := by
  have low := (bytes.getD position 0).toNat_lt
  have high := (bytes.getD (position + 1) 0).toNat_lt
  unfold readUInt16LE byteAt
  omega

/-- The rounds that are left are those that the number of entries asks for. -/
theorem centralEntriesChecked_eq (inside : stop + 22 ≤ bytes.length) {round fuel : Nat}
    (enough : readUInt16LE bytes (stop + 10) ≤ round + fuel)
    (position : Nat) (names : List Name) :
    centralEntriesChecked bytes stop round fuel position names =
      lifted (centralEntries bytes stop (readUInt16LE bytes (stop + 10) - round) position names) := by
  induction fuel generalizing round position names with
  | zero =>
    have done : readUInt16LE bytes (stop + 10) - round = 0 := by omega
    rw [centralEntriesChecked, read16_inside (by omega), ok_next, done, if_neg (by omega)]
    rfl
  | succ fuel ih =>
    rw [centralEntriesChecked, read16_inside (by omega), ok_next]
    by_cases more : round < readUInt16LE bytes (stop + 10)
    · obtain ⟨count, rounds⟩ : ∃ count, readUInt16LE bytes (stop + 10) - round = count + 1 :=
        ⟨readUInt16LE bytes (stop + 10) - round - 1, by omega⟩
      have later : readUInt16LE bytes (stop + 10) - (round + 1) = count := by omega
      rw [if_pos more, rounds, centralEntries, centralEntryChecked_eq position (by omega),
        lifted_bind]
      apply bind_congr
      intro parsed
      refine require_plain (by simp) fun _ => ?_
      rw [ih (by omega), later, lifted_bind]
      rfl
    · have done : readUInt16LE bytes (stop + 10) - round = 0 := by omega
      rw [if_neg more, done]
      rfl

theorem allowedEntryChecked_eq (inside : directory ≤ bytes.length) (entry : BundleZipEntry) :
    allowedEntryChecked bytes directory entry = lifted (allowedEntry bytes directory entry) := by
  unfold allowedEntryChecked allowedEntry
  refine require_plain decide_eq_true_iff fun _ => ?_
  refine require_plain Iff.rfl fun _ => ?_
  exact localEntryChecked_eq entry inside

theorem mapM_lifted {α β : Type} {checked : α → Except Thrown β} {plain : α → Except BundleFailure β}
    (agree : ∀ value, checked value = lifted (plain value)) (values : List α) :
    values.mapM checked = lifted (values.mapM plain) := by
  induction values with
  | nil => rfl
  | cons value values ih =>
    rw [List.mapM_cons, List.mapM_cons, agree, ih, lifted_bind]
    apply bind_congr
    intro first
    rw [lifted_bind]
    rfl

theorem readBundleZipDirectoryChecked_eq (bytes : Bytes) :
    readBundleZipDirectoryChecked bytes = lifted (readBundleZipDirectory bytes) := by
  unfold readBundleZipDirectoryChecked readBundleZipDirectory
  rw [endOfDirectoryChecked_eq, lifted_bind]
  cases found : endOfDirectory bytes with
  | error failure => rfl
  | ok stop =>
    have fits := Nat.le_of_eq (endOfDirectory_ok found).last
    have rounds : readUInt16LE bytes (stop + 10) ≤ 0 + 65536 := by
      have := readUInt16LE_lt bytes (stop + 10)
      omega
    dsimp only [lifted]
    rw [ok_next, read32_inside (show stop + 16 + 4 ≤ bytes.length by omega),
      read32_inside (show stop + 12 + 4 ≤ bytes.length by omega), ok_next, ok_next]
    refine require_plain decide_eq_true_iff fun placed => ?_
    rw [centralEntriesChecked_eq fits rounds, lifted_bind]
    apply bind_congr
    intro listed
    refine require_plain decide_eq_true_iff fun _ => ?_
    rw [mapM_lifted (allowedEntryChecked_eq (by omega)), lifted_bind]
    apply bind_congr
    intro entries
    rw [lifted_bind]
    apply bind_congr
    intro previousEnd
    exact require_plain decide_eq_true_iff fun _ => rfl

/-- The reader with checked reads gives what the reader gives: no read is outside. -/
theorem readBundleZipChecked_eq (inflateRawSync : Bytes → Int → Inflation) (bytes : Bytes) :
    readBundleZipChecked inflateRawSync bytes = lifted (readBundleZip inflateRawSync bytes) := by
  unfold readBundleZipChecked readBundleZip
  refine require_plain decide_eq_true_iff fun _ => ?_
  rw [readBundleZipDirectoryChecked_eq, lifted_bind]

end AutoMobile.BundleZip
