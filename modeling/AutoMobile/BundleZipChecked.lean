import AutoMobile.BundleZipNames

/- The bundle reader with every read of the buffer checked, in the order in which the source makes
them: a read past the end is a range error of its own. -/
namespace AutoMobile.BundleZip

open ByteRecords InsertionMap

inductive Thrown where
  | failure (failure : BundleFailure)
  /-- The range error of a read outside the buffer. -/
  | outside
deriving DecidableEq, Repr

/-- What the reader gives when none of its reads is outside. -/
def lifted {α : Type} (result : Except BundleFailure α) : Except Thrown α :=
  match result with
  | .ok value => .ok value
  | .error failure => .error (.failure failure)

section Checked

/-- `readUInt16LE` of a `Buffer`. -/
def read16 (bytes : Bytes) (position : Nat) : Except Thrown Nat :=
  if position + 2 ≤ bytes.length then .ok (readUInt16LE bytes position) else .error .outside

/-- `readUInt32LE` of a `Buffer`. -/
def read32 (bytes : Bytes) (position : Nat) : Except Thrown Nat :=
  if position + 4 ≤ bytes.length then .ok (readUInt32LE bytes position) else .error .outside

/-- `&&`: the second operand is read only where the first one holds. -/
def both (first second : Except Thrown Bool) : Except Thrown Bool := do
  if ← first then second else return false

/-- `||`: the second operand is read only where the first one fails. -/
def either (first second : Except Thrown Bool) : Except Thrown Bool := do
  if ← first then return true else second

def equals (read : Except Thrown Nat) (value : Nat) : Except Thrown Bool := do
  return (← read) == value

def differs (read : Except Thrown Nat) (value : Nat) : Except Thrown Bool := do
  return (← read) != value

def below (read : Except Thrown Nat) (limit : Nat) : Except Thrown Bool := do
  return decide ((← read) < limit)

/-- `bundleAssert` of a condition that reads the buffer. -/
def require (condition : Except Thrown Bool) (code : BundleErrorCode) (path : Option Name) :
    Except Thrown Unit := do
  if ← condition then return () else .error (.failure ⟨code, path⟩)

/-- The positions in a range that hold the signature of an end record. -/
def signaturesFrom (bytes : Bytes) : Nat → Nat → Except Thrown (List Nat)
  | _, 0 => return []
  | i, count + 1 => do
    let found ← equals (read32 bytes i) 0x06054b50
    let later ← signaturesFrom bytes (i + 1) count
    return if found then i :: later else later

def endOfDirectoryChecked (bytes : Bytes) : Except Thrown Nat := do
  let first := bytes.length - 65557
  let positions ← signaturesFrom bytes first (bytes.length - 3 - first)
  require (.ok (positions.length = 1)) .not_a_zip none
  let stop := positions.headD 0
  require (.ok (stop + 22 ≤ bytes.length)) .not_a_zip none
  require (either (.ok (stop < 20)) (differs (read32 bytes (stop - 20)) 0x07064b50))
    .zip64_unsupported none
  let comment ← read16 bytes (stop + 20)
  require (.ok (stop + 22 + comment = bytes.length)) .trailing_bytes none
  require (.ok (comment = 0)) .extra_field_forbidden none
  require (both (equals (read16 bytes (stop + 4)) 0) (equals (read16 bytes (stop + 6)) 0))
    .multi_disk none
  require (do return (← read16 bytes (stop + 8)) == (← read16 bytes (stop + 10))) .multi_disk none
  require (both (differs (read16 bytes (stop + 10)) 0xffff)
    (both (differs (read32 bytes (stop + 12)) 0xffffffff)
      (differs (read32 bytes (stop + 16)) 0xffffffff))) .zip64_unsupported none
  require (do return decide ((← read16 bytes (stop + 10)) ≤ BUNDLE_MAX_ENTRIES))
    .too_many_entries none
  return stop

def entryAttributesChecked (bytes : Bytes) (position : Nat) (entry : BundleZipEntry) :
    Except Thrown Unit := do
  let path := some entry.name
  let external ← read32 bytes (position + 38)
  let type := (external >>> 16) &&& 0xf000
  require (.ok (type = 0 ∨ type = 0x8000)) .link_entry path
  require (do return ((← read32 bytes (position + 38)) &&& 0x10) == 0) .link_entry path
  require (.ok (entry.flags &&& 0x41 = 0)) .encrypted_entry path
  require (.ok (entry.method = 0 ∨ entry.method = 8)) .method_unsupported path
  require (equals (read16 bytes (position + 34)) 0) .multi_disk path
  require (both (.ok (entry.compressed ≠ 0xffffffff ∧ entry.expanded ≠ 0xffffffff ∧
    entry.offset ≠ 0xffffffff)) (below (read16 bytes (position + 6)) 45)) .zip64_unsupported path
  require (both (equals (read16 bytes (position + 30)) 0) (equals (read16 bytes (position + 32)) 0))
    .extra_field_forbidden path
  require (.ok (entry.flags &&& 0xf7f9 = 0)) .header_mismatch path

def centralEntryChecked (bytes : Bytes) (position stop : Nat) :
    Except Thrown (BundleZipEntry × Nat) := do
  require (both (.ok (position + 46 ≤ stop)) (equals (read32 bytes position) 0x02014b50))
    .header_mismatch none
  let nameLength ← read16 bytes (position + 28)
  let extraLength ← read16 bytes (position + 30)
  let commentLength ← read16 bytes (position + 32)
  let next := position + 46 + nameLength + extraLength + commentLength
  require (.ok (next ≤ stop)) .header_mismatch none
  let nameLength ← read16 bytes (position + 28)
  let name ← lifted (safeName (subarray bytes (position + 46) (position + 46 + nameLength)))
  let flags ← read16 bytes (position + 8)
  let method ← read16 bytes (position + 10)
  let crc ← read32 bytes (position + 16)
  let compressed ← read32 bytes (position + 20)
  let expanded ← read32 bytes (position + 24)
  let offset ← read32 bytes (position + 42)
  let entry : BundleZipEntry := {
    name := name
    flags := flags
    method := method
    crc := crc
    compressed := compressed
    expanded := expanded
    offset := offset
    start := 0
    stop := 0 }
  entryAttributesChecked bytes position entry
  return (entry, next)

def localEntryChecked (bytes : Bytes) (entry : BundleZipEntry) (directory : Nat) :
    Except Thrown BundleZipEntry := do
  let position := entry.offset
  let path := some entry.name
  require (both (.ok (position + 30 ≤ directory)) (equals (read32 bytes position) 0x04034b50))
    .header_mismatch path
  let nameLength ← read16 bytes (position + 26)
  let nameEnd := position + 30 + nameLength
  require (.ok (nameEnd ≤ directory)) .header_mismatch path
  require (equals (read16 bytes (position + 28)) 0) .extra_field_forbidden path
  require (.ok (subarray bytes (position + 30) nameEnd = entry.name)) .header_mismatch path
  require (equals (read16 bytes (position + 6)) entry.flags) .header_mismatch path
  require (equals (read16 bytes (position + 8)) entry.method) .header_mismatch path
  require (equals (read32 bytes (position + 14)) entry.crc) .header_mismatch path
  require (equals (read32 bytes (position + 18)) entry.compressed) .header_mismatch path
  require (equals (read32 bytes (position + 22)) entry.expanded) .header_mismatch path
  require (below (read16 bytes (position + 4)) 45) .zip64_unsupported path
  require (.ok (nameEnd + entry.compressed ≤ directory)) .header_mismatch path
  return { entry with start := nameEnd, stop := nameEnd + entry.compressed }

/-- The loop reads the number of entries again before every round. A number of 16 bits never uses up
65,536 rounds. -/
def centralEntriesChecked (bytes : Bytes) (stop : Nat) (round : Nat) :
    Nat → Nat → List Name → Except Thrown (List BundleZipEntry × Nat)
  | fuel, position, names => do
    if round < (← read16 bytes (stop + 10)) then
      match fuel with
      | 0 => return ([], position)
      | fuel + 1 =>
        let parsed ← centralEntryChecked bytes position stop
        let lower := toLowerCase parsed.1.name
        require (.ok (!names.contains lower)) .duplicate_entry (some parsed.1.name)
        let later ← centralEntriesChecked bytes stop (round + 1) fuel parsed.2 (lower :: names)
        return (parsed.1 :: later.1, later.2)
    else return ([], position)

def allowedEntryChecked (bytes : Bytes) (directory : Nat) (entry : BundleZipEntry) :
    Except Thrown BundleZipEntry := do
  require (.ok (¬ ascii ".agsl" <:+ entry.name)) .custom_shaders_unsupported (some entry.name)
  require (.ok (ENTRY_PATTERN entry.name)) .entry_not_allowed (some entry.name)
  localEntryChecked bytes entry directory

def readBundleZipDirectoryChecked (bytes : Bytes) : Except Thrown (List BundleZipEntry) := do
  let stop ← endOfDirectoryChecked bytes
  let directory ← read32 bytes (stop + 16)
  let size ← read32 bytes (stop + 12)
  require (.ok (directory + size = stop)) .header_mismatch none
  let listed ← centralEntriesChecked bytes stop 0 65536 directory []
  require (.ok (listed.2 = stop)) .header_mismatch none
  let entries ← listed.1.mapM (allowedEntryChecked bytes directory)
  let previousEnd ← lifted
    (tileEntries 0 (entries.mergeSort fun a b => decide (a.offset ≤ b.offset)))
  require (.ok (previousEnd = directory)) .header_mismatch none
  return entries

def readBundleZipChecked (inflateRawSync : Bytes → Int → Inflation) (bytes : Bytes) :
    Except Thrown (InsertionMap Name Bytes) := do
  require (.ok (bytes.length ≤ BUNDLE_MAX_COMPRESSED_BYTES)) .archive_too_large none
  let entries ← readBundleZipDirectoryChecked bytes
  let compressedTotal := (entries.map BundleZipEntry.compressed).sum
  lifted (readEntries inflateRawSync bytes compressedTotal 0 [] entries)

end Checked

section Agreement

variable {α β : Type} {bytes : Bytes} {position : Nat}

theorem lifted_bind (first : Except BundleFailure α) (next : α → Except BundleFailure β) :
    lifted (first >>= next) = lifted first >>= fun value => lifted (next value) := by
  cases first <;> rfl

theorem ok_next (value : α) (next : α → Except Thrown β) :
    (Except.ok value >>= next) = next value := rfl

theorem read16_inside (inside : position + 2 ≤ bytes.length) :
    read16 bytes position = .ok (readUInt16LE bytes position) := if_pos inside

theorem read32_inside (inside : position + 4 ≤ bytes.length) :
    read32 bytes position = .ok (readUInt32LE bytes position) := if_pos inside

theorem read16_bind {next : Nat → Except Thrown α} {result : Except Thrown α}
    (inside : position + 2 ≤ bytes.length) (rest : next (readUInt16LE bytes position) = result) :
    (read16 bytes position >>= next) = result := by
  rw [read16_inside inside]
  exact rest

theorem both_ok (first second : Bool) : both (.ok first) (.ok second) = .ok (first && second) := by
  cases first <;> rfl

variable {value : Bool} {asserted : Prop} {code : BundleErrorCode} {path : Option Name}

/-- The second operand matters only where the first one holds. -/
theorem both_of_first {first : Bool} {second : Except Thrown Bool}
    (read : first = true → second = .ok value) :
    both (.ok first) second = .ok (first && value) := by
  cases first with
  | false => rfl
  | true =>
    rw [read rfl]
    rfl

theorem either_of_first {first : Bool} {second : Except Thrown Bool}
    (read : first = false → second = .ok value) :
    either (.ok first) second = .ok (first || value) := by
  cases first with
  | false =>
    rw [read rfl]
    rfl
  | true => rfl

theorem equals_ok (value other : Nat) : equals (.ok value) other = .ok (value == other) := rfl

theorem differs_ok (value other : Nat) : differs (.ok value) other = .ok (value != other) := rfl

theorem below_ok (value limit : Nat) : below (.ok value) limit = .ok (decide (value < limit)) := rfl

/-- Two checks of one condition agree when what follows agrees under the condition. -/
theorem require_bind {condition : Except Thrown Bool} [Decidable asserted]
    {next : Unit → Except Thrown α} {after : Unit → Except BundleFailure α}
    (evaluated : condition = .ok value) (means : value = true ↔ asserted)
    (rest : asserted → next () = lifted (after ())) :
    (require condition code path >>= next) = lifted (bundleAssert asserted code path >>= after) := by
  rw [evaluated, lifted_bind, bundleAssert]
  by_cases holds : asserted
  · have accepted : value = true := means.mpr holds
    rw [if_pos holds, accepted]
    exact rest holds
  · have refused : value = false := Bool.eq_false_iff.mpr fun accepted => holds (means.mp accepted)
    rw [if_neg holds, refused]
    rfl

/-- A condition that reads nothing. -/
theorem require_plain {condition : Bool} [Decidable asserted] {next : Unit → Except Thrown α}
    {after : Unit → Except BundleFailure α} (means : condition = true ↔ asserted)
    (rest : asserted → next () = lifted (after ())) :
    (require (.ok condition) code path >>= next) =
      lifted (bundleAssert asserted code path >>= after) :=
  require_bind rfl means rest

theorem require_last {condition : Except Thrown Bool} [Decidable asserted]
    (evaluated : condition = .ok value) (means : value = true ↔ asserted) :
    require condition code path = lifted (bundleAssert asserted code path) := by
  rw [evaluated, bundleAssert]
  by_cases holds : asserted
  · have accepted : value = true := means.mpr holds
    rw [if_pos holds, accepted]
    rfl
  · have refused : value = false := Bool.eq_false_iff.mpr fun accepted => holds (means.mp accepted)
    rw [if_neg holds, refused]
    rfl

theorem signaturesFrom_eq (count : Nat) (inside : position + count + 3 ≤ bytes.length ∨ count = 0) :
    signaturesFrom bytes position count = .ok ((List.range' position count).filter fun i =>
      readUInt32LE bytes i == 0x06054b50) := by
  induction count generalizing position with
  | zero => rfl
  | succ count ih =>
    have room : position + 4 ≤ bytes.length := by omega
    have later := @ih (position + 1) (by omega)
    rw [signaturesFrom, read32_inside room, equals_ok, List.range'_succ, List.filter_cons, later]
    rfl

end Agreement

end AutoMobile.BundleZip
