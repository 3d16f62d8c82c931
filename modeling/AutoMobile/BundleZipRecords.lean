import AutoMobile.BundleZipNames

/- The archive of a bundle as records one after another, and what a reader finds in each of them
wherever it lies. -/
namespace AutoMobile.BundleZip

open ByteRecords InsertionMap List

def localRecord (entry : Name × Bytes) : Bytes :=
  localHeader entry.1 entry.2 ++ (entry.1 ++ entry.2)

def directoryRecord (entry : Name × Bytes) (offset : Nat) : Bytes :=
  centralHeader entry.1 entry.2 offset ++ entry.1

def localRecords : InsertionMap Name Bytes → Bytes
  | [] => []
  | entry :: rest => localRecord entry ++ localRecords rest

/-- The directory of entries whose records start at the offset. -/
def directoryRecords : Nat → InsertionMap Name Bytes → Bytes
  | _, [] => []
  | offset, entry :: rest =>
    directoryRecord entry offset ++ directoryRecords (offset + (localRecord entry).length) rest

def archiveOf (entries : InsertionMap Name Bytes) : Bytes :=
  localRecords entries ++ (directoryRecords 0 entries ++
    endRecord entries.length (directoryRecords 0 entries).length (localRecords entries).length)

def archiveSize (entries : InsertionMap Name Bytes) : Nat :=
  (entries.map fun entry => 76 + 2 * entry.1.length + entry.2.length).sum + 22

section Lengths

variable (name content : Bytes) (entry : Name × Bytes) (offset : Nat)

@[simp] theorem localHeader_length : (localHeader name content).length = 30 := by
  simp [localHeader, writeUInt16LE, writeUInt32LE]

@[simp] theorem centralHeader_length : (centralHeader name content offset).length = 46 := by
  simp [centralHeader, writeUInt16LE, writeUInt32LE]

@[simp] theorem endRecord_length (size centralLength : Nat) :
    (endRecord size centralLength offset).length = 22 := by
  simp [endRecord, writeUInt16LE, writeUInt32LE]

@[simp] theorem localRecord_length :
    (localRecord entry).length = 30 + (entry.1.length + entry.2.length) := by
  simp [localRecord]

@[simp] theorem directoryRecord_length :
    (directoryRecord entry offset).length = 46 + entry.1.length := by
  simp [directoryRecord]

theorem archive_length (entries : InsertionMap Name Bytes) :
    (localRecords entries).length + (directoryRecords offset entries).length + 22 =
      archiveSize entries := by
  induction entries generalizing offset with
  | nil => rfl
  | cons entry rest ih =>
    have later := ih (offset + (localRecord entry).length)
    simp only [localRecords, directoryRecords, archiveSize, length_append, map_cons,
      sum_cons, localRecord_length, directoryRecord_length] at later ⊢
    omega

end Lengths

section Written

variable {entries : InsertionMap Name Bytes}

def Layout.add (layout : Layout) (entry : Name × Bytes) : Layout where
  locals := layout.locals ++ [localHeader entry.1 entry.2, entry.1, entry.2]
  directory := layout.directory ++ [centralHeader entry.1 entry.2 layout.offset, entry.1]
  offset := layout.offset + ((localHeader entry.1 entry.2).length + entry.1.length + entry.2.length)

theorem writeEntry_of_fits {layout : Layout} {entry : Name × Bytes}
    (fits : entry.1.length < 0x10000 ∧ entry.2.length < 0x100000000 ∧
      layout.offset < 0x100000000) : writeEntry layout entry = some (layout.add entry) :=
  if_pos fits

/-- The writer adds the records of the entries to what it has. -/
theorem foldlM_writeEntry (layout : Layout) (names : ∀ entry ∈ entries, entry.1.length < 0x10000)
    (room : layout.offset + (localRecords entries).length < 0x100000000) :
    ∃ final, entries.foldlM writeEntry layout = some final ∧
      final.locals.flatten = layout.locals.flatten ++ localRecords entries ∧
      final.directory.flatten = layout.directory.flatten ++ directoryRecords layout.offset entries ∧
      final.offset = layout.offset + (localRecords entries).length := by
  induction entries generalizing layout with
  | nil => exact ⟨layout, rfl, by simp [localRecords], by simp [directoryRecords], rfl⟩
  | cons entry rest ih =>
    simp only [localRecords, length_append, localRecord_length] at room
    have fits : entry.1.length < 0x10000 ∧ entry.2.length < 0x100000000 ∧
        layout.offset < 0x100000000 := ⟨names entry mem_cons_self, by omega, by omega⟩
    have offset : (layout.add entry).offset = layout.offset + (localRecord entry).length := by
      simp only [Layout.add, localHeader_length, localRecord_length]
      omega
    obtain ⟨final, run, locals, directory, total⟩ := ih (layout.add entry)
      (fun later listed => names later (mem_cons_of_mem _ listed))
      (by rw [offset, localRecord_length]; omega)
    refine ⟨final, ?_, ?_, ?_, ?_⟩
    · rw [foldlM_cons, writeEntry_of_fits fits]
      exact run
    · rw [locals]
      simp [Layout.add, localRecords, localRecord]
    · rw [directory, offset]
      simp [Layout.add, directoryRecords, directoryRecord]
    · rw [total, offset, localRecords, length_append, Nat.add_assoc]

theorem writeCanonicalBundleZip_eq (names : ∀ entry ∈ entries, entry.1.length < 0x10000)
    (count : entries.length < 0x10000) (small : archiveSize entries < 0x100000000) :
    writeCanonicalBundleZip entries = some (archiveOf entries) := by
  have sizes := archive_length 0 entries
  have room : (Layout.mk [] [] 0).offset + (localRecords entries).length < 0x100000000 := by
    rw [Nat.zero_add]
    omega
  obtain ⟨final, run, locals, directory, offset⟩ := foldlM_writeEntry _ names room
  have records : final.locals.flatten = localRecords entries := locals
  have listed : final.directory.flatten = directoryRecords 0 entries := directory
  have total : final.offset = (localRecords entries).length := offset.trans (Nat.zero_add _)
  have fits : entries.length < 0x10000 ∧ (directoryRecords 0 entries).length < 0x100000000 ∧
      (localRecords entries).length < 0x100000000 := ⟨count, by omega, by omega⟩
  simp only [writeCanonicalBundleZip, run, Option.bind_eq_bind, Option.bind_some, records, listed,
    total, if_pos fits]
  rfl

end Written

section Fields

variable {archive : Bytes} {entry : Name × Bytes} {position offset : Nat}

theorem crc32_lt (content : Bytes) : crc32 content < 0x100000000 := UInt32.toNat_lt _

/-- What is read of the local header of an entry. -/
structure LocalFields (archive : Bytes) (position : Nat) (entry : Name × Bytes) : Prop where
  signature : readUInt32LE archive position = 0x04034b50
  version : readUInt16LE archive (position + 4) = 20
  flags : readUInt16LE archive (position + 6) = 0
  method : readUInt16LE archive (position + 8) = 0
  crc : readUInt32LE archive (position + 14) = crc32 entry.2
  compressed : readUInt32LE archive (position + 18) = entry.2.length
  expanded : readUInt32LE archive (position + 22) = entry.2.length
  nameLength : readUInt16LE archive (position + 26) = entry.1.length
  extraLength : readUInt16LE archive (position + 28) = 0

theorem localFields_of_placed (placed : Placed archive (localHeader entry.1 entry.2) position)
    (name : entry.1.length < 0x10000) (content : entry.2.length < 0x100000000) :
    LocalFields archive position entry := by
  have checksum := crc32_lt entry.2
  constructor
  case signature =>
    rw [placed.readUInt32LE_start (by simp)]
    simp [localHeader, writeUInt16LE, writeUInt32LE]
  case version | flags | method | nameLength | extraLength =>
    rw [placed.readUInt16LE (by simp)]
    simp [localHeader, writeUInt16LE, writeUInt32LE, name]
  case crc | compressed | expanded =>
    rw [placed.readUInt32LE (by simp)]
    simp [localHeader, writeUInt16LE, writeUInt32LE, checksum, content]

/-- What is read of the directory header of an entry. -/
structure CentralFields (archive : Bytes) (position : Nat) (entry : Name × Bytes) (offset : Nat) :
    Prop where
  signature : readUInt32LE archive position = 0x02014b50
  version : readUInt16LE archive (position + 6) = 20
  flags : readUInt16LE archive (position + 8) = 0
  method : readUInt16LE archive (position + 10) = 0
  crc : readUInt32LE archive (position + 16) = crc32 entry.2
  compressed : readUInt32LE archive (position + 20) = entry.2.length
  expanded : readUInt32LE archive (position + 24) = entry.2.length
  nameLength : readUInt16LE archive (position + 28) = entry.1.length
  extraLength : readUInt16LE archive (position + 30) = 0
  commentLength : readUInt16LE archive (position + 32) = 0
  disk : readUInt16LE archive (position + 34) = 0
  attributes : readUInt32LE archive (position + 38) = 0
  offset : readUInt32LE archive (position + 42) = offset

theorem centralFields_of_placed
    (placed : Placed archive (centralHeader entry.1 entry.2 offset) position)
    (name : entry.1.length < 0x10000) (content : entry.2.length < 0x100000000)
    (room : offset < 0x100000000) : CentralFields archive position entry offset := by
  have checksum := crc32_lt entry.2
  constructor
  case signature =>
    rw [placed.readUInt32LE_start (by simp)]
    simp [centralHeader, writeUInt16LE, writeUInt32LE]
  case version | flags | method | nameLength | extraLength | commentLength | disk =>
    rw [placed.readUInt16LE (by simp)]
    simp [centralHeader, writeUInt16LE, writeUInt32LE, name]
  case crc | compressed | expanded | attributes | offset =>
    rw [placed.readUInt32LE (by simp)]
    simp [centralHeader, writeUInt16LE, writeUInt32LE, checksum, content, room]

/-- What is read of the end record. -/
structure EndFields (archive : Bytes) (position size centralLength offset : Nat) : Prop where
  signature : readUInt32LE archive position = 0x06054b50
  disk : readUInt16LE archive (position + 4) = 0
  startDisk : readUInt16LE archive (position + 6) = 0
  diskSize : readUInt16LE archive (position + 8) = size
  size : readUInt16LE archive (position + 10) = size
  centralLength : readUInt32LE archive (position + 12) = centralLength
  offset : readUInt32LE archive (position + 16) = offset
  commentLength : readUInt16LE archive (position + 20) = 0

theorem endFields_of_placed {size centralLength : Nat}
    (placed : Placed archive (endRecord size centralLength offset) position)
    (count : size < 0x10000) (central : centralLength < 0x100000000)
    (room : offset < 0x100000000) : EndFields archive position size centralLength offset := by
  constructor
  case signature =>
    rw [placed.readUInt32LE_start (by simp)]
    simp [endRecord, writeUInt16LE, writeUInt32LE]
  case disk | startDisk | diskSize | size | commentLength =>
    rw [placed.readUInt16LE (by simp)]
    simp [endRecord, writeUInt16LE, writeUInt32LE, count]
  case centralLength | offset =>
    rw [placed.readUInt32LE (by simp)]
    simp [endRecord, writeUInt16LE, writeUInt32LE, central, room]

end Fields

end AutoMobile.BundleZip
