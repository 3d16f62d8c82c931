import AutoMobile.BundleZipRecords

/- A written bundle is read back as it was, unless bytes in its last 65,557 look like a second end
record; then it is not taken for a ZIP archive. -/
namespace AutoMobile.BundleZip

open List hiding keys
open ByteRecords InsertionMap

/-- The reader's limits on a bundle. What the limits on expanded bytes and on their ratio to the
stored ones ask for follows from the size of the archive. -/
structure WithinBudgets (entries : InsertionMap Name Bytes) : Prop where
  distinct : (keys entries).Nodup
  allowed : ∀ entry ∈ entries, ENTRY_PATTERN entry.1 = true
  count : entries.length ≤ BUNDLE_MAX_ENTRIES
  contents : ∀ entry ∈ entries, entry.2.length ≤ bundleEntryCap entry.1
  size : archiveSize entries ≤ BUNDLE_MAX_COMPRESSED_BYTES

/-- An entry as its record in the directory has it. -/
def listedEntry (entry : Name × Bytes) (offset : Nat) : BundleZipEntry where
  name := entry.1
  method := 0
  flags := 0
  crc := crc32 entry.2
  compressed := entry.2.length
  expanded := entry.2.length
  offset := offset
  start := 0
  stop := 0

/-- An entry with the place of its contents. -/
def locatedEntry (entry : Name × Bytes) (offset : Nat) : BundleZipEntry :=
  { listedEntry entry offset with
    start := offset + 30 + entry.1.length
    stop := offset + 30 + entry.1.length + entry.2.length }

/-- The entries, each at the offset of its record. -/
def placedEntries (view : Name × Bytes → Nat → BundleZipEntry) :
    Nat → InsertionMap Name Bytes → List BundleZipEntry
  | _, [] => []
  | offset, entry :: rest =>
    view entry offset :: placedEntries view (offset + (localRecord entry).length) rest

section Directory

variable {archive : Bytes} {entry : Name × Bytes} {entries : InsertionMap Name Bytes}
  {position offset stop directory : Nat}

theorem entryAttributes_of_fields (fields : CentralFields archive position entry offset)
    (content : entry.2.length < 0xffffffff) (room : offset < 0xffffffff) :
    entryAttributes archive position (listedEntry entry offset) = .ok () := by
  have sizes : entry.2.length ≠ 0xffffffff ∧ entry.2.length ≠ 0xffffffff ∧ offset ≠ 0xffffffff ∧
      readUInt16LE archive (position + 6) < 45 := by
    rw [fields.version]
    omega
  have type : readUInt32LE archive (position + 38) >>> 16 &&& 0xf000 = 0 ∨
      readUInt32LE archive (position + 38) >>> 16 &&& 0xf000 = 0x8000 := by
    rw [fields.attributes]
    decide
  have folder : readUInt32LE archive (position + 38) &&& 0x10 = 0 := by
    rw [fields.attributes]
    decide
  have extra : readUInt16LE archive (position + 30) = 0 ∧ readUInt16LE archive (position + 32) = 0 :=
    ⟨fields.extraLength, fields.commentLength⟩
  refine bind_ok (bundleAssert_ok type) ?_
  refine bind_ok (bundleAssert_ok folder) ?_
  refine bind_ok (bundleAssert_ok (Nat.zero_and 0x41)) ?_
  refine bind_ok (bundleAssert_ok (.inl rfl)) ?_
  refine bind_ok (bundleAssert_ok fields.disk) ?_
  refine bind_ok (bundleAssert_ok sizes) ?_
  refine bind_ok (bundleAssert_ok extra) ?_
  exact bundleAssert_ok (Nat.zero_and 0xf7f9)

theorem centralEntry_of_placed (placed : Placed archive (directoryRecord entry offset) position)
    (plain : PlainName entry.1) (content : entry.2.length < 0xffffffff)
    (room : offset < 0xffffffff)
    (inside : position + (directoryRecord entry offset).length ≤ stop) :
    centralEntry archive position stop =
      .ok (listedEntry entry offset, position + (directoryRecord entry offset).length) := by
  have fields := centralFields_of_placed placed.left plain.short (by omega) (by omega)
  have name := placed.right.subarray
  rw [centralHeader_length] at name
  rw [directoryRecord_length] at inside ⊢
  have header : position + 46 ≤ stop ∧ readUInt32LE archive position = 0x02014b50 :=
    ⟨by omega, fields.signature⟩
  have attributes := entryAttributes_of_fields fields content room
  unfold centralEntry
  rw [fields.nameLength, fields.extraLength, fields.commentLength, fields.flags, fields.method,
    fields.crc, fields.compressed, fields.expanded, fields.offset, name]
  refine bind_ok (bundleAssert_ok header) ?_
  refine bind_ok (bundleAssert_ok (by omega)) ?_
  refine bind_ok (safeName_of_plain plain) ?_
  refine bind_ok attributes ?_
  rw [Nat.add_zero, Nat.add_zero, Nat.add_assoc]
  rfl

/-- The directory is read entry by entry; no name occurs a second time. -/
theorem centralEntries_of_placed (names : List Name)
    (placed : Placed archive (directoryRecords offset entries) position)
    (plain : ∀ entry ∈ entries, PlainName entry.1) (distinct : (keys entries).Nodup)
    (fresh : ∀ name ∈ keys entries, name ∉ names)
    (room : offset + (localRecords entries).length < 0xffffffff)
    (inside : position + (directoryRecords offset entries).length ≤ stop) :
    centralEntries archive stop entries.length position names =
      .ok (placedEntries listedEntry offset entries,
        position + (directoryRecords offset entries).length) := by
  induction entries generalizing offset position names with
  | nil => rfl
  | cons entry rest ih =>
    rw [directoryRecords] at placed
    simp only [directoryRecords, localRecords, length_append, localRecord_length]
      at inside room
    have here := plain entry mem_cons_self
    have first := centralEntry_of_placed placed.left here (by omega) (by omega)
      (by omega : _ ≤ stop)
    have lower : toLowerCase entry.1 = entry.1 := here.toLowerCase_eq
    have unseen : entry.1 ∉ names := fresh entry.1 mem_cons_self
    obtain ⟨absent, distinctRest⟩ := nodup_cons.1 distinct
    have later := ih (entry.1 :: names) placed.right
      (fun other listed => plain other (mem_cons_of_mem _ listed)) distinctRest
      (fun name listed => ?_) (by rw [localRecord_length]; omega)
      (by rw [localRecord_length]; omega)
    · refine bind_ok first ?_
      refine bind_ok (bundleAssert_ok (by rw [listedEntry, lower]; exact unseen)) ?_
      refine bind_ok (by rw [listedEntry, lower]; exact later) ?_
      rw [directoryRecords, length_append, ← Nat.add_assoc]
      rfl
    · rintro (_ | ⟨_, seen⟩)
      · exact absent listed
      · exact fresh name (mem_cons_of_mem _ listed) seen

theorem allowedEntry_of_placed (placed : Placed archive (localRecord entry) offset)
    (allowed : ENTRY_PATTERN entry.1 = true) (content : entry.2.length < 0x100000000)
    (inside : offset + (localRecord entry).length ≤ directory) :
    allowedEntry archive directory (listedEntry entry offset) = .ok (locatedEntry entry offset) := by
  have plain := plainName_of_allowed allowed
  have fields := localFields_of_placed placed.left plain.short content
  have name := placed.right.left.subarray
  rw [localHeader_length] at name
  rw [localRecord_length] at inside
  have shader : ¬ ascii ".agsl" <:+ entry.1 := plain.not_suffix (by decide)
  have header : offset + 30 ≤ directory ∧ readUInt32LE archive offset = 0x04034b50 :=
    ⟨by omega, fields.signature⟩
  refine bind_ok (bundleAssert_ok shader) ?_
  refine bind_ok (bundleAssert_ok allowed) ?_
  unfold localEntry
  dsimp only [listedEntry]
  rw [fields.nameLength, name]
  refine bind_ok (bundleAssert_ok header) ?_
  refine bind_ok (bundleAssert_ok (by omega)) ?_
  refine bind_ok (bundleAssert_ok fields.extraLength) ?_
  refine bind_ok (bundleAssert_ok rfl) ?_
  refine bind_ok (bundleAssert_ok fields.flags) ?_
  refine bind_ok (bundleAssert_ok fields.method) ?_
  refine bind_ok (bundleAssert_ok fields.crc) ?_
  refine bind_ok (bundleAssert_ok fields.compressed) ?_
  refine bind_ok (bundleAssert_ok fields.expanded) ?_
  refine bind_ok (bundleAssert_ok (by rw [fields.version]; decide)) ?_
  exact bind_ok (bundleAssert_ok (by omega)) rfl

theorem mapM_allowedEntry (placed : Placed archive (localRecords entries) offset)
    (allowed : ∀ entry ∈ entries, ENTRY_PATTERN entry.1 = true)
    (room : (localRecords entries).length < 0x100000000)
    (inside : offset + (localRecords entries).length ≤ directory) :
    (placedEntries listedEntry offset entries).mapM (allowedEntry archive directory) =
      .ok (placedEntries locatedEntry offset entries) := by
  induction entries generalizing offset with
  | nil => rfl
  | cons entry rest ih =>
    rw [localRecords] at placed
    simp only [localRecords, length_append, localRecord_length] at inside room
    have first := allowedEntry_of_placed placed.left (allowed entry mem_cons_self)
      (by omega) (by rw [localRecord_length]; omega : _ ≤ directory)
    have later := ih placed.right
      (fun other listed => allowed other (mem_cons_of_mem _ listed)) (by omega)
      (by rw [localRecord_length]; omega)
    rw [placedEntries, placedEntries, mapM_cons]
    exact bind_ok first (bind_ok later rfl)

theorem offset_le_of_placed {located : BundleZipEntry}
    (listed : located ∈ placedEntries locatedEntry offset entries) : offset ≤ located.offset := by
  induction entries generalizing offset with
  | nil => exact absurd listed not_mem_nil
  | cons entry rest ih =>
    obtain rfl | later := mem_cons.1 listed
    · exact Nat.le_refl _
    · exact Nat.le_trans (Nat.le_add_right _ _) (ih later)

theorem sorted_placedEntries (entries : InsertionMap Name Bytes) (offset : Nat) :
    (placedEntries locatedEntry offset entries).Pairwise fun a b =>
      decide (a.offset ≤ b.offset) = true := by
  induction entries generalizing offset with
  | nil => exact List.Pairwise.nil
  | cons entry rest ih =>
    refine List.Pairwise.cons (fun later listed => ?_) (ih _)
    exact decide_eq_true (Nat.le_trans (Nat.le_add_right _ _) (offset_le_of_placed listed))

theorem tileEntries_placed (entries : InsertionMap Name Bytes) (offset : Nat) :
    tileEntries offset (placedEntries locatedEntry offset entries) =
      .ok (offset + (localRecords entries).length) := by
  induction entries generalizing offset with
  | nil => rfl
  | cons entry rest ih =>
    have stop : (locatedEntry entry offset).stop = offset + (localRecord entry).length := by
      rw [localRecord_length, ← Nat.add_assoc, ← Nat.add_assoc]
      rfl
    rw [placedEntries, tileEntries, stop]
    refine bind_ok (bundleAssert_ok rfl) ?_
    rw [ih, localRecords, length_append, Nat.add_assoc]

end Directory

section End

variable {archive : Bytes} {entry : Name × Bytes} {entries : InsertionMap Name Bytes}
  {position offset : Nat}

/-- The signature of a ZIP64 locator does not stand twenty bytes before the end of a record: there
are zeros of the header there, or a byte of the name. -/
theorem directoryRecord_locator (offset : Nat) (plain : PlainName entry.1) :
    byteAt (directoryRecord entry offset) ((directoryRecord entry offset).length - 20) ≠ 0x50 := by
  have name : ∀ byte ∈ entry.1, byte.toNat ≠ 0x50 := by
    intro byte inside same
    have small := plain.plain byte inside
    simp only [PlainByte, UInt8.le_iff_toNat_le, UInt8.reduceToNat] at small
    omega
  have whole : Placed (directoryRecord entry offset) (directoryRecord entry offset) 0 := prefix_rfl
  have header : ∀ index, index = 35 ∨ index = 37 →
      byteAt (directoryRecord entry offset) (0 + index) = 0 := by
    rintro index (rfl | rfl)
    all_goals
      rw [whole.left.byteAt (by simp)]
      simp [centralHeader, writeUInt16LE, writeUInt32LE, byteAt_overwrite_apart]
  rw [directoryRecord_length]
  obtain short | short | long := plain.size
  · rw [short, ← Nat.zero_add (46 + 9 - 20), header _ (by decide)]
    decide
  · rw [short, ← Nat.zero_add (46 + 11 - 20), header _ (by decide)]
    decide
  · have place : 46 + entry.1.length - 20 = 0 + (centralHeader entry.1 entry.2 offset).length +
        (entry.1.length - 20) := by
      rw [centralHeader_length]
      omega
    have inside : entry.1.length - 20 < entry.1.length := by omega
    have here : byteAt entry.1 (entry.1.length - 20) = entry.1[entry.1.length - 20].toNat := by
      rw [byteAt, getD_eq_getElem?_getD, getElem?_eq_getElem inside, Option.getD_some]
    rw [place, whole.right.byteAt inside, here]
    exact name _ (getElem_mem inside)

theorem directoryRecords_locator (placed : Placed archive (directoryRecords offset entries) position)
    (plain : ∀ entry ∈ entries, PlainName entry.1) (some : entries ≠ []) :
    20 ≤ (directoryRecords offset entries).length ∧
      byteAt archive (position + (directoryRecords offset entries).length - 20) ≠ 0x50 := by
  induction entries generalizing offset position with
  | nil => exact absurd rfl some
  | cons entry rest ih =>
    rw [directoryRecords] at placed ⊢
    have here := directoryRecord_locator offset (plain entry mem_cons_self)
    have long : 20 ≤ (directoryRecord entry offset).length := by
      rw [directoryRecord_length]
      omega
    cases rest with
    | nil =>
      rw [directoryRecords, append_nil] at placed ⊢
      rw [Nat.add_sub_assoc long, placed.byteAt (by omega)]
      exact ⟨long, here⟩
    | cons next others =>
      obtain ⟨_, later⟩ := ih placed.right
        (fun other listed => plain other (mem_cons_of_mem _ listed)) (cons_ne_nil _ _)
      rw [length_append, ← Nat.add_assoc]
      exact ⟨by omega, later⟩

theorem mem_endPositions {stop : Nat} (fits : stop + 22 = archive.length)
    (signature : readUInt32LE archive stop = 0x06054b50) : stop ∈ endPositions archive := by
  refine mem_filter.2 ⟨mem_range'_1.2 ?_, beq_iff_eq.2 signature⟩
  omega

/-- Bytes with another number of signatures than one are not taken for an archive. -/
theorem endOfDirectory_of_ambiguous (ambiguous : (endPositions archive).length ≠ 1) :
    endOfDirectory archive = .error ⟨.not_a_zip, none⟩ := by
  rw [endOfDirectory, bundleAssert, if_neg ambiguous]
  rfl

end End

section Archive

variable {entries : InsertionMap Name Bytes}

theorem WithinBudgets.plain (within : WithinBudgets entries) :
    ∀ entry ∈ entries, PlainName entry.1 := fun entry listed =>
  plainName_of_allowed (within.allowed entry listed)

theorem WithinBudgets.small (within : WithinBudgets entries) : archiveSize entries < 0xffffffff :=
  Nat.lt_of_le_of_lt within.size (by decide)

theorem archiveOf_length (entries : InsertionMap Name Bytes) :
    (archiveOf entries).length = archiveSize entries := by
  rw [← archive_length 0 entries, archiveOf, length_append, length_append,
    endRecord_length, Nat.add_assoc]

theorem placed_localRecords : Placed (archiveOf entries) (localRecords entries) 0 :=
  placed_start _ _

theorem placed_directoryRecords :
    Placed (archiveOf entries) (directoryRecords 0 entries) (localRecords entries).length :=
  placed_append _ _

theorem endFields_archiveOf (within : WithinBudgets entries) :
    EndFields (archiveOf entries) ((localRecords entries).length + (directoryRecords 0 entries).length)
      entries.length (directoryRecords 0 entries).length (localRecords entries).length := by
  have sizes := archive_length 0 entries
  have small := within.small
  have few : entries.length < 0x10000 := Nat.lt_of_le_of_lt within.count (by decide)
  have whole : Placed (archiveOf entries) (localRecords entries ++ (directoryRecords 0 entries ++
      endRecord entries.length (directoryRecords 0 entries).length
        (localRecords entries).length)) 0 := prefix_rfl
  have placed := whole.right.right
  rw [Nat.zero_add] at placed
  exact endFields_of_placed placed few (by omega) (by omega)

theorem endOfDirectory_of_alone (within : WithinBudgets entries)
    (alone : (endPositions (archiveOf entries)).length = 1) :
    endOfDirectory (archiveOf entries) =
      .ok ((localRecords entries).length + (directoryRecords 0 entries).length) := by
  have sizes := archive_length 0 entries
  have small := within.small
  have fields := endFields_archiveOf within
  have few := within.count
  have long := archiveOf_length entries
  obtain ⟨stop, only⟩ := length_eq_one_iff.1 alone
  have found := mem_endPositions (by omega) fields.signature
  rw [only, mem_singleton] at found
  have locator : stop < 20 ∨ readUInt32LE (archiveOf entries) (stop - 20) ≠ 0x07064b50 := by
    by_cases empty : entries = []
    · subst empty
      exact .inl (by rw [← found]; decide)
    · refine .inr fun signature => ?_
      have absent := (directoryRecords_locator placed_directoryRecords within.plain empty).2
      rw [found] at absent
      have low : readUInt32LE (archiveOf entries) (stop - 20) % 256 =
          byteAt (archiveOf entries) (stop - 20) := by
        have small : byteAt (archiveOf entries) (stop - 20) < 256 := UInt8.toNat_lt _
        unfold readUInt32LE
        omega
      rw [signature] at low
      exact absent low.symm
  have disks : readUInt16LE (archiveOf entries) (stop + 4) = 0 ∧
      readUInt16LE (archiveOf entries) (stop + 6) = 0 := by
    rw [← found]
    exact ⟨fields.disk, fields.startDisk⟩
  have sizes64 : readUInt16LE (archiveOf entries) (stop + 10) ≠ 0xffff ∧
      readUInt32LE (archiveOf entries) (stop + 12) ≠ 0xffffffff ∧
      readUInt32LE (archiveOf entries) (stop + 16) ≠ 0xffffffff := by
    rw [← found, fields.size, fields.centralLength, fields.offset]
    simp only [BUNDLE_MAX_ENTRIES] at few
    omega
  have comment : readUInt16LE (archiveOf entries) (stop + 20) = 0 := by
    rw [← found]
    exact fields.commentLength
  rw [found] at fields ⊢
  unfold endOfDirectory
  rw [only]
  dsimp only [headD_cons]
  refine bind_ok (bundleAssert_ok rfl) ?_
  refine bind_ok (bundleAssert_ok (by omega)) ?_
  refine bind_ok (bundleAssert_ok locator) ?_
  refine bind_ok (bundleAssert_ok (by omega)) ?_
  refine bind_ok (bundleAssert_ok comment) ?_
  refine bind_ok (bundleAssert_ok disks) ?_
  refine bind_ok (bundleAssert_ok (fields.diskSize.trans fields.size.symm)) ?_
  refine bind_ok (bundleAssert_ok sizes64) ?_
  refine bind_ok (bundleAssert_ok (by rw [fields.size]; exact few)) ?_
  rfl

theorem readBundleZipDirectory_of_alone (within : WithinBudgets entries)
    (alone : (endPositions (archiveOf entries)).length = 1) :
    readBundleZipDirectory (archiveOf entries) = .ok (placedEntries locatedEntry 0 entries) := by
  have sizes := archive_length 0 entries
  have small := within.small
  have fields := endFields_archiveOf within
  have listed := centralEntries_of_placed [] placed_directoryRecords within.plain within.distinct
    (fun _ _ => not_mem_nil) (by omega) (Nat.le_refl _)
  have located := mapM_allowedEntry placed_localRecords within.allowed (by omega)
    (Nat.le_of_eq (Nat.zero_add _))
  have tiled := tileEntries_placed entries 0
  rw [Nat.zero_add] at tiled
  refine bind_ok (endOfDirectory_of_alone within alone) ?_
  dsimp only
  rw [fields.offset, fields.centralLength, fields.size]
  refine bind_ok (bundleAssert_ok rfl) ?_
  refine bind_ok listed ?_
  refine bind_ok (bundleAssert_ok rfl) ?_
  refine bind_ok located ?_
  rw [mergeSort_of_pairwise (sorted_placedEntries entries 0)]
  refine bind_ok tiled ?_
  exact bind_ok (bundleAssert_ok rfl) rfl

end Archive

section Contents

variable (inflateRawSync : Bytes → Int → Inflation)
  {archive : Bytes} {entry : Name × Bytes} {entries : InsertionMap Name Bytes} {offset : Nat}

theorem le_outputBudget {size : Int} {listed : BundleZipEntry} {remaining ratioRemaining : Int}
    (cap : size ≤ bundleEntryCap listed.name) (expanded : size ≤ remaining)
    (ratio : size ≤ ratioRemaining) : size ≤ (outputBudget listed remaining ratioRemaining).limit := by
  dsimp only [outputBudget]
  split <;> split <;> assumption

/-- Stored contents are taken as they are. -/
theorem inflate_of_placed {budget : OutputBudget} (placed : Placed archive (localRecord entry) offset)
    (room : (entry.2.length : Int) ≤ budget.limit) :
    inflate inflateRawSync archive (locatedEntry entry offset) budget = .ok entry.2 := by
  have content := placed.right.right.subarray
  rw [localHeader_length] at content
  have method : (locatedEntry entry offset).method = 0 := rfl
  have found : subarray archive (locatedEntry entry offset).start (locatedEntry entry offset).stop =
      entry.2 := content
  rw [inflate, if_pos method, found]
  exact bind_ok (bundleAssert_ok room) rfl

theorem readEntries_of_placed (placed : Placed archive (localRecords entries) offset)
    (result : InsertionMap Name Bytes) (expanded total : Nat) (distinct : (keys entries).Nodup)
    (fresh : ∀ name ∈ keys entries, name ∉ keys result)
    (contents : ∀ entry ∈ entries, entry.2.length ≤ bundleEntryCap entry.1)
    (stored : expanded + (entries.map fun entry => entry.2.length).sum ≤ total)
    (few : total ≤ BUNDLE_MAX_EXPANDED_BYTES) :
    readEntries inflateRawSync archive total expanded result
      (placedEntries locatedEntry offset entries) = .ok (result ++ entries) := by
  induction entries generalizing offset result expanded with
  | nil =>
    rw [append_nil]
    rfl
  | cons entry rest ih =>
    rw [localRecords] at placed
    rw [map_cons, sum_cons] at stored
    have cap := contents entry mem_cons_self
    have room : (entry.2.length : Int) ≤ (outputBudget (locatedEntry entry offset)
        (BUNDLE_MAX_EXPANDED_BYTES - expanded) (total * BUNDLE_MAX_RATIO - expanded)).limit := by
      refine le_outputBudget (Int.ofNat_le.2 cap) (by omega) ?_
      unfold BUNDLE_MAX_RATIO
      omega
    obtain ⟨absent, distinctRest⟩ := nodup_cons.1 distinct
    have unseen : entry.1 ∉ keys result := fresh entry.1 mem_cons_self
    have later := ih placed.right (put result entry.1 entry.2) (expanded + entry.2.length)
      distinctRest (fun name listed => ?_)
      (fun other listed => contents other (mem_cons_of_mem _ listed)) (by omega)
    · refine bind_ok (bundleAssert_ok cap) ?_
      refine bind_ok (inflate_of_placed inflateRawSync placed.left room) ?_
      refine bind_ok (bundleAssert_ok rfl) ?_
      refine bind_ok (bundleAssert_ok rfl) ?_
      have known : put result entry.1 entry.2 ++ rest = result ++ entry :: rest := by
        rw [put_of_fresh unseen, append_assoc]
        rfl
      rw [known] at later
      exact later
    · rw [put_of_fresh unseen, keys, map_append, mem_append]
      rintro (seen | same)
      · exact fresh name (mem_cons_of_mem _ listed) seen
      · rw [map_cons, map_nil, mem_singleton] at same
        exact absent (same ▸ listed)

end Contents



theorem contents_le_archiveSize (entries : InsertionMap Name Bytes) :
    (entries.map fun entry => entry.2.length).sum ≤ archiveSize entries := by
  induction entries with
  | nil => exact Nat.zero_le _
  | cons entry rest ih =>
    simp only [archiveSize, map_cons, sum_cons] at ih ⊢
    omega

theorem sum_compressed (entries : InsertionMap Name Bytes) (offset : Nat) :
    ((placedEntries locatedEntry offset entries).map BundleZipEntry.compressed).sum =
      (entries.map fun entry => entry.2.length).sum := by
  induction entries generalizing offset with
  | nil => rfl
  | cons entry rest ih =>
    rw [placedEntries, map_cons, sum_cons, ih]
    rfl

/-- The archive of a bundle is read back when it holds one signature of an end record. -/
theorem readBundleZip_of_alone (inflateRawSync : Bytes → Int → Inflation)
    {entries : InsertionMap Name Bytes} (within : WithinBudgets entries)
    (alone : (endPositions (archiveOf entries)).length = 1) :
    readBundleZip inflateRawSync (archiveOf entries) = .ok entries := by
  have small := within.small
  have size : (archiveOf entries).length ≤ BUNDLE_MAX_COMPRESSED_BYTES := by
    rw [archiveOf_length]
    exact within.size
  have stored := Nat.le_trans (contents_le_archiveSize entries) within.size
  rw [readBundleZip, bundleAssert_ok size, ok_bind]
  refine bind_ok (readBundleZipDirectory_of_alone within alone) ?_
  rw [sum_compressed]
  exact readEntries_of_placed inflateRawSync placed_localRecords [] 0 _ within.distinct
    (fun _ _ => not_mem_nil) within.contents (by omega) stored

/-- Reading a written bundle gives its entries in their order, if the archive's last 65,557 bytes
hold one signature of an end record; otherwise the archive is refused. -/
theorem readBundleZip_written (inflateRawSync : Bytes → Int → Inflation)
    (entries : InsertionMap Name Bytes) (within : WithinBudgets entries) :
    ∃ archive, writeCanonicalBundleZip entries = some archive ∧
      readBundleZip inflateRawSync archive =
        if (endPositions archive).length = 1 then .ok entries else .error ⟨.not_a_zip, none⟩ := by
  have small := within.small
  have names : ∀ entry ∈ entries, entry.1.length < 0x10000 := fun entry listed =>
    (within.plain entry listed).short
  have few : entries.length < 0x10000 := Nat.lt_of_le_of_lt within.count (by decide)
  refine ⟨archiveOf entries, writeCanonicalBundleZip_eq names few (by omega), ?_⟩
  split
  case isTrue alone => exact readBundleZip_of_alone inflateRawSync within alone
  case isFalse ambiguous =>
    have size : (archiveOf entries).length ≤ BUNDLE_MAX_COMPRESSED_BYTES := by
      rw [archiveOf_length]
      exact within.size
    have refused : readBundleZipDirectory (archiveOf entries) = .error ⟨.not_a_zip, none⟩ :=
      bind_error (endOfDirectory_of_ambiguous ambiguous)
    rw [readBundleZip, bundleAssert_ok size, ok_bind]
    exact bind_error refused

/-- A manifest and a specification. -/
def manifestBundle : InsertionMap Name Bytes :=
  [(ascii "bundle.json", ascii "[1]"), (ascii "spec.json", ascii "{}")]

theorem manifestBundle_within : WithinBudgets manifestBundle where
  distinct := by decide
  allowed := by decide
  count := by decide
  contents := by decide
  size := by decide

theorem readBundleZip_written_manifest :
    ∃ archive, writeCanonicalBundleZip manifestBundle = some archive ∧
      readBundleZip (fun _ _ => .failed) archive =
        if (endPositions archive).length = 1 then .ok manifestBundle
        else .error ⟨.not_a_zip, none⟩ :=
  readBundleZip_written (fun _ _ => .failed) manifestBundle manifestBundle_within

/-- Contents that hold the signature make the archive of the bundle unreadable. -/
theorem signature_in_contents : WithinBudgets [(ascii "spec.json", [0x50, 0x4b, 0x05, 0x06])] ∧
      (writeCanonicalBundleZip [(ascii "spec.json", [0x50, 0x4b, 0x05, 0x06])]).map
        (readBundleZip fun _ _ => .failed) = some (.error ⟨.not_a_zip, none⟩) := by
  refine ⟨?_, by decide +kernel⟩
  exact ⟨by decide, by decide, by decide, by decide, by decide⟩

end AutoMobile.BundleZip
