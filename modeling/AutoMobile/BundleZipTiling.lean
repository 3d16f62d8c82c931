import AutoMobile.AbuttingIntervals
import AutoMobile.BundleZipRoundTrip
import AutoMobile.BundleZipSafety

/- What a bundle is when the reader accepts it: the local records tile the archive up to the
directory, and every entry is what its headers say. -/
namespace AutoMobile.BundleZip

open List hiding keys
open ByteRecords InsertionMap AbuttingIntervals

variable {bytes : Bytes} {position stop directory : Nat} {entries : List BundleZipEntry}
  {result : InsertionMap Name Bytes} {inflateRawSync : Bytes → Int → Inflation}

/-- The headers of the entries follow one another up to the end record. -/
def DirectoryChain (bytes : Bytes) (stop : Nat) : Nat → List BundleZipEntry → Prop
  | position, [] => position = stop
  | position, entry :: rest =>
    ∃ next, CentralRecord bytes position next entry ∧ DirectoryChain bytes stop next rest

structure SoundDirectory (bytes : Bytes) (stop directory : Nat) (entries : List BundleZipEntry) :
    Prop where
  endRecord : EndRecord bytes stop
  directory_eq : directory = readUInt32LE bytes (stop + 16)
  size_eq : directory + readUInt32LE bytes (stop + 12) = stop
  counted : entries.length = readUInt16LE bytes (stop + 10)
  few : entries.length ≤ BUNDLE_MAX_ENTRIES
  chain : DirectoryChain bytes stop directory entries
  locals : ∀ entry ∈ entries, LocalRecord bytes entry
  tiles : Tiles BundleZipEntry.offset BundleZipEntry.stop entries 0 directory
  allowed : ∀ entry ∈ entries, ENTRY_PATTERN entry.name = true
  distinct : (entries.map fun entry => toLowerCase entry.name).Nodup
  methods : ∀ entry ∈ entries, entry.method = 0 ∨ entry.method = 8

/-- The content of an entry is what its record holds, of the size and checksum that it says. -/
structure ContentOf (inflateRawSync : Bytes → Int → Inflation) (bytes : Bytes)
    (entry : BundleZipEntry) (content : Name × Bytes) : Prop where
  name : content.1 = entry.name
  decoded : entry.method = 0 ∧ content.2 = subarray bytes entry.start entry.stop ∨
    entry.method = 8 ∧ ∃ limit, inflateRawSync (subarray bytes entry.start entry.stop) limit =
      .output content.2 entry.compressed
  size : content.2.length = entry.expanded
  crc : crc32 content.2 = entry.crc
  cap : content.2.length ≤ bundleEntryCap entry.name

structure SoundContents (inflateRawSync : Bytes → Int → Inflation) (bytes : Bytes)
    (entries : List BundleZipEntry) (result : InsertionMap Name Bytes) : Prop where
  archive : bytes.length ≤ BUNDLE_MAX_COMPRESSED_BYTES
  contents : List.Forall₂ (ContentOf inflateRawSync bytes) entries result
  total : (result.map fun content => content.2.length).sum ≤ BUNDLE_MAX_EXPANDED_BYTES
  ratio : (result.map fun content => content.2.length).sum ≤
    (entries.map BundleZipEntry.compressed).sum * BUNDLE_MAX_RATIO

section Directory

theorem centralEntries_ok {count : Nat} {names : List Name} {listed : List BundleZipEntry × Nat}
    (accepted : centralEntries bytes stop count position names = .ok listed) :
    listed.1.length = count ∧ DirectoryChain bytes listed.2 position listed.1 ∧
      (∀ entry ∈ listed.1, entry.method = 0 ∨ entry.method = 8) ∧
      (∀ entry ∈ listed.1, toLowerCase entry.name ∉ names) ∧
      (listed.1.map fun entry => toLowerCase entry.name).Nodup := by
  induction count generalizing position names listed with
  | zero =>
    obtain rfl := Except.ok.inj accepted
    simp [DirectoryChain]
  | succ count ih =>
    rw [centralEntries] at accepted
    obtain ⟨parsed, central, accepted⟩ := of_bind_ok accepted
    obtain ⟨record, method, -⟩ := centralEntry_ok central
    obtain ⟨fresh, accepted⟩ := of_assert_ok accepted
    obtain ⟨later, loop, accepted⟩ := of_bind_ok accepted
    obtain ⟨length, chain, methods, others, distinct⟩ := ih loop
    obtain rfl := Except.ok.inj accepted
    refine ⟨congrArg (· + 1) length, ⟨parsed.2, record, chain⟩, ?_, ?_, ?_⟩
    · intro entry member
      rcases mem_cons.mp member with rfl | inside
      · exact method
      · exact methods entry inside
    · intro entry member
      rcases mem_cons.mp member with rfl | inside
      · exact fresh
      · exact fun known => others entry inside (mem_cons_of_mem _ known)
    · rw [map_cons, nodup_cons]
      refine ⟨fun repeated => ?_, distinct⟩
      obtain ⟨entry, inside, same⟩ := mem_map.mp repeated
      exact others entry inside (same ▸ mem_cons_self)

theorem mapM_ok {α β : Type} {check : α → Except BundleFailure β} {values : List α}
    {results : List β} (accepted : values.mapM check = .ok results) :
    List.Forall₂ (fun value result => check value = .ok result) values results := by
  induction values generalizing results with
  | nil =>
    obtain rfl := Except.ok.inj accepted
    exact List.Forall₂.nil
  | cons value values ih =>
    rw [mapM_cons] at accepted
    obtain ⟨first, here, accepted⟩ := of_bind_ok accepted
    obtain ⟨rest, later, accepted⟩ := of_bind_ok accepted
    obtain rfl := Except.ok.inj accepted
    exact List.Forall₂.cons here (ih later)

theorem exists_of_mem_right {α β : Type} {related : α → β → Prop} {values : List α}
    {results : List β} (all : List.Forall₂ related values results) {result : β}
    (member : result ∈ results) : ∃ value ∈ values, related value result := by
  induction all with
  | nil => cases member
  | @cons first image _ _ here _ ih =>
    rcases mem_cons.mp member with rfl | later
    · exact ⟨first, mem_cons_self, here⟩
    · obtain ⟨value, inside, step⟩ := ih later
      exact ⟨value, mem_cons_of_mem _ inside, step⟩

theorem tileEntries_ok {first last : Nat} {sorted : List BundleZipEntry}
    (accepted : tileEntries first sorted = .ok last) :
    Abutting BundleZipEntry.offset BundleZipEntry.stop first sorted last := by
  induction sorted generalizing first with
  | nil =>
    obtain rfl := Except.ok.inj accepted
    exact Abutting.nil first
  | cons entry rest ih =>
    rw [tileEntries] at accepted
    obtain ⟨here, accepted⟩ := of_assert_ok accepted
    rw [← here]
    exact Abutting.cons (ih accepted)

theorem CentralRecord.of_sameListing {next : Nat} {listed located : BundleZipEntry}
    (record : CentralRecord bytes position next listed) (same : SameListing listed located) :
    CentralRecord bytes position next located := by
  rw [same]
  exact ⟨record.signature, record.name, record.next_eq, record.flags, record.method, record.crc,
    record.compressed, record.expanded, record.offset⟩

theorem DirectoryChain.of_sameListing {listed located : List BundleZipEntry}
    (same : List.Forall₂ SameListing listed located)
    (chain : DirectoryChain bytes stop position listed) :
    DirectoryChain bytes stop position located := by
  induction same generalizing position with
  | nil => exact chain
  | cons here _ ih =>
    obtain ⟨next, record, later⟩ := chain
    exact ⟨next, record.of_sameListing here, ih later⟩

theorem map_of_sameListing {α : Type} {view : BundleZipEntry → α} {listed located : List BundleZipEntry}
    (same : List.Forall₂ SameListing listed located)
    (kept : ∀ first second, SameListing first second → view second = view first) :
    located.map view = listed.map view := by
  induction same with
  | nil => rfl
  | cons here _ ih => rw [map_cons, map_cons, kept _ _ here, ih]

theorem readBundleZipDirectory_ok (accepted : readBundleZipDirectory bytes = .ok entries) :
    ∃ stop directory, SoundDirectory bytes stop directory entries := by
  unfold readBundleZipDirectory at accepted
  obtain ⟨stop, ended, accepted⟩ := of_bind_ok accepted
  have endRecord := endOfDirectory_ok ended
  dsimp only at accepted
  obtain ⟨size_eq, accepted⟩ := of_assert_ok accepted
  obtain ⟨listed, central, accepted⟩ := of_bind_ok accepted
  obtain ⟨length, chain, methods, -, distinct⟩ := centralEntries_ok central
  obtain ⟨ends, accepted⟩ := of_assert_ok accepted
  obtain ⟨located, checked, accepted⟩ := of_bind_ok accepted
  obtain ⟨previousEnd, tiled, accepted⟩ := of_bind_ok accepted
  obtain ⟨reached, accepted⟩ := of_assert_ok accepted
  obtain rfl := Except.ok.inj accepted
  rw [reached] at tiled
  have steps := mapM_ok checked
  have same : List.Forall₂ SameListing listed.1 located :=
    steps.imp fun _ _ step => (allowedEntry_ok step).1
  have facts : ∀ entry ∈ located, ENTRY_PATTERN entry.name = true ∧ LocalRecord bytes entry ∧
      (entry.method = 0 ∨ entry.method = 8) := by
    intro entry member
    obtain ⟨listing, inside, step⟩ := exists_of_mem_right steps member
    obtain ⟨alike, allowed, record, -⟩ := allowedEntry_ok step
    refine ⟨allowed, record, ?_⟩
    rw [alike]
    exact methods listing inside
  have forward : ∀ entry ∈ located, entry.offset ≤ entry.stop := by
    intro entry member
    have record := (facts entry member).2.1
    rw [record.stop, record.start]
    omega
  have sorted := mergeSort_perm located fun a b => decide (a.offset ≤ b.offset)
  have tiles := ((tileEntries_ok tiled).tiles fun entry member =>
    forward entry (sorted.mem_iff.mp member)).2
  have counted : located.length = readUInt16LE bytes (stop + 10) := same.length_eq.symm.trans length
  refine ⟨stop, _, endRecord, rfl, size_eq, counted, ?_, ?_, fun entry member => (facts entry member).2.1,
    tiles.of_perm sorted.symm, fun entry member => (facts entry member).1, ?_,
    fun entry member => (facts entry member).2.2⟩
  · rw [counted]
    exact endRecord.few
  · rw [ends] at chain
    exact chain.of_sameListing same
  · rw [map_of_sameListing same fun first second alike => by rw [alike]]
    exact distinct

end Directory

section Contents

variable {entry : BundleZipEntry} {budget : OutputBudget} {output : Bytes}

theorem outputBudget_limit (entry : BundleZipEntry) (remaining ratioRemaining : Int) :
    (outputBudget entry remaining ratioRemaining).limit ≤ bundleEntryCap entry.name ∧
      (outputBudget entry remaining ratioRemaining).limit ≤ remaining ∧
      (outputBudget entry remaining ratioRemaining).limit ≤ ratioRemaining := by
  dsimp only [outputBudget]
  split <;> split <;> dsimp only at * <;> omega

/-- What an entry inflates to is within its budget, and its whole record was consumed. -/
theorem inflate_ok (method : entry.method = 0 ∨ entry.method = 8)
    (length : (subarray bytes entry.start entry.stop).length = entry.compressed)
    (accepted : inflate inflateRawSync bytes entry budget = .ok output) :
    (output.length : Int) ≤ budget.limit ∧
      (entry.method = 0 ∧ output = subarray bytes entry.start entry.stop ∨
        entry.method = 8 ∧ ∃ limit, inflateRawSync (subarray bytes entry.start entry.stop) limit =
          .output output entry.compressed) := by
  unfold inflate at accepted
  dsimp only at accepted
  by_cases stored : entry.method = 0
  · rw [if_pos stored] at accepted
    obtain ⟨room, accepted⟩ := of_assert_ok accepted
    obtain rfl := Except.ok.inj accepted
    exact ⟨room, Or.inl ⟨stored, rfl⟩⟩
  · rw [if_neg stored] at accepted
    cases inflated : inflateRawSync (subarray bytes entry.start entry.stop) (budget.limit + 1) with
    | bufferTooLarge =>
      rw [inflated] at accepted
      cases accepted
    | failed =>
      rw [inflated] at accepted
      cases accepted
    | output buffer bytesWritten =>
      rw [inflated] at accepted
      obtain ⟨consumed, accepted⟩ := of_assert_ok accepted
      obtain ⟨room, accepted⟩ := of_assert_ok accepted
      obtain rfl := Except.ok.inj accepted
      rw [consumed, length] at inflated
      exact ⟨room, Or.inr ⟨method.resolve_left stored, _, inflated⟩⟩

theorem subarray_length_of_inside {first last : Nat} (rising : first ≤ last)
    (inside : last ≤ bytes.length) : (subarray bytes first last).length = last - first := by
  rw [subarray, length_take, length_drop]
  omega

/-- The contents that are read go after those that are known. -/
theorem readEntries_ok {compressedTotal expanded : Nat} {known : InsertionMap Name Bytes}
    (methods : ∀ entry ∈ entries, entry.method = 0 ∨ entry.method = 8)
    (lengths : ∀ entry ∈ entries, (subarray bytes entry.start entry.stop).length = entry.compressed)
    (distinct : (keys known ++ entries.map BundleZipEntry.name).Nodup)
    (within : expanded ≤ BUNDLE_MAX_EXPANDED_BYTES ∧ expanded ≤ compressedTotal * BUNDLE_MAX_RATIO)
    (accepted : readEntries inflateRawSync bytes compressedTotal expanded known entries =
      .ok result) :
    ∃ contents, result = known ++ contents ∧
      List.Forall₂ (ContentOf inflateRawSync bytes) entries contents ∧
      expanded + (contents.map fun content => content.2.length).sum ≤ BUNDLE_MAX_EXPANDED_BYTES ∧
      expanded + (contents.map fun content => content.2.length).sum ≤
        compressedTotal * BUNDLE_MAX_RATIO := by
  induction entries generalizing expanded known with
  | nil =>
    obtain rfl := Except.ok.inj accepted
    exact ⟨[], by simp, List.Forall₂.nil, within⟩
  | cons entry rest ih =>
    rw [readEntries] at accepted
    obtain ⟨-, accepted⟩ := of_assert_ok accepted
    dsimp only at accepted
    obtain ⟨output, inflated, accepted⟩ := of_bind_ok accepted
    obtain ⟨size, accepted⟩ := of_assert_ok accepted
    obtain ⟨crc, accepted⟩ := of_assert_ok accepted
    obtain ⟨room, decoded⟩ := inflate_ok (methods entry mem_cons_self)
      (lengths entry mem_cons_self) inflated
    obtain ⟨cap, total, ratio⟩ := outputBudget_limit entry
      (BUNDLE_MAX_EXPANDED_BYTES - expanded) (compressedTotal * BUNDLE_MAX_RATIO - expanded)
    have fresh : entry.name ∉ keys known := fun inside =>
      (nodup_append.mp distinct).2.2 _ inside _ mem_cons_self rfl
    rw [put_of_fresh fresh] at accepted
    have later : (keys (known ++ [(entry.name, output)]) ++ rest.map BundleZipEntry.name).Nodup := by
      simpa [keys] using distinct
    obtain ⟨contents, result_eq, forall₂, sums⟩ := ih
      (fun other member => methods other (mem_cons_of_mem _ member))
      (fun other member => lengths other (mem_cons_of_mem _ member)) later
      (by omega) accepted
    refine ⟨(entry.name, output) :: contents, ?_, List.Forall₂.cons ?_ forall₂, ?_⟩
    · rw [result_eq, append_assoc]
      rfl
    · exact ⟨rfl, decoded, size, crc, by dsimp only; omega⟩
    · rw [map_cons, sum_cons]
      dsimp only
      omega

theorem readBundleZip_ok (accepted : readBundleZip inflateRawSync bytes = .ok result) :
    ∃ entries stop directory, SoundDirectory bytes stop directory entries ∧
      SoundContents inflateRawSync bytes entries result := by
  unfold readBundleZip at accepted
  obtain ⟨archive, accepted⟩ := of_assert_ok accepted
  obtain ⟨entries, listed, accepted⟩ := of_bind_ok accepted
  obtain ⟨stop, directory, sound⟩ := readBundleZipDirectory_ok listed
  have lengths : ∀ entry ∈ entries,
      (subarray bytes entry.start entry.stop).length = entry.compressed := by
    intro entry member
    have record := sound.locals entry member
    have inside := (sound.tiles.inside entry member).2
    have placed := sound.size_eq
    have last := sound.endRecord.last
    have stop_eq := record.stop
    rw [subarray_length_of_inside (by omega) (by omega)]
    omega
  have distinct : (keys ([] : InsertionMap Name Bytes) ++
      entries.map BundleZipEntry.name).Nodup := by
    change (entries.map BundleZipEntry.name).Nodup
    apply List.Nodup.of_map toLowerCase
    rw [List.map_map]
    exact sound.distinct
  obtain ⟨contents, rfl, forall₂, total, ratio⟩ :=
    readEntries_ok sound.methods lengths distinct ⟨Nat.zero_le _, Nat.zero_le _⟩ accepted
  rw [Nat.zero_add] at total ratio
  exact ⟨entries, stop, directory, sound, archive, forall₂, total, ratio⟩

end Contents

/-- The reader throws nothing but a bundle failure, and what it accepts is a sound bundle. -/
theorem readBundleZip_safe (inflateRawSync : Bytes → Int → Inflation) (bytes : Bytes) :
    readBundleZipChecked inflateRawSync bytes ≠ .error .outside ∧
      ∀ result, readBundleZipChecked inflateRawSync bytes = .ok result →
        ∃ entries stop directory, SoundDirectory bytes stop directory entries ∧
          SoundContents inflateRawSync bytes entries result := by
  rw [readBundleZipChecked_eq]
  cases read : readBundleZip inflateRawSync bytes with
  | error failure =>
    refine ⟨?_, fun result accepted => ?_⟩
    · intro outside
      cases outside
    · cases accepted
  | ok known =>
    refine ⟨?_, fun result accepted => ?_⟩
    · intro outside
      cases outside
    · obtain rfl := Except.ok.inj accepted
      exact readBundleZip_ok read

/-- A bundle of two entries is accepted. -/
theorem readBundleZip_safe_manifest :
    ∃ archive, writeCanonicalBundleZip manifestBundle = some archive ∧
      readBundleZipChecked (fun _ _ => .failed) archive = .ok manifestBundle ∧
      ∃ entries stop directory, SoundDirectory archive stop directory entries ∧
        SoundContents (fun _ _ => .failed) archive entries manifestBundle := by
  have written : writeCanonicalBundleZip manifestBundle = some (archiveOf manifestBundle) := by
    decide +kernel
  have accepted : readBundleZipChecked (fun _ _ => .failed) (archiveOf manifestBundle) =
      .ok manifestBundle := by
    rw [readBundleZipChecked_eq, readBundleZip_of_alone _ manifestBundle_within (by decide +kernel)]
    rfl
  exact ⟨_, written, accepted, (readBundleZip_safe _ _).2 _ accepted⟩

end AutoMobile.BundleZip
