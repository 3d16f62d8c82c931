import AutoMobile.BundleZipNames

/- What each step of the bundle reader has checked when it succeeds. -/
namespace AutoMobile.BundleZip

open ByteRecords InsertionMap

section Steps

variable {α β : Type} {next : α → Except BundleFailure β} {result : β}

theorem of_bind_ok {first : Except BundleFailure α} (done : (first >>= next) = .ok result) :
    ∃ value, first = .ok value ∧ next value = .ok result := by
  cases first with
  | error failure => cases done
  | ok value => exact ⟨value, rfl, done⟩

theorem of_assert_ok {condition : Prop} [Decidable condition] {code : BundleErrorCode}
    {path : Option Name} {next : Unit → Except BundleFailure β}
    (done : (bundleAssert condition code path >>= next) = .ok result) :
    condition ∧ next () = .ok result := by
  unfold bundleAssert at done
  split at done
  · rename_i holds
    exact ⟨holds, done⟩
  · cases done

end Steps

variable {bytes : Bytes} {position stop directory next : Nat} {entry : BundleZipEntry}

/-- The end record is the last thing in the archive, and it stands alone. -/
structure EndRecord (bytes : Bytes) (stop : Nat) : Prop where
  alone : endPositions bytes = [stop]
  last : stop + 22 = bytes.length
  sameDisk : readUInt16LE bytes (stop + 4) = 0 ∧ readUInt16LE bytes (stop + 6) = 0
  counted : readUInt16LE bytes (stop + 8) = readUInt16LE bytes (stop + 10)
  few : readUInt16LE bytes (stop + 10) ≤ BUNDLE_MAX_ENTRIES

theorem endOfDirectory_ok (found : endOfDirectory bytes = .ok stop) : EndRecord bytes stop := by
  unfold endOfDirectory at found
  dsimp only at found
  obtain ⟨alone, found⟩ := of_assert_ok found
  obtain ⟨position, positions⟩ := List.length_eq_one_iff.mp alone
  rw [positions, List.headD_cons] at found
  obtain ⟨-, found⟩ := of_assert_ok found
  obtain ⟨-, found⟩ := of_assert_ok found
  obtain ⟨last, found⟩ := of_assert_ok found
  obtain ⟨bare, found⟩ := of_assert_ok found
  obtain ⟨sameDisk, found⟩ := of_assert_ok found
  obtain ⟨counted, found⟩ := of_assert_ok found
  obtain ⟨-, found⟩ := of_assert_ok found
  obtain ⟨few, found⟩ := of_assert_ok found
  obtain rfl := Except.ok.inj found
  exact ⟨positions, by omega, sameDisk, counted, few⟩

/-- The header of the directory that describes the entry, and where it ends. -/
structure CentralRecord (bytes : Bytes) (position next : Nat) (entry : BundleZipEntry) : Prop where
  signature : readUInt32LE bytes position = 0x02014b50
  name : subarray bytes (position + 46) next = entry.name
  next_eq : next = position + 46 + readUInt16LE bytes (position + 28)
  flags : readUInt16LE bytes (position + 8) = entry.flags
  method : readUInt16LE bytes (position + 10) = entry.method
  crc : readUInt32LE bytes (position + 16) = entry.crc
  compressed : readUInt32LE bytes (position + 20) = entry.compressed
  expanded : readUInt32LE bytes (position + 24) = entry.expanded
  offset : readUInt32LE bytes (position + 42) = entry.offset

theorem safeName_ok {raw : Bytes} {name : Name} (safe : safeName raw = .ok name) : name = raw := by
  unfold safeName at safe
  obtain ⟨-, safe⟩ := of_assert_ok safe
  obtain ⟨-, safe⟩ := of_assert_ok safe
  obtain ⟨-, safe⟩ := of_assert_ok safe
  exact (Except.ok.inj safe).symm

/-- No field beyond the name follows a header, and the method is known. -/
theorem entryAttributes_ok (accepted : entryAttributes bytes position entry = .ok ()) :
    (entry.method = 0 ∨ entry.method = 8) ∧
      readUInt16LE bytes (position + 30) = 0 ∧ readUInt16LE bytes (position + 32) = 0 := by
  unfold entryAttributes at accepted
  dsimp only at accepted
  obtain ⟨-, accepted⟩ := of_assert_ok accepted
  obtain ⟨-, accepted⟩ := of_assert_ok accepted
  obtain ⟨-, accepted⟩ := of_assert_ok accepted
  obtain ⟨method, accepted⟩ := of_assert_ok accepted
  obtain ⟨-, accepted⟩ := of_assert_ok accepted
  obtain ⟨-, accepted⟩ := of_assert_ok accepted
  obtain ⟨bare, -⟩ := of_assert_ok accepted
  exact ⟨method, bare⟩

theorem centralEntry_ok {parsed : BundleZipEntry × Nat}
    (accepted : centralEntry bytes position stop = .ok parsed) :
    CentralRecord bytes position parsed.2 parsed.1 ∧
      (parsed.1.method = 0 ∨ parsed.1.method = 8) ∧ parsed.2 ≤ stop := by
  unfold centralEntry at accepted
  obtain ⟨⟨-, signature⟩, accepted⟩ := of_assert_ok accepted
  dsimp only at accepted
  obtain ⟨inside, accepted⟩ := of_assert_ok accepted
  obtain ⟨name, safe, accepted⟩ := of_bind_ok accepted
  obtain ⟨⟨⟩, attributes, accepted⟩ := of_bind_ok accepted
  obtain ⟨method, extra, comment⟩ := entryAttributes_ok attributes
  obtain rfl := Except.ok.inj accepted
  rw [extra, comment] at inside ⊢
  have named := (safeName_ok safe).symm
  exact ⟨⟨signature, named, rfl, rfl, rfl, rfl, rfl, rfl, rfl⟩, method, inside⟩

/-- The local record of an entry: the fields that its header repeats, and where its data lies. -/
structure LocalRecord (bytes : Bytes) (entry : BundleZipEntry) : Prop where
  signature : readUInt32LE bytes entry.offset = 0x04034b50
  name : subarray bytes (entry.offset + 30) entry.start = entry.name
  start : entry.start = entry.offset + 30 + readUInt16LE bytes (entry.offset + 26)
  bare : readUInt16LE bytes (entry.offset + 28) = 0
  flags : readUInt16LE bytes (entry.offset + 6) = entry.flags
  method : readUInt16LE bytes (entry.offset + 8) = entry.method
  crc : readUInt32LE bytes (entry.offset + 14) = entry.crc
  compressed : readUInt32LE bytes (entry.offset + 18) = entry.compressed
  expanded : readUInt32LE bytes (entry.offset + 22) = entry.expanded
  stop : entry.stop = entry.start + entry.compressed

/-- The entries agree in everything that the directory says of them. -/
def SameListing (listed located : BundleZipEntry) : Prop :=
  located = { listed with start := located.start, stop := located.stop }

theorem allowedEntry_ok {located : BundleZipEntry}
    (accepted : allowedEntry bytes directory entry = .ok located) :
    SameListing entry located ∧ ENTRY_PATTERN located.name = true ∧ LocalRecord bytes located ∧
      located.stop ≤ directory := by
  unfold allowedEntry at accepted
  obtain ⟨-, accepted⟩ := of_assert_ok accepted
  obtain ⟨allowed, accepted⟩ := of_assert_ok accepted
  unfold localEntry at accepted
  dsimp only at accepted
  obtain ⟨⟨-, signature⟩, accepted⟩ := of_assert_ok accepted
  obtain ⟨-, accepted⟩ := of_assert_ok accepted
  obtain ⟨bare, accepted⟩ := of_assert_ok accepted
  obtain ⟨name, accepted⟩ := of_assert_ok accepted
  obtain ⟨flags, accepted⟩ := of_assert_ok accepted
  obtain ⟨method, accepted⟩ := of_assert_ok accepted
  obtain ⟨crc, accepted⟩ := of_assert_ok accepted
  obtain ⟨compressed, accepted⟩ := of_assert_ok accepted
  obtain ⟨expanded, accepted⟩ := of_assert_ok accepted
  obtain ⟨-, accepted⟩ := of_assert_ok accepted
  obtain ⟨inside, accepted⟩ := of_assert_ok accepted
  obtain rfl := Except.ok.inj accepted
  exact ⟨rfl, allowed,
    ⟨signature, name, rfl, bare, flags, method, crc, compressed, expanded, rfl⟩, inside⟩

end AutoMobile.BundleZip
