import AutoMobile.ByteRecords
import AutoMobile.InsertionMap
import Mathlib

/- `bundleZipWriter`, `bundleZipDirectory` and `bundleZipReader`: a prototype bundle as a ZIP
archive, written in one canonical form and read with every field checked. -/
namespace AutoMobile.BundleZip

open ByteRecords InsertionMap

/-- The name of an entry, as the bytes that store it. -/
abbrev Name := Bytes

def ascii (text : String) : Bytes := text.toList.map fun char => UInt8.ofNat char.toNat

section Contract

def MAX_PROTOTYPE_ASSET_BYTES : Nat := 4194304
def MAX_PROTOTYPE_FONT_ASSET_BYTES : Nat := 2097152
def MAX_PROTOTYPE_ASSET_TOTAL_BYTES : Nat := 16777216
def BUNDLE_MAX_ENTRIES : Nat := 36
def BUNDLE_MAX_SPEC_BYTES : Nat := 1048576
def BUNDLE_MAX_MANIFEST_BYTES : Nat := 65536
def BUNDLE_MAX_EXPANDED_BYTES : Nat :=
  MAX_PROTOTYPE_ASSET_TOTAL_BYTES + BUNDLE_MAX_SPEC_BYTES + BUNDLE_MAX_MANIFEST_BYTES
def BUNDLE_MAX_COMPRESSED_BYTES : Nat := BUNDLE_MAX_EXPANDED_BYTES
def BUNDLE_MAX_RATIO : Nat := 100

inductive BundleErrorCode where
  | not_a_zip
  | entry_name_forbidden
  | entry_not_allowed
  | duplicate_entry
  | link_entry
  | encrypted_entry
  | method_unsupported
  | multi_disk
  | zip64_unsupported
  | extra_field_forbidden
  | header_mismatch
  | trailing_bytes
  | too_many_entries
  | entry_too_large
  | archive_too_large
  | expanded_too_large
  | ratio_exceeded
  | size_mismatch
  | crc_mismatch
  | custom_shaders_unsupported
deriving DecidableEq, Repr

structure BundleFailure where
  code : BundleErrorCode
  path : Option Name
deriving DecidableEq, Repr

def bundleAssert (condition : Prop) [Decidable condition] (code : BundleErrorCode)
    (path : Option Name) : Except BundleFailure Unit :=
  if condition then .ok () else .error ⟨code, path⟩

end Contract

section Checksum

/-- One bit of the division by the reflected polynomial. -/
def crcShift (register : UInt32) : UInt32 :=
  if register &&& 1 = 1 then (register >>> 1) ^^^ 0xEDB88320 else register >>> 1

def crcByte (register : UInt32) (byte : UInt8) : UInt32 :=
  Nat.repeat crcShift 8 (register ^^^ byte.toUInt32)

/-- `zlib.crc32`. -/
def crc32 (bytes : Bytes) : Nat := (bytes.foldl crcByte 0xFFFFFFFF ^^^ 0xFFFFFFFF).toNat

example : crc32 (ascii "123456789") = 0xCBF43926 := by decide +kernel

end Checksum

section Writer

def localHeader (name bytes : Bytes) : Bytes :=
  let header := alloc 30
  let header := writeUInt32LE header 0x04034b50 0
  let header := writeUInt16LE header 20 4
  let header := writeUInt16LE header 0x21 12
  let header := writeUInt32LE header (crc32 bytes) 14
  let header := writeUInt32LE header bytes.length 18
  let header := writeUInt32LE header bytes.length 22
  writeUInt16LE header name.length 26

def centralHeader (name bytes : Bytes) (offset : Nat) : Bytes :=
  let header := alloc 46
  let header := writeUInt32LE header 0x02014b50 0
  let header := writeUInt16LE header 20 4
  let header := writeUInt16LE header 20 6
  let header := writeUInt16LE header 0x21 14
  let header := writeUInt32LE header (crc32 bytes) 16
  let header := writeUInt32LE header bytes.length 20
  let header := writeUInt32LE header bytes.length 24
  let header := writeUInt16LE header name.length 28
  writeUInt32LE header offset 42

def endRecord (size centralLength offset : Nat) : Bytes :=
  let record := alloc 22
  let record := writeUInt32LE record 0x06054b50 0
  let record := writeUInt16LE record size 8
  let record := writeUInt16LE record size 10
  let record := writeUInt32LE record centralLength 12
  writeUInt32LE record offset 16

structure Layout where
  locals : List Bytes := []
  directory : List Bytes := []
  offset : Nat := 0

/-- A number that is too large for its field is a range error: there is no archive. -/
def writeEntry (layout : Layout) (entry : Name × Bytes) : Option Layout :=
  let name := entry.1
  let bytes := entry.2
  if name.length < 0x10000 ∧ bytes.length < 0x100000000 ∧ layout.offset < 0x100000000 then
    some {
      locals := layout.locals ++ [localHeader name bytes, name, bytes]
      directory := layout.directory ++ [centralHeader name bytes layout.offset, name]
      offset := layout.offset + ((localHeader name bytes).length + name.length + bytes.length) }
  else none

def writeCanonicalBundleZip (entries : InsertionMap Name Bytes) : Option Bytes := do
  let layout ← entries.foldlM writeEntry {}
  let central := layout.directory.flatten
  if entries.length < 0x10000 ∧ central.length < 0x100000000 ∧ layout.offset < 0x100000000 then
    some (layout.locals.flatten ++ (central ++
      endRecord entries.length central.length layout.offset))
  else none

end Writer

section Directory

structure BundleZipEntry where
  name : Name
  method : Nat
  flags : Nat
  crc : Nat
  compressed : Nat
  expanded : Nat
  offset : Nat
  start : Nat
  stop : Nat
deriving DecidableEq, Repr

def bundleEntryCap (name : Name) : Nat :=
  if name = ascii "spec.json" then BUNDLE_MAX_SPEC_BYTES
  else if name = ascii "bundle.json" then BUNDLE_MAX_MANIFEST_BYTES
  else if ascii "fonts/" <+: name then MAX_PROTOTYPE_FONT_ASSET_BYTES
  else MAX_PROTOTYPE_ASSET_BYTES

/-- `[0-9a-f]`. -/
def hexDigit (byte : UInt8) : Bool := (0x30 ≤ byte && byte ≤ 0x39) || (0x61 ≤ byte && byte ≤ 0x66)

/-- A directory, 64 digits and one of the extensions. -/
def addressedName (folder : String) (extensions : List String) (name : Name) : Bool :=
  let digits := (name.drop (ascii folder).length).take 64
  (ascii folder).isPrefixOf name && digits.length == 64 && digits.all hexDigit &&
    extensions.any fun extension => name.drop ((ascii folder).length + 64) == ascii extension

def ENTRY_PATTERN (name : Name) : Bool :=
  name == ascii "bundle.json" || name == ascii "spec.json" ||
    addressedName "assets/" [".png", ".jpg", ".webp"] name ||
    addressedName "fonts/" [".ttf", ".otf"] name

def toLowerCase (name : Name) : Name :=
  name.map fun byte => if 0x41 ≤ byte ∧ byte ≤ 0x5a then byte + 0x20 else byte

def safeName (raw : Bytes) : Except BundleFailure Name := do
  bundleAssert ((∀ byte ∈ raw, ¬ (byte = 0 ∨ 127 < byte)) ∧ 0x5c ∉ raw)
    .entry_name_forbidden (some raw)
  bundleAssert (¬ ascii "/" <+: raw ∧ ascii ".." ∉ raw.splitOn 0x2f ∧ ¬ ascii "__MACOSX" <:+: raw)
    .entry_name_forbidden (some raw)
  bundleAssert (¬ ascii "/" <:+ raw) .entry_name_forbidden (some raw)
  return raw

/-- Where the last 65,557 bytes hold the signature of an end record. -/
def endPositions (bytes : Bytes) : List Nat :=
  let first := bytes.length - 65557
  (List.range' first (bytes.length - 3 - first)).filter fun i => readUInt32LE bytes i == 0x06054b50

def endOfDirectory (bytes : Bytes) : Except BundleFailure Nat := do
  let positions := endPositions bytes
  bundleAssert (positions.length = 1) .not_a_zip none
  let stop := positions.headD 0
  bundleAssert (stop + 22 ≤ bytes.length) .not_a_zip none
  bundleAssert (stop < 20 ∨ readUInt32LE bytes (stop - 20) ≠ 0x07064b50) .zip64_unsupported none
  let comment := readUInt16LE bytes (stop + 20)
  bundleAssert (stop + 22 + comment = bytes.length) .trailing_bytes none
  bundleAssert (comment = 0) .extra_field_forbidden none
  bundleAssert (readUInt16LE bytes (stop + 4) = 0 ∧ readUInt16LE bytes (stop + 6) = 0)
    .multi_disk none
  bundleAssert (readUInt16LE bytes (stop + 8) = readUInt16LE bytes (stop + 10)) .multi_disk none
  bundleAssert (readUInt16LE bytes (stop + 10) ≠ 0xffff ∧
    readUInt32LE bytes (stop + 12) ≠ 0xffffffff ∧ readUInt32LE bytes (stop + 16) ≠ 0xffffffff)
    .zip64_unsupported none
  bundleAssert (readUInt16LE bytes (stop + 10) ≤ BUNDLE_MAX_ENTRIES) .too_many_entries none
  return stop

def entryAttributes (bytes : Bytes) (position : Nat) (entry : BundleZipEntry) :
    Except BundleFailure Unit := do
  let path := some entry.name
  let type := (readUInt32LE bytes (position + 38) >>> 16) &&& 0xf000
  bundleAssert (type = 0 ∨ type = 0x8000) .link_entry path
  bundleAssert (readUInt32LE bytes (position + 38) &&& 0x10 = 0) .link_entry path
  bundleAssert (entry.flags &&& 0x41 = 0) .encrypted_entry path
  bundleAssert (entry.method = 0 ∨ entry.method = 8) .method_unsupported path
  bundleAssert (readUInt16LE bytes (position + 34) = 0) .multi_disk path
  bundleAssert (entry.compressed ≠ 0xffffffff ∧ entry.expanded ≠ 0xffffffff ∧
    entry.offset ≠ 0xffffffff ∧ readUInt16LE bytes (position + 6) < 45) .zip64_unsupported path
  bundleAssert (readUInt16LE bytes (position + 30) = 0 ∧ readUInt16LE bytes (position + 32) = 0)
    .extra_field_forbidden path
  -- The flags are 16 bits: what is left of the complement of 0x0806.
  bundleAssert (entry.flags &&& 0xf7f9 = 0) .header_mismatch path

/-- An entry of the directory, and where the next one starts. -/
def centralEntry (bytes : Bytes) (position stop : Nat) :
    Except BundleFailure (BundleZipEntry × Nat) := do
  bundleAssert (position + 46 ≤ stop ∧ readUInt32LE bytes position = 0x02014b50)
    .header_mismatch none
  let next := position + 46 + readUInt16LE bytes (position + 28) +
    readUInt16LE bytes (position + 30) + readUInt16LE bytes (position + 32)
  bundleAssert (next ≤ stop) .header_mismatch none
  let name ← safeName
    (subarray bytes (position + 46) (position + 46 + readUInt16LE bytes (position + 28)))
  let entry : BundleZipEntry := {
    name := name
    flags := readUInt16LE bytes (position + 8)
    method := readUInt16LE bytes (position + 10)
    crc := readUInt32LE bytes (position + 16)
    compressed := readUInt32LE bytes (position + 20)
    expanded := readUInt32LE bytes (position + 24)
    offset := readUInt32LE bytes (position + 42)
    start := 0
    stop := 0 }
  entryAttributes bytes position entry
  return (entry, next)

/-- The entry with the place of its data. -/
def localEntry (bytes : Bytes) (entry : BundleZipEntry) (directory : Nat) :
    Except BundleFailure BundleZipEntry := do
  let position := entry.offset
  let path := some entry.name
  bundleAssert (position + 30 ≤ directory ∧ readUInt32LE bytes position = 0x04034b50)
    .header_mismatch path
  let nameEnd := position + 30 + readUInt16LE bytes (position + 26)
  bundleAssert (nameEnd ≤ directory) .header_mismatch path
  bundleAssert (readUInt16LE bytes (position + 28) = 0) .extra_field_forbidden path
  bundleAssert (subarray bytes (position + 30) nameEnd = entry.name) .header_mismatch path
  bundleAssert (readUInt16LE bytes (position + 6) = entry.flags) .header_mismatch path
  bundleAssert (readUInt16LE bytes (position + 8) = entry.method) .header_mismatch path
  bundleAssert (readUInt32LE bytes (position + 14) = entry.crc) .header_mismatch path
  bundleAssert (readUInt32LE bytes (position + 18) = entry.compressed) .header_mismatch path
  bundleAssert (readUInt32LE bytes (position + 22) = entry.expanded) .header_mismatch path
  bundleAssert (readUInt16LE bytes (position + 4) < 45) .zip64_unsupported path
  bundleAssert (nameEnd + entry.compressed ≤ directory) .header_mismatch path
  return { entry with start := nameEnd, stop := nameEnd + entry.compressed }

/-- The entries of the directory, with the names seen so far; and where the directory ends. -/
def centralEntries (bytes : Bytes) (stop : Nat) :
    Nat → Nat → List Name → Except BundleFailure (List BundleZipEntry × Nat)
  | 0, position, _ => return ([], position)
  | count + 1, position, names => do
    let parsed ← centralEntry bytes position stop
    let lower := toLowerCase parsed.1.name
    bundleAssert (lower ∉ names) .duplicate_entry (some parsed.1.name)
    let later ← centralEntries bytes stop count parsed.2 (lower :: names)
    return (parsed.1 :: later.1, later.2)

/-- An entry whose name is allowed and whose two headers agree. -/
def allowedEntry (bytes : Bytes) (directory : Nat) (entry : BundleZipEntry) :
    Except BundleFailure BundleZipEntry := do
  bundleAssert (¬ ascii ".agsl" <:+ entry.name) .custom_shaders_unsupported (some entry.name)
  bundleAssert (ENTRY_PATTERN entry.name = true) .entry_not_allowed (some entry.name)
  localEntry bytes entry directory

/-- Each entry starts where the one before it ends. -/
def tileEntries : Nat → List BundleZipEntry → Except BundleFailure Nat
  | previousEnd, [] => return previousEnd
  | previousEnd, entry :: rest => do
    bundleAssert (entry.offset = previousEnd) .header_mismatch (some entry.name)
    tileEntries entry.stop rest

def readBundleZipDirectory (bytes : Bytes) : Except BundleFailure (List BundleZipEntry) := do
  let stop ← endOfDirectory bytes
  let directory := readUInt32LE bytes (stop + 16)
  bundleAssert (directory + readUInt32LE bytes (stop + 12) = stop) .header_mismatch none
  let listed ← centralEntries bytes stop (readUInt16LE bytes (stop + 10)) directory []
  bundleAssert (listed.2 = stop) .header_mismatch none
  let entries ← listed.1.mapM (allowedEntry bytes directory)
  let previousEnd ← tileEntries 0 (entries.mergeSort fun a b => decide (a.offset ≤ b.offset))
  bundleAssert (previousEnd = directory) .header_mismatch none
  return entries

end Directory

section Reader

/-- What inflating gives: the bytes with the number of bytes it consumed, or how it failed. -/
inductive Inflation where
  | output (buffer : Bytes) (bytesWritten : Nat)
  | bufferTooLarge
  | failed
deriving DecidableEq, Repr

structure OutputBudget where
  limit : Int
  code : BundleErrorCode
deriving DecidableEq, Repr

def outputBudget (entry : BundleZipEntry) (remaining ratioRemaining : Int) : OutputBudget :=
  let smaller (a b : OutputBudget) := if b.limit < a.limit then b else a
  smaller (smaller ⟨bundleEntryCap entry.name, .entry_too_large⟩ ⟨remaining, .expanded_too_large⟩)
    ⟨ratioRemaining, .ratio_exceeded⟩

variable (inflateRawSync : Bytes → Int → Inflation)

def inflate (bytes : Bytes) (entry : BundleZipEntry) (budget : OutputBudget) :
    Except BundleFailure Bytes :=
  let compressed := subarray bytes entry.start entry.stop
  if entry.method = 0 then do
    bundleAssert ((compressed.length : Int) ≤ budget.limit) budget.code (some entry.name)
    return compressed
  else
    match inflateRawSync compressed (budget.limit + 1) with
    | .output buffer bytesWritten => do
      bundleAssert (bytesWritten = compressed.length) .size_mismatch (some entry.name)
      bundleAssert ((buffer.length : Int) ≤ budget.limit) budget.code (some entry.name)
      return buffer
    | .bufferTooLarge => .error ⟨budget.code, some entry.name⟩
    | .failed => .error ⟨.size_mismatch, some entry.name⟩

/-- The contents of the entries; so much has been expanded, and so much is known, already. -/
def readEntries (bytes : Bytes) (compressedTotal : Nat) :
    Nat → InsertionMap Name Bytes → List BundleZipEntry →
      Except BundleFailure (InsertionMap Name Bytes)
  | _, result, [] => return result
  | expanded, result, entry :: rest => do
    bundleAssert (entry.expanded ≤ bundleEntryCap entry.name) .entry_too_large (some entry.name)
    let budget := outputBudget entry (BUNDLE_MAX_EXPANDED_BYTES - expanded)
      (compressedTotal * BUNDLE_MAX_RATIO - expanded)
    let output ← inflate inflateRawSync bytes entry budget
    bundleAssert (output.length = entry.expanded) .size_mismatch (some entry.name)
    bundleAssert (crc32 output = entry.crc) .crc_mismatch (some entry.name)
    readEntries bytes compressedTotal (expanded + output.length) (put result entry.name output)
      rest

def readBundleZip (bytes : Bytes) : Except BundleFailure (InsertionMap Name Bytes) := do
  bundleAssert (bytes.length ≤ BUNDLE_MAX_COMPRESSED_BYTES) .archive_too_large none
  let entries ← readBundleZipDirectory bytes
  let compressedTotal := (entries.map BundleZipEntry.compressed).sum
  readEntries inflateRawSync bytes compressedTotal 0 [] entries

end Reader

end AutoMobile.BundleZip
