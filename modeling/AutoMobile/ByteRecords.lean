import Mathlib.Algebra.Group.Nat.Units
import Mathlib.Data.List.Basic

/- Little-endian numbers in byte buffers: what a read sees of a record, wherever the record lies
in a larger buffer. -/
namespace ByteRecords

open List

abbrev Bytes := List UInt8

def byteAt (bytes : Bytes) (position : Nat) : Nat := (bytes.getD position 0).toNat

def readUInt16LE (bytes : Bytes) (position : Nat) : Nat :=
  byteAt bytes position + 256 * byteAt bytes (position + 1)

def readUInt32LE (bytes : Bytes) (position : Nat) : Nat :=
  byteAt bytes position + 256 * byteAt bytes (position + 1) +
    65536 * byteAt bytes (position + 2) + 16777216 * byteAt bytes (position + 3)

def uint16LE (value : Nat) : Bytes := [UInt8.ofNat value, UInt8.ofNat (value / 256)]

def uint32LE (value : Nat) : Bytes :=
  [UInt8.ofNat value, UInt8.ofNat (value / 256), UInt8.ofNat (value / 65536),
    UInt8.ofNat (value / 16777216)]

/-- A new buffer holds zeros. -/
def alloc (size : Nat) : Bytes := List.replicate size 0

/-- The buffer with the field in the place of as many of its bytes. -/
def overwrite (buffer field : Bytes) (position : Nat) : Bytes :=
  buffer.mapIdx fun index byte =>
    if position ≤ index then field.getD (index - position) byte else byte

def writeUInt16LE (buffer : Bytes) (value position : Nat) : Bytes :=
  overwrite buffer (uint16LE value) position

def writeUInt32LE (buffer : Bytes) (value position : Nat) : Bytes :=
  overwrite buffer (uint32LE value) position

/-- The bytes from one position up to another. -/
def subarray (bytes : Bytes) (start stop : Nat) : Bytes := (bytes.drop start).take (stop - start)

section Fields

variable (buffer field : Bytes) {value position index : Nat}

@[simp] theorem uint16LE_length (value : Nat) : (uint16LE value).length = 2 := rfl

@[simp] theorem uint32LE_length (value : Nat) : (uint32LE value).length = 4 := rfl

@[simp] theorem overwrite_length (position : Nat) :
    (overwrite buffer field position).length = buffer.length := by
  rw [overwrite, length_mapIdx]

/-- The two bytes of a number that fits give it back. -/
theorem readUInt16LE_uint16LE (fits : value < 65536) : readUInt16LE (uint16LE value) 0 = value := by
  have bytes : readUInt16LE (uint16LE value) 0 =
      (UInt8.ofNat value).toNat + 256 * (UInt8.ofNat (value / 256)).toNat := rfl
  rw [bytes, UInt8.toNat_ofNat', UInt8.toNat_ofNat']
  omega

theorem readUInt32LE_uint32LE (fits : value < 4294967296) :
    readUInt32LE (uint32LE value) 0 = value := by
  have bytes : readUInt32LE (uint32LE value) 0 =
      (UInt8.ofNat value).toNat + 256 * (UInt8.ofNat (value / 256)).toNat +
        65536 * (UInt8.ofNat (value / 65536)).toNat +
        16777216 * (UInt8.ofNat (value / 16777216)).toNat := rfl
  rw [bytes, UInt8.toNat_ofNat', UInt8.toNat_ofNat', UInt8.toNat_ofNat', UInt8.toNat_ofNat']
  omega

theorem byteAt_overwrite_apart (apart : index < position ∨ position + field.length ≤ index) :
    byteAt (overwrite buffer field position) index = byteAt buffer index := by
  have same : (overwrite buffer field position)[index]? = buffer[index]? := by
    rw [overwrite, getElem?_mapIdx]
    cases buffer[index]? with
    | none => rfl
    | some byte =>
      by_cases later : position ≤ index
      · have beyond : field[index - position]? = none := getElem?_eq_none (by omega)
        simp [later, getD_eq_getElem?_getD, beyond]
      · simp [later]
  simp only [byteAt, getD_eq_getElem?_getD, same]

theorem byteAt_overwrite_inside (inside : index < field.length)
    (room : position + field.length ≤ buffer.length) :
    byteAt (overwrite buffer field position) (position + index) = byteAt field index := by
  have known : position + index < buffer.length := by omega
  have same : (overwrite buffer field position)[position + index]? = field[index]? := by
    rw [overwrite, getElem?_mapIdx, getElem?_eq_getElem known, getElem?_eq_getElem inside]
    simp [getD_eq_getElem?_getD, getElem?_eq_getElem inside]
  simp only [byteAt, getD_eq_getElem?_getD, same]

@[simp] theorem readUInt16LE_overwrite_apart
    (apart : index + 2 ≤ position ∨ position + field.length ≤ index) :
    readUInt16LE (overwrite buffer field position) index = readUInt16LE buffer index := by
  unfold readUInt16LE
  rw [byteAt_overwrite_apart buffer field (by omega),
    byteAt_overwrite_apart buffer field (by omega)]

@[simp] theorem readUInt32LE_overwrite_apart
    (apart : index + 4 ≤ position ∨ position + field.length ≤ index) :
    readUInt32LE (overwrite buffer field position) index = readUInt32LE buffer index := by
  unfold readUInt32LE
  rw [byteAt_overwrite_apart buffer field (by omega),
    byteAt_overwrite_apart buffer field (by omega),
    byteAt_overwrite_apart buffer field (by omega),
    byteAt_overwrite_apart buffer field (by omega)]

@[simp] theorem readUInt16LE_overwrite (fits : value < 65536)
    (room : position + 2 ≤ buffer.length) :
    readUInt16LE (overwrite buffer (uint16LE value) position) position = value := by
  have two : position + (uint16LE value).length ≤ buffer.length := room
  have low := byteAt_overwrite_inside buffer (uint16LE value) Nat.zero_lt_two two
  have high := byteAt_overwrite_inside buffer (uint16LE value) Nat.one_lt_two two
  rw [Nat.add_zero] at low
  rw [readUInt16LE, low, high]
  exact readUInt16LE_uint16LE fits

@[simp] theorem readUInt32LE_overwrite (fits : value < 4294967296)
    (room : position + 4 ≤ buffer.length) :
    readUInt32LE (overwrite buffer (uint32LE value) position) position = value := by
  have four : position + (uint32LE value).length ≤ buffer.length := room
  have bytes : ∀ index < 4, byteAt (overwrite buffer (uint32LE value) position)
      (position + index) = byteAt (uint32LE value) index := fun index inside =>
    byteAt_overwrite_inside buffer (uint32LE value) inside four
  have first := bytes 0 (by decide)
  rw [Nat.add_zero] at first
  rw [readUInt32LE, first, bytes 1 (by decide), bytes 2 (by decide), bytes 3 (by decide)]
  exact readUInt32LE_uint32LE fits

/-- A slice after the field is left as it was. -/
theorem subarray_overwrite_apart {start : Nat} (stop : Nat)
    (apart : position + field.length ≤ start) :
    subarray (overwrite buffer field position) start stop = subarray buffer start stop := by
  have same : (overwrite buffer field position).drop start = buffer.drop start := by
    apply ext_getElem?
    intro index
    rw [getElem?_drop, getElem?_drop, overwrite, getElem?_mapIdx]
    cases buffer[start + index]? with
    | none => rfl
    | some byte =>
      have beyond : field[start + index - position]? = none := getElem?_eq_none (by omega)
      simp [getD_eq_getElem?_getD, beyond]
  rw [subarray, subarray, same]

@[simp] theorem alloc_length (size : Nat) : (alloc size).length = size := length_replicate

@[simp] theorem byteAt_alloc (size index : Nat) : byteAt (alloc size) index = 0 := by
  have zero : (List.replicate size (0 : UInt8)).getD index 0 = 0 := by
    rw [getD_eq_getElem?_getD, getElem?_replicate]
    split <;> rfl
  rw [byteAt, alloc, zero]
  rfl

@[simp] theorem readUInt16LE_alloc (size index : Nat) : readUInt16LE (alloc size) index = 0 := by
  simp [readUInt16LE]

@[simp] theorem readUInt32LE_alloc (size index : Nat) : readUInt32LE (alloc size) index = 0 := by
  simp [readUInt32LE]

end Fields

/-- The record lies in the bytes at the position. -/
def Placed (bytes record : Bytes) (position : Nat) : Prop := record <+: bytes.drop position

variable {bytes record first second : Bytes} {position : Nat}

theorem placed_append (before after : Bytes) :
    Placed (before ++ (record ++ after)) record before.length := by
  rw [Placed, drop_left]
  exact prefix_append _ _

theorem placed_start (record after : Bytes) : Placed (record ++ after) record 0 := prefix_append _ _

theorem Placed.left (placed : Placed bytes (first ++ second) position) :
    Placed bytes first position :=
  (prefix_append first second).trans placed

theorem Placed.right (placed : Placed bytes (first ++ second) position) :
    Placed bytes second (position + first.length) := by
  obtain ⟨after, whole⟩ := placed
  refine ⟨after, ?_⟩
  rw [← drop_drop, ← whole, append_assoc, drop_left]

theorem Placed.byteAt (placed : Placed bytes record position) {offset : Nat}
    (inside : offset < record.length) :
    byteAt bytes (position + offset) = ByteRecords.byteAt record offset := by
  obtain ⟨after, whole⟩ := placed
  have same : bytes[position + offset]? = record[offset]? := by
    rw [← getElem?_drop, ← whole, getElem?_append_left inside]
  simp only [ByteRecords.byteAt, getD_eq_getElem?_getD, same]

/-- A read inside the record sees the record. -/
theorem Placed.readUInt16LE (placed : Placed bytes record position) {offset : Nat}
    (inside : offset + 2 ≤ record.length) :
    readUInt16LE bytes (position + offset) = ByteRecords.readUInt16LE record offset := by
  unfold ByteRecords.readUInt16LE
  rw [placed.byteAt (by omega), Nat.add_assoc position, placed.byteAt (by omega)]

theorem Placed.readUInt32LE (placed : Placed bytes record position) {offset : Nat}
    (inside : offset + 4 ≤ record.length) :
    readUInt32LE bytes (position + offset) = ByteRecords.readUInt32LE record offset := by
  unfold ByteRecords.readUInt32LE
  rw [placed.byteAt (by omega), Nat.add_assoc position, Nat.add_assoc position,
    Nat.add_assoc position, placed.byteAt (by omega), placed.byteAt (by omega),
    placed.byteAt (by omega)]

theorem Placed.readUInt32LE_start (placed : Placed bytes record position)
    (inside : 4 ≤ record.length) :
    ByteRecords.readUInt32LE bytes position = ByteRecords.readUInt32LE record 0 := by
  have within : 0 + 4 ≤ record.length := by omega
  exact placed.readUInt32LE within

theorem Placed.subarray (placed : Placed bytes record position) :
    subarray bytes position (position + record.length) = record := by
  obtain ⟨after, whole⟩ := placed
  rw [ByteRecords.subarray, ← whole, Nat.add_sub_cancel_left, take_left]

section BigEndian

/-- The last bytes of a number, the highest first. -/
def writeBE : Nat → Nat → Bytes
  | 0, _ => []
  | width + 1, value => writeBE width (value / 256) ++ [UInt8.ofNat value]

def readBE (bytes : Bytes) : Nat := bytes.foldl (fun value byte => value * 256 + byte.toNat) 0

@[simp] theorem writeBE_length (width value : Nat) : (writeBE width value).length = width := by
  induction width generalizing value with
  | zero => rfl
  | succ width ih => rw [writeBE, length_append, ih, length_singleton]

theorem readBE_append (bytes : Bytes) (last : UInt8) :
    readBE (bytes ++ [last]) = readBE bytes * 256 + last.toNat := by
  rw [readBE, foldl_append]
  rfl

/-- The bytes of a number give back as much of it as they hold. -/
theorem readBE_writeBE (width value : Nat) : readBE (writeBE width value) = value % 256 ^ width := by
  induction width generalizing value with
  | zero =>
    rw [Nat.pow_zero, Nat.mod_one]
    rfl
  | succ width ih =>
    have power : 256 ^ (width + 1) = 256 * 256 ^ width := Nat.pow_succ'
    rw [writeBE, readBE_append, ih, UInt8.toNat_ofNat', power, Nat.mod_mul]
    omega

end BigEndian

end ByteRecords
