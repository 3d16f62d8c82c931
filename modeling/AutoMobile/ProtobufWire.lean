import AutoMobile.ByteRecords
import AutoMobile.DoublePrecision

/- The wire format of the emulator's audio messages: varints in double-precision arithmetic, and
length-delimited fields. -/
namespace AutoMobile.ProtobufWire

open ByteRecords DoublePrecision

section Writer

def WIRE_VARINT : Nat := 0
def WIRE_FIXED64 : Nat := 1
def WIRE_LENGTH_DELIMITED : Nat := 2
def WIRE_FIXED32 : Nat := 5

/-- `Number.MAX_SAFE_INTEGER`. -/
def MAX_SAFE_INTEGER : Nat := 2 ^ 53 - 1

/-- The loop of `encodeVarint`. -/
def varintBytes (remaining : Nat) : Bytes :=
  if 0x80 ≤ remaining then
    UInt8.ofNat (remaining % 0x80 ||| 0x80) :: varintBytes (remaining / 0x80)
  else [UInt8.ofNat remaining]
termination_by remaining

inductive Thrown where
  | rangeError (message : String)
  /-- A read past the end of the buffer, which the language would answer with `undefined`. -/
  | outside
deriving DecidableEq, Repr

def encodeVarint (value : Int) : Except Thrown Bytes :=
  if MAX_SAFE_INTEGER < value ∨ value < 0 then
    .error (.rangeError ("varint must be a non-negative safe integer, got " ++ toString value))
  else .ok (varintBytes value.toNat)

/-- A call on a writer. -/
inductive Call where
  | varint (field value : Int)
  | bytes (field : Int) (value : Bytes)
deriving DecidableEq, Repr

/-- The chunks that a call adds. -/
def write : Call → Except Thrown (List Bytes)
  | .varint field value =>
    if value ≠ 0 then do
      let key ← encodeVarint (field * 8 + WIRE_VARINT)
      let encoded ← encodeVarint value
      return [key ++ encoded]
    else return []
  | .bytes field value =>
    if 0 < value.length then do
      let key ← encodeVarint (field * 8 + WIRE_LENGTH_DELIMITED)
      let length ← encodeVarint value.length
      return [key ++ length, value]
    else return []

/-- The message of a new writer after the calls. -/
def finish : List Call → Except Thrown Bytes
  | [] => return []
  | call :: calls => do
    let chunks ← write call
    let rest ← finish calls
    return chunks.flatten ++ rest

end Writer

section Reader

inductive ProtoFieldValue where
  | varint (value : Number)
  | bytes (value : Bytes)
deriving DecidableEq, Repr

structure ProtoField where
  field : Nat
  value : ProtoFieldValue
deriving DecidableEq, Repr

/-- The loop of `readVarint`: the number, and the offset after it. -/
def readVarintLoop (bytes : Bytes) (offset : Nat) (result scale : Number) :
    Except Thrown (Number × Nat) :=
  if bytes.length ≤ offset then .error (.rangeError "truncated varint")
  else
    match _read : bytes[offset]? with
    | none => .error .outside
    | some byte =>
      let result := result.add ((Number.finite (byte.toNat &&& 0x7f)).mul scale)
      if byte.toNat < 0x80 then .ok (result, offset + 1)
      else readVarintLoop bytes (offset + 1) result (scale.mul (.finite 0x80))
termination_by bytes.length - offset

def readVarint (bytes : Bytes) (offset : Nat) : Except Thrown (Number × Nat) :=
  readVarintLoop bytes offset (.finite 0) (.finite 1)

/-- `none` where the slice would reach past the end. -/
def slice (bytes : Bytes) (start stop : Nat) : Option Bytes :=
  if stop ≤ bytes.length then some (subarray bytes start stop) else none

/-- The slice, and the offset after it. A length that is no number passes the check: the slice is
empty, and the offset after it no number either. -/
def take (bytes : Bytes) (offset : Nat) : Number → Except Thrown (Bytes × Number)
  | .finite length =>
    if bytes.length < offset + length then .error (.rangeError "truncated field")
    else
      match slice bytes offset (offset + length) with
      | none => .error .outside
      | some value => .ok (value, .finite (offset + length))
  | .infinity => .error (.rangeError "truncated field")
  | .nan => .ok ([], .nan)

/-- What `key % 8` is in a message. -/
def wireTypeText : Number → String
  | .finite key => toString (key % 8)
  | _ => "NaN"

def readValue (bytes : Bytes) (offset : Nat) (key : Number) :
    Except Thrown (Option ProtoFieldValue × Number) :=
  let unsupported := Thrown.rangeError ("unsupported wire type " ++ wireTypeText key)
  match key with
  | .finite key =>
    if key % 8 = WIRE_VARINT then do
      let (value, next) ← readVarint bytes offset
      return (some (.varint value), .finite next)
    else if key % 8 = WIRE_LENGTH_DELIMITED then do
      let (length, start) ← readVarint bytes offset
      let (value, next) ← take bytes start length
      return (some (.bytes value), next)
    else if key % 8 = WIRE_FIXED64 then do
      let (_, next) ← take bytes offset (.finite 8)
      return (none, next)
    else if key % 8 = WIRE_FIXED32 then do
      let (_, next) ← take bytes offset (.finite 4)
      return (none, next)
    else .error unsupported
  | _ => .error unsupported

variable {bytes : Bytes} {offset next start : Nat} {number key : Number}

/-- What comes out of two steps came out of the first and then of the second. -/
theorem ok_of_bind {first second : Type} {step : Except Thrown first}
    {later : first → Except Thrown second} {result : second}
    (done : (step >>= later) = .ok result) : ∃ middle, step = .ok middle ∧ later middle = .ok result := by
  cases step with
  | error thrown => cases done
  | ok middle => exact ⟨middle, rfl, done⟩

theorem readVarintLoop_offset {result scale : Number}
    (done : readVarintLoop bytes offset result scale = .ok (number, next)) :
    offset < next ∧ next ≤ bytes.length := by
  fun_induction readVarintLoop bytes offset result scale with
  | case1 => cases done
  | case2 => cases done
  | case3 offset _ _ inside _ _ _ _ =>
    have same := congrArg Prod.snd (Except.ok.inj done)
    dsimp only at same
    omega
  | case4 offset _ _ inside _ _ _ _ ih =>
    have later := ih done
    omega

theorem readVarint_offset (done : readVarint bytes offset = .ok (number, next)) :
    offset < next ∧ next ≤ bytes.length :=
  readVarintLoop_offset done

theorem take_offset {length : Number} {value : Bytes}
    (done : take bytes offset length = .ok (value, .finite next)) :
    offset ≤ next ∧ next ≤ bytes.length := by
  unfold take at done
  split at done
  next =>
    split at done
    next => cases done
    next within =>
      split at done
      next => cases done
      next =>
        cases done
        omega
  next => cases done
  next => cases done

theorem readValue_offset {value : Option ProtoFieldValue}
    (done : readValue bytes offset key = .ok (value, .finite next)) :
    offset ≤ next ∧ next ≤ bytes.length := by
  unfold readValue at done
  dsimp only at done
  split at done
  next =>
    split at done
    next =>
      obtain ⟨_, read, same⟩ := ok_of_bind done
      cases same
      have moved := readVarint_offset read
      omega
    split at done
    next =>
      obtain ⟨_, read, rest⟩ := ok_of_bind done
      obtain ⟨⟨_, after⟩, taken, same⟩ := ok_of_bind rest
      cases same
      have moved := readVarint_offset read
      have later := take_offset taken
      omega
    split at done
    next =>
      obtain ⟨⟨_, after⟩, taken, same⟩ := ok_of_bind done
      cases same
      exact take_offset taken
    split at done
    next =>
      obtain ⟨⟨_, after⟩, taken, same⟩ := ok_of_bind done
      cases same
      exact take_offset taken
    next => cases done
  next => cases done

/-- `Math.floor(key / 8)` of a key that has a wire type. -/
def fieldNumber : Number → Nat
  | .finite key => key / 8
  | _ => 0

/-- The loop of `decodeFields`, and the offset at which it ends. -/
def decodeLoop (bytes : Bytes) (offset : Nat) : Except Thrown (List ProtoField × Number) :=
  if _more : offset < bytes.length then
    match _key : readVarint bytes offset with
    | .error thrown => .error thrown
    | .ok (key, start) =>
      match _value : readValue bytes start key with
      | .error thrown => .error thrown
      | .ok (value, next) =>
        let fields := value.toList.map fun value => { field := fieldNumber key, value }
        match next with
        | .finite next => do
          let later ← decodeLoop bytes next
          return (fields ++ later.1, later.2)
        | ended => .ok (fields, ended)
  else .ok ([], .finite offset)
termination_by bytes.length - offset
decreasing_by
  have moved := readVarint_offset _key
  have later := readValue_offset _value
  omega

def decodeFields (bytes : Bytes) : Except Thrown (List ProtoField) :=
  (decodeLoop bytes 0).map Prod.fst

end Reader

end AutoMobile.ProtobufWire
