import AutoMobile.ProtobufWire

/- What decoding sees of a message's bytes: varints, then fields, then a whole message. -/
namespace AutoMobile.ProtobufWire

open ByteRecords DoublePrecision List

section Varints

/-- The bytes of one varint: all but the last have the high bit. -/
inductive Varint : Bytes → Prop
  | last {byte : UInt8} (low : byte.toNat < 128) : Varint [byte]
  | more {byte : UInt8} {rest : Bytes} (high : 128 ≤ byte.toNat) (varint : Varint rest) :
      Varint (byte :: rest)

/-- The sum so far and the scale of the next byte. -/
def varintStep (state : Number × Number) (byte : UInt8) : Number × Number :=
  (state.1.add ((Number.finite (byte.toNat % 128)).mul state.2), state.2.mul (.finite 128))

/-- The sum of a varint's groups of seven bits, in double-precision arithmetic. -/
def varintValue (varint : Bytes) : Number := (varint.foldl varintStep (.finite 0, .finite 1)).1

variable {bytes varint rest : Bytes} {offset next : Nat} {number result scale : Number}

theorem Varint.length_pos (proper : Varint varint) : 0 < varint.length := by
  cases proper <;> exact Nat.succ_pos _

/-- What a drop begins with is there to be read. -/
theorem getElem?_of_drop {byte : UInt8} (here : bytes.drop offset = byte :: rest) :
    offset < bytes.length ∧ bytes[offset]? = some byte ∧ bytes.drop (offset + 1) = rest := by
  have within : offset < bytes.length := by
    apply Nat.lt_of_not_le
    intro past
    rw [drop_eq_nil_of_le past] at here
    cases here
  have first : bytes[offset]? = some byte := by
    rw [← head?_drop, here]
    rfl
  refine ⟨within, first, ?_⟩
  rw [← drop_drop, here]
  rfl

theorem readVarintLoop_cons {byte : UInt8} (here : bytes.drop offset = byte :: rest)
    (result scale : Number) :
    readVarintLoop bytes offset result scale =
      if byte.toNat < 128 then .ok ((varintStep (result, scale) byte).1, offset + 1)
      else readVarintLoop bytes (offset + 1) (varintStep (result, scale) byte).1
        (varintStep (result, scale) byte).2 := by
  obtain ⟨within, first, -⟩ := getElem?_of_drop here
  have low : byte.toNat &&& 0x7f = byte.toNat % 128 := Nat.and_two_pow_sub_one_eq_mod _ 7
  rw [readVarintLoop, if_neg (Nat.not_le.mpr within)]
  split
  next missing =>
    rw [first] at missing
    cases missing
  next same =>
    rw [first] at same
    cases same
    rw [low]
    rfl

/-- The loop over a varint's bytes sums its groups. -/
theorem readVarintLoop_varint (proper : Varint varint) (here : bytes.drop offset = varint ++ rest) :
    readVarintLoop bytes offset result scale =
      .ok ((varint.foldl varintStep (result, scale)).1, offset + varint.length) := by
  induction proper generalizing offset result scale with
  | last low =>
    rw [readVarintLoop_cons here, if_pos low]
    rfl
  | @more byte later high _ ih =>
    rw [readVarintLoop_cons here, if_neg (Nat.not_lt.mpr high),
      ih (getElem?_of_drop here).2.2, length_cons]
    congr 2
    omega

theorem readVarint_varint (proper : Varint varint) (here : bytes.drop offset = varint ++ rest) :
    readVarint bytes offset = .ok (varintValue varint, offset + varint.length) :=
  readVarintLoop_varint proper here

/-- What the loop reads are a varint's bytes. -/
theorem varint_of_readVarintLoop
    (done : readVarintLoop bytes offset result scale = .ok (number, next)) :
    ∃ varint, Varint varint ∧ bytes.drop offset = varint ++ bytes.drop next ∧
      number = (varint.foldl varintStep (result, scale)).1 ∧ next = offset + varint.length := by
  induction remaining : bytes.length - offset using Nat.strongRecOn
    generalizing offset result scale with
  | _ bound ih =>
    cases here : bytes.drop offset with
    | nil =>
      rw [readVarintLoop, if_pos (drop_eq_nil_iff.mp here)] at done
      cases done
    | cons byte rest =>
      obtain ⟨within, -, after⟩ := getElem?_of_drop here
      rw [readVarintLoop_cons here] at done
      split at done
      next low =>
        cases done
        exact ⟨[byte], .last low, by rw [after]; rfl, rfl, rfl⟩
      next high =>
        obtain ⟨varint, proper, split, same, moved⟩ := ih _ (by omega) done rfl
        refine ⟨byte :: varint, .more (Nat.not_lt.mp high) proper, ?_, same, ?_⟩
        · rw [cons_append, ← split, after]
        · rw [length_cons]
          omega

theorem varint_of_readVarint (done : readVarint bytes offset = .ok (number, next)) :
    ∃ varint, Varint varint ∧ bytes.drop offset = varint ++ bytes.drop next ∧
      number = varintValue varint ∧ next = offset + varint.length :=
  varint_of_readVarintLoop done

theorem readVarintLoop_ne_outside : readVarintLoop bytes offset result scale ≠ .error .outside := by
  induction remaining : bytes.length - offset using Nat.strongRecOn
    generalizing offset result scale with
  | _ bound ih =>
    cases here : bytes.drop offset with
    | nil =>
      rw [readVarintLoop, if_pos (drop_eq_nil_iff.mp here)]
      exact fun same => by cases same
    | cons byte rest =>
      obtain ⟨within, -, -⟩ := getElem?_of_drop here
      rw [readVarintLoop_cons here]
      split
      next => exact fun same => by cases same
      next => exact ih _ (by omega) rfl

theorem or_high (value : Nat) : value % 0x80 ||| 0x80 = value % 128 + 128 := by
  have low : value % 128 < 2 ^ 7 := Nat.mod_lt _ (by omega)
  have split : 128 + value % 128 = 128 ||| value % 128 := Nat.two_pow_add_eq_or_of_lt low 1
  rw [Nat.or_comm, ← split, Nat.add_comm]

/-- The written bytes of a number are a varint. -/
theorem varintBytes_varint (value : Nat) : Varint (varintBytes value) := by
  induction value using Nat.strongRecOn with
  | _ value ih =>
    rw [varintBytes]
    split
    next large =>
      refine .more ?_ (ih _ (by omega))
      rw [or_high, UInt8.toNat_ofNat']
      omega
    next small =>
      apply Varint.last
      rw [UInt8.toNat_ofNat']
      omega

/-- As long as the sum stays exact, it is the number that was written. -/
theorem foldl_varintBytes (value sum power : Nat) (exact : sum + value * 128 ^ power < 2 ^ 53) :
    ((varintBytes value).foldl varintStep (.finite sum, .finite (128 ^ power))).1 =
      .finite (sum + value * 128 ^ power) := by
  induction value using Nat.strongRecOn generalizing sum power with
  | _ value ih =>
    rw [varintBytes]
    split
    next large =>
      have group : (UInt8.ofNat (value % 0x80 ||| 0x80)).toNat % 128 = value % 128 := by
        rw [or_high, UInt8.toNat_ofNat']
        omega
      have parts : value * 128 ^ power =
          value % 128 * 128 ^ power + value / 128 * 128 ^ (power + 1) := by
        have split := Nat.div_add_mod value 128
        calc value * 128 ^ power = (128 * (value / 128) + value % 128) * 128 ^ power := by
              rw [split]
          _ = value % 128 * 128 ^ power + value / 128 * 128 ^ (power + 1) := by ring
      have next : 128 ^ (power + 1) ≤ value / 128 * 128 ^ (power + 1) :=
        Nat.le_mul_of_pos_left _ (by omega)
      have step : varintStep (.finite sum, .finite (128 ^ power))
          (UInt8.ofNat (value % 0x80 ||| 0x80)) =
          (.finite (sum + value % 128 * 128 ^ power), .finite (128 ^ (power + 1))) := by
        unfold varintStep Number.add Number.mul
        dsimp only
        rw [group, round_exact (by omega)]
        dsimp only
        rw [round_exact (by omega), ← Nat.pow_succ, round_exact (by omega)]
      rw [foldl_cons, step, ih (value / 0x80) (by omega) _ _ (by omega)]
      congr 1
      omega
    next small =>
      have group : (UInt8.ofNat value).toNat % 128 = value := by
        rw [UInt8.toNat_ofNat']
        omega
      unfold List.foldl varintStep Number.add Number.mul
      dsimp only
      rw [group, round_exact (by omega)]
      dsimp only
      rw [round_exact exact]
      rfl

theorem varintValue_varintBytes {value : Nat} (safe : value ≤ MAX_SAFE_INTEGER) :
    varintValue (varintBytes value) = .finite value := by
  unfold MAX_SAFE_INTEGER at safe
  have whole := foldl_varintBytes value 0 0 (by omega)
  rw [Nat.pow_zero, Nat.mul_one, Nat.zero_add] at whole
  exact whole

end Varints

section Fields

/-- The bytes of one complete field, and what it decodes to: nothing where it is of fixed width. -/
inductive Field : Bytes → List ProtoField → Prop
  | varint {key value : Bytes} {number : Nat} (keyed : Varint key)
      (read : varintValue key = .finite number) (wire : number % 8 = WIRE_VARINT)
      (valued : Varint value) :
      Field (key ++ value) [{ field := number / 8, value := .varint (varintValue value) }]
  | delimited {key size payload : Bytes} {number : Nat} (keyed : Varint key)
      (read : varintValue key = .finite number) (wire : number % 8 = WIRE_LENGTH_DELIMITED)
      (sized : Varint size) (length : varintValue size = .finite payload.length) :
      Field (key ++ (size ++ payload)) [{ field := number / 8, value := .bytes payload }]
  | fixed64 {key value : Bytes} {number : Nat} (keyed : Varint key)
      (read : varintValue key = .finite number) (wire : number % 8 = WIRE_FIXED64)
      (width : value.length = 8) : Field (key ++ value) []
  | fixed32 {key value : Bytes} {number : Nat} (keyed : Varint key)
      (read : varintValue key = .finite number) (wire : number % 8 = WIRE_FIXED32)
      (width : value.length = 4) : Field (key ++ value) []

variable {bytes field rest key value : Bytes} {offset next number : Nat} {fields : List ProtoField}

theorem slice_of_drop (here : bytes.drop offset = value ++ rest) (within : offset ≤ bytes.length) :
    offset + value.length ≤ bytes.length ∧
      slice bytes offset (offset + value.length) = some value := by
  have size := congrArg List.length here
  rw [length_drop, length_append] at size
  have room : offset + value.length ≤ bytes.length := by omega
  refine ⟨room, ?_⟩
  unfold slice subarray
  rw [if_pos room, here, Nat.add_sub_cancel_left, take_left]

theorem take_of_drop (here : bytes.drop offset = value ++ rest) (within : offset ≤ bytes.length) :
    take bytes offset (.finite value.length) = .ok (value, .finite (offset + value.length)) := by
  obtain ⟨room, sliced⟩ := slice_of_drop here within
  unfold take
  dsimp only
  rw [if_neg (Nat.not_lt.mpr room), sliced]

/-- The loop's next turn, where the offset is still a number. -/
def resume (bytes : Bytes) (fields : List ProtoField) :
    Number → Except Thrown (List ProtoField × Number)
  | .finite next => (decodeLoop bytes next).map fun later => (fields ++ later.1, later.2)
  | ended => .ok (fields, ended)

theorem decodeLoop_read {start : Nat} {value : Option ProtoFieldValue} {key after : Number}
    (more : offset < bytes.length) (read : readVarint bytes offset = .ok (key, start))
    (valued : readValue bytes start key = .ok (value, after)) :
    decodeLoop bytes offset =
      resume bytes (value.toList.map fun value => { field := fieldNumber key, value }) after := by
  rw [decodeLoop, dif_pos more]
  split
  next failed =>
    rw [read] at failed
    cases failed
  next same =>
    rw [read] at same
    cases same
    split
    next failed =>
      rw [valued] at failed
      cases failed
    next same =>
      rw [valued] at same
      cases same
      cases after with
      | finite next =>
        unfold resume
        dsimp only
        cases decodeLoop bytes next <;> rfl
      | infinity => rfl
      | nan => rfl

/-- The value of a field, read after its key. -/
theorem readValue_varint (wire : number % 8 = WIRE_VARINT) {read : Number}
    (varint : readVarint bytes offset = .ok (read, next)) :
    readValue bytes offset (.finite number) = .ok (some (.varint read), .finite next) := by
  unfold readValue
  dsimp only
  rw [if_pos wire, varint]
  rfl

theorem readValue_delimited (wire : number % 8 = WIRE_LENGTH_DELIMITED) {length after : Number}
    {start : Nat} (sized : readVarint bytes offset = .ok (length, start))
    (taken : take bytes start length = .ok (value, after)) :
    readValue bytes offset (.finite number) = .ok (some (.bytes value), after) := by
  have other : ¬number % 8 = WIRE_VARINT := by
    rw [wire]
    decide
  unfold readValue
  dsimp only
  rw [if_neg other, if_pos wire, sized]
  show (take bytes start length >>= _) = _
  rw [taken]
  rfl

theorem readValue_fixed {width : Nat} {after : Number}
    (wire : number % 8 = WIRE_FIXED64 ∧ width = 8 ∨ number % 8 = WIRE_FIXED32 ∧ width = 4)
    (taken : take bytes offset (.finite width) = .ok (value, after)) :
    readValue bytes offset (.finite number) = .ok (none, after) := by
  unfold readValue
  dsimp only
  rcases wire with ⟨wire, rfl⟩ | ⟨wire, rfl⟩
  · rw [wire, if_neg (by decide), if_neg (by decide), if_pos rfl, taken]
    rfl
  · rw [wire, if_neg (by decide), if_neg (by decide), if_neg (by decide), if_pos rfl, taken]
    rfl

/-- A complete field is decoded, and then what follows it. -/
theorem decodeLoop_field (complete : Field field fields)
    (here : bytes.drop offset = field ++ rest) :
    decodeLoop bytes offset = (decodeLoop bytes (offset + field.length)).map fun later =>
      (fields ++ later.1, later.2) := by
  have more : ∀ {key rest : Bytes}, Varint key → bytes.drop offset = key ++ rest →
      offset < bytes.length ∧ bytes.drop (offset + key.length) = rest ∧
        offset + key.length ≤ bytes.length := by
    intro key rest keyed split
    have size := congrArg List.length split
    rw [length_drop, length_append] at size
    have positive := keyed.length_pos
    refine ⟨by omega, ?_, by omega⟩
    rw [← drop_drop, split, drop_left]
  have fixed : ∀ {key value : Bytes} {number : Nat}, Varint key →
      varintValue key = .finite number → bytes.drop offset = key ++ value ++ rest →
      (number % 8 = WIRE_FIXED64 ∧ value.length = 8 ∨
        number % 8 = WIRE_FIXED32 ∧ value.length = 4) →
      decodeLoop bytes offset = (decodeLoop bytes (offset + (key ++ value).length)).map fun later =>
        ([] ++ later.1, later.2) := by
    intro key value number keyed read split wire
    rw [append_assoc] at split
    obtain ⟨within, after, inside⟩ := more keyed split
    have first := readVarint_varint keyed split
    rw [read] at first
    rw [decodeLoop_read within first (readValue_fixed wire (take_of_drop after inside)),
      length_append, ← Nat.add_assoc]
    rfl
  cases complete with
  | @varint key value number keyed read wire valued =>
    rw [append_assoc] at here
    obtain ⟨within, after, -⟩ := more keyed here
    have first := readVarint_varint keyed here
    rw [read] at first
    rw [decodeLoop_read within first (readValue_varint wire (readVarint_varint valued after)),
      length_append, ← Nat.add_assoc]
    rfl
  | @delimited key size payload number keyed read wire sized length =>
    rw [append_assoc] at here
    obtain ⟨within, after, inside⟩ := more keyed here
    have first := readVarint_varint keyed here
    rw [read] at first
    rw [append_assoc] at after
    have measured := readVarint_varint sized after
    rw [length] at measured
    have left := congrArg List.length after
    rw [length_drop, length_append] at left
    have later : bytes.drop (offset + key.length + size.length) = payload ++ rest := by
      rw [← drop_drop, after, drop_left]
    have taken := take_of_drop later (by omega)
    rw [decodeLoop_read within first (readValue_delimited wire measured taken),
      length_append, length_append, ← Nat.add_assoc, ← Nat.add_assoc]
    rfl
  | fixed64 keyed read wire width => exact fixed keyed read here (Or.inl ⟨wire, width⟩)
  | fixed32 keyed read wire width => exact fixed keyed read here (Or.inr ⟨wire, width⟩)

end Fields

end AutoMobile.ProtobufWire
