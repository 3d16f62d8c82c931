import AutoMobile.ProtobufFields

/- What a writer's message decodes to, and what decoding does with any other bytes. -/
namespace AutoMobile.ProtobufWire

open ByteRecords DoublePrecision List

section RoundTrip

/-- The field of a call, unless its value is the default. -/
def Call.decoded : Call → Option ProtoField
  | .varint field value =>
    if value ≠ 0 then some { field := field.toNat, value := .varint (.finite value.toNat) }
    else none
  | .bytes field value =>
    if 0 < value.length then some { field := field.toNat, value := .bytes value } else none

/-- A field number whose keys are safe integers, and a value that is. -/
def Call.InRange : Call → Prop
  | .varint field value => 0 ≤ field ∧ field * 8 + WIRE_VARINT ≤ MAX_SAFE_INTEGER ∧ 0 ≤ value ∧
      value ≤ MAX_SAFE_INTEGER
  | .bytes field value => 0 ≤ field ∧ field * 8 + WIRE_LENGTH_DELIMITED ≤ MAX_SAFE_INTEGER ∧
      value.length ≤ MAX_SAFE_INTEGER

variable {call : Call} {calls : List Call} {chunks : List Bytes} {bytes message : Bytes}
  {offset : Nat}

theorem encodeVarint_ok {value : Int} (least : 0 ≤ value) (most : value ≤ MAX_SAFE_INTEGER) :
    encodeVarint value = .ok (varintBytes value.toNat) := by
  unfold encodeVarint
  rw [if_neg (by omega)]

theorem of_encodeVarint {value : Int} {encoded : Bytes} (done : encodeVarint value = .ok encoded) :
    0 ≤ value ∧ value.toNat ≤ MAX_SAFE_INTEGER ∧ encoded = varintBytes value.toNat := by
  unfold encodeVarint at done
  split at done
  next => cases done
  next safe =>
    cases done
    exact ⟨by omega, by omega, rfl⟩

/-- What a call writes is one complete field, or nothing. -/
theorem field_of_write (done : write call = .ok chunks) :
    call.decoded = none ∧ chunks.flatten = [] ∨
      ∃ field, call.decoded = some field ∧ Field chunks.flatten [field] := by
  cases call with
  | varint field value =>
    unfold write at done
    unfold Call.decoded
    dsimp only at done ⊢
    by_cases given : value ≠ 0
    · rw [if_pos given] at done ⊢
      obtain ⟨key, keyed, rest⟩ := ok_of_bind done
      obtain ⟨encoded, valued, same⟩ := ok_of_bind rest
      cases same
      obtain ⟨least, safe, rfl⟩ := of_encodeVarint keyed
      obtain ⟨-, within, rfl⟩ := of_encodeVarint valued
      have wire : (field * 8 + (WIRE_VARINT : Int)).toNat % 8 = WIRE_VARINT := by
        unfold WIRE_VARINT at least ⊢
        omega
      have number : (field * 8 + (WIRE_VARINT : Int)).toNat / 8 = field.toNat := by
        unfold WIRE_VARINT at least ⊢
        omega
      have complete := Field.varint (varintBytes_varint _) (varintValue_varintBytes safe) wire
        (varintBytes_varint value.toNat)
      rw [number, varintValue_varintBytes within] at complete
      refine Or.inr ⟨_, rfl, ?_⟩
      rw [flatten_singleton]
      exact complete
    · rw [if_neg given] at done ⊢
      cases done
      exact Or.inl ⟨rfl, rfl⟩
  | bytes field value =>
    unfold write at done
    unfold Call.decoded
    dsimp only at done ⊢
    by_cases given : 0 < value.length
    · rw [if_pos given] at done ⊢
      obtain ⟨key, keyed, rest⟩ := ok_of_bind done
      obtain ⟨encoded, sized, same⟩ := ok_of_bind rest
      cases same
      obtain ⟨least, safe, rfl⟩ := of_encodeVarint keyed
      obtain ⟨-, within, rfl⟩ := of_encodeVarint sized
      have wire : (field * 8 + (WIRE_LENGTH_DELIMITED : Int)).toNat % 8 =
          WIRE_LENGTH_DELIMITED := by
        unfold WIRE_LENGTH_DELIMITED at least ⊢
        omega
      have number : (field * 8 + (WIRE_LENGTH_DELIMITED : Int)).toNat / 8 = field.toNat := by
        unfold WIRE_LENGTH_DELIMITED at least ⊢
        omega
      have complete := Field.delimited (varintBytes_varint _) (varintValue_varintBytes safe) wire
        (varintBytes_varint _) (varintValue_varintBytes within)
      rw [number] at complete
      refine Or.inr ⟨_, rfl, ?_⟩
      rw [flatten_cons, flatten_singleton, append_assoc]
      exact complete
    · rw [if_neg given] at done ⊢
      cases done
      exact Or.inl ⟨rfl, rfl⟩

theorem decodeLoop_finish (done : finish calls = .ok message)
    (here : bytes.drop offset = message) (within : offset ≤ bytes.length) :
    decodeLoop bytes offset = .ok (calls.filterMap Call.decoded, .finite bytes.length) := by
  induction calls generalizing message offset with
  | nil =>
    cases done
    have past := drop_eq_nil_iff.mp here
    rw [decodeLoop, dif_neg (by omega)]
    have same : offset = bytes.length := by omega
    rw [same]
    rfl
  | cons call calls ih =>
    obtain ⟨chunks, written, more⟩ := ok_of_bind done
    obtain ⟨rest, later, same⟩ := ok_of_bind more
    have whole : bytes.drop offset = chunks.flatten ++ rest := here.trans (Except.ok.inj same).symm
    rw [filterMap_cons]
    rcases field_of_write written with ⟨silent, empty⟩ | ⟨field, decoded, complete⟩
    · rw [silent]
      rw [empty] at whole
      exact ih later whole within
    · have size := congrArg List.length whole
      rw [length_drop, length_append] at size
      have after : bytes.drop (offset + chunks.flatten.length) = rest := by
        rw [← drop_drop, whole, drop_left]
      rw [decoded, decodeLoop_field complete whole, ih later after (by omega)]
      rfl

/-- A finished message decodes to the fields of its calls. -/
theorem decodeFields_finish (done : finish calls = .ok message) :
    decodeFields message = .ok (calls.filterMap Call.decoded) := by
  unfold decodeFields
  rw [decodeLoop_finish done rfl (Nat.zero_le _)]
  rfl

theorem finish_ok (inRange : ∀ call ∈ calls, call.InRange) :
    ∃ message, finish calls = .ok message := by
  induction calls with
  | nil => exact ⟨[], rfl⟩
  | cons call calls ih =>
    obtain ⟨rest, later⟩ := ih fun other member => inRange other (mem_cons_of_mem _ member)
    have written : ∃ chunks, write call = .ok chunks := by
      have proper := inRange call mem_cons_self
      cases call with
      | varint field value =>
        obtain ⟨least, most, low, high⟩ := proper
        unfold write
        dsimp only
        by_cases given : value ≠ 0
        · rw [if_pos given, encodeVarint_ok (by unfold WIRE_VARINT; omega) most,
            encodeVarint_ok low high]
          exact ⟨_, rfl⟩
        · rw [if_neg given]
          exact ⟨_, rfl⟩
      | bytes field value =>
        obtain ⟨least, most, high⟩ := proper
        unfold write
        dsimp only
        by_cases given : 0 < value.length
        · rw [if_pos given, encodeVarint_ok (by unfold WIRE_LENGTH_DELIMITED; omega) most,
            encodeVarint_ok (Int.natCast_nonneg _) (Int.ofNat_le.mpr high)]
          exact ⟨_, rfl⟩
        · rw [if_neg given]
          exact ⟨_, rfl⟩
    obtain ⟨chunks, written⟩ := written
    refine ⟨chunks.flatten ++ rest, ?_⟩
    unfold finish
    rw [written]
    show (finish calls >>= _) = _
    rw [later]
    rfl

end RoundTrip

section Scales

/-- The scale of a varint's byte: infinite from the 148th on. -/
def scaleAt (index : Nat) : Number := if index < 147 then .finite (128 ^ index) else .infinity

theorem scaleAt_succ (index : Nat) : (scaleAt index).mul (.finite 128) = scaleAt (index + 1) := by
  have power : ∀ count, (128 : Nat) ^ count = 2 ^ (7 * count) := fun count => by
    rw [show (128 : Nat) = 2 ^ 7 from rfl, ← Nat.pow_mul]
  unfold scaleAt
  by_cases small : index < 147
  · have product : (Number.finite (128 ^ index)).mul (.finite 128) =
        Number.round (128 ^ (index + 1)) := by
      unfold Number.mul
      rw [Nat.pow_succ]
    have limit : 7 * (index + 1) < infiniteFrom ↔ index + 1 < 147 := by
      unfold infiniteFrom
      omega
    rw [if_pos small, product, power, round_two_pow]
    by_cases next : index + 1 < 147
    · rw [if_pos next, if_pos (limit.mpr next)]
    · rw [if_neg next, if_neg fun inside => next (limit.mp inside)]
  · rw [if_neg small, if_neg (by omega)]
    rfl

/-- An infinite scale makes no number of a zero group. -/
theorem mul_scaleAt_eq_nan_iff (group index : Nat) :
    (Number.finite group).mul (scaleAt index) = .nan ↔ 147 ≤ index ∧ group = 0 := by
  unfold scaleAt
  by_cases small : index < 147
  · rw [if_pos small]
    exact ⟨fun same => absurd same (round_ne_nan _), (fun both => by omega)⟩
  · rw [if_neg small]
    cases group with
    | zero => exact ⟨fun _ => ⟨by omega, rfl⟩, fun _ => rfl⟩
    | succ group => exact ⟨(fun same => by cases same), fun both => absurd both.2 (Nat.succ_ne_zero group)⟩

/-- One of the bytes from the 148th on has a zero group. -/
def LateZero (varint : Bytes) : Prop :=
  ∃ index byte, 147 ≤ index ∧ varint[index]? = some byte ∧ byte.toNat % 128 = 0

theorem foldl_eq_nan_iff (varint : Bytes) (result : Number) (index : Nat) :
    (varint.foldl varintStep (result, scaleAt index)).1 = .nan ↔
      result = .nan ∨ ∃ further byte, 147 ≤ index + further ∧ varint[further]? = some byte ∧
        byte.toNat % 128 = 0 := by
  induction varint generalizing result index with
  | nil => simp
  | cons first rest ih =>
    have step : varintStep (result, scaleAt index) first =
        (result.add ((Number.finite (first.toNat % 128)).mul (scaleAt index)),
          scaleAt (index + 1)) := by
      unfold varintStep
      dsimp only
      rw [scaleAt_succ]
    rw [foldl_cons, step, ih, add_eq_nan_iff, mul_scaleAt_eq_nan_iff]
    constructor
    · rintro ((none | ⟨late, zero⟩) | ⟨further, byte, late, here, zero⟩)
      · exact Or.inl none
      · exact Or.inr ⟨0, first, late, rfl, zero⟩
      · exact Or.inr ⟨further + 1, byte, by omega, here, zero⟩
    · rintro (none | ⟨further, byte, late, here, zero⟩)
      · exact Or.inl (Or.inl none)
      · cases further with
        | zero =>
          cases here
          exact Or.inl (Or.inr ⟨late, zero⟩)
        | succ further => exact Or.inr ⟨further, byte, by omega, here, zero⟩

theorem varintValue_eq_nan_iff (varint : Bytes) : varintValue varint = .nan ↔ LateZero varint := by
  have general := foldl_eq_nan_iff varint (.finite 0) 0
  rw [show scaleAt 0 = .finite 1 from rfl] at general
  unfold varintValue LateZero
  rw [general]
  simp

end Scales

section Stalls

/-- Complete fields, then a length-delimited one whose length is a varint with a late zero. -/
inductive Stalls : Bytes → Prop
  | here {key size after : Bytes} {number : Nat} (keyed : Varint key)
      (read : varintValue key = .finite number) (wire : number % 8 = WIRE_LENGTH_DELIMITED)
      (sized : Varint size) (late : LateZero size) : Stalls (key ++ (size ++ after))
  | later {field rest : Bytes} {fields : List ProtoField} (complete : Field field fields)
      (stalls : Stalls rest) : Stalls (field ++ rest)

variable {bytes value : Bytes} {offset start : Nat} {key after : Number}

/-- Decoding ends at a length that is no number, wherever the bytes go on. -/
theorem decodeLoop_stalls {suffix : Bytes} (stalls : Stalls suffix)
    (here : bytes.drop offset = suffix) :
    ∃ fields, decodeLoop bytes offset = .ok (fields, .nan) := by
  induction stalls generalizing offset with
  | @here key size after number keyed read wire sized late =>
    have length := congrArg List.length here
    rw [length_drop, length_append] at length
    have positive := keyed.length_pos
    have first := readVarint_varint keyed here
    have next : bytes.drop (offset + key.length) = size ++ after := by
      rw [← drop_drop, here, drop_left]
    have second := readVarint_varint sized next
    rw [read] at first
    rw [(varintValue_eq_nan_iff size).mpr late] at second
    have taken : take bytes (offset + key.length + size.length) .nan = .ok ([], .nan) := rfl
    rw [decodeLoop_read (by omega) first (readValue_delimited wire second taken)]
    exact ⟨_, rfl⟩
  | @later field rest fields complete _ ih =>
    have next : bytes.drop (offset + field.length) = rest := by rw [← drop_drop, here, drop_left]
    obtain ⟨others, ended⟩ := ih next
    rw [decodeLoop_field complete here, ended]
    exact ⟨_, rfl⟩

theorem of_take {length : Number} (done : take bytes offset length = .ok (value, after)) :
    (length = .finite value.length ∧ after = .finite (offset + value.length) ∧
        bytes.drop offset = value ++ bytes.drop (offset + value.length)) ∨
      length = .nan ∧ after = .nan := by
  unfold take at done
  split at done
  next length =>
    split at done
    next => cases done
    next within =>
      split at done
      next => cases done
      next sliced =>
        cases done
        unfold slice subarray at sliced
        rw [if_pos (Nat.not_lt.mp within), Nat.add_sub_cancel_left] at sliced
        cases sliced
        have size : ((bytes.drop offset).take length).length = length := by
          rw [length_take, length_drop]
          omega
        refine Or.inl ⟨by rw [size], by rw [size], ?_⟩
        rw [size, ← drop_drop, take_append_drop]
  next => cases done
  next =>
    cases done
    exact Or.inr ⟨rfl, rfl⟩

/-- A value that is read ends a complete field, or stalls. -/
theorem of_readValue {value : Option ProtoFieldValue}
    (read : readVarint bytes offset = .ok (key, start))
    (valued : readValue bytes start key = .ok (value, after)) :
    (∃ next field fields, after = .finite next ∧ Field field fields ∧
        bytes.drop offset = field ++ bytes.drop next) ∨
      after = .nan ∧ Stalls (bytes.drop offset) := by
  obtain ⟨first, keyed, split, known, -⟩ := varint_of_readVarint read
  unfold readValue at valued
  dsimp only at valued
  cases key with
  | infinity => cases valued
  | nan => cases valued
  | finite number =>
    dsimp only at valued
    split at valued
    next wire =>
      obtain ⟨⟨read, next⟩, varint, same⟩ := ok_of_bind valued
      cases same
      obtain ⟨second, proper, further, -, -⟩ := varint_of_readVarint varint
      refine Or.inl ⟨next, first ++ second, _, rfl, .varint keyed known.symm wire proper, ?_⟩
      rw [split, further, append_assoc]
    split at valued
    next wire =>
      obtain ⟨⟨length, middle⟩, varint, rest⟩ := ok_of_bind valued
      obtain ⟨⟨payload, ended⟩, taken, same⟩ := ok_of_bind rest
      cases same
      obtain ⟨second, sized, further, measured, -⟩ := varint_of_readVarint varint
      rcases of_take taken with ⟨length, rfl, last⟩ | ⟨none, rfl⟩
      · refine Or.inl ⟨_, first ++ (second ++ payload), _, rfl,
          .delimited keyed known.symm wire sized (measured.symm.trans length), ?_⟩
        rw [split, further, last, append_assoc, append_assoc]
      · refine Or.inr ⟨rfl, ?_⟩
        rw [split, further]
        exact .here keyed known.symm wire sized
          ((varintValue_eq_nan_iff second).mp (measured.symm.trans none))
    split at valued
    next wire =>
      obtain ⟨⟨payload, ended⟩, taken, same⟩ := ok_of_bind valued
      cases same
      rcases of_take taken with ⟨length, rfl, last⟩ | ⟨none, -⟩
      · refine Or.inl ⟨_, first ++ payload, _, rfl,
          .fixed64 keyed known.symm wire (Number.finite.inj length).symm, ?_⟩
        rw [split, last, append_assoc]
      · cases none
    split at valued
    next wire =>
      obtain ⟨⟨payload, ended⟩, taken, same⟩ := ok_of_bind valued
      cases same
      rcases of_take taken with ⟨length, rfl, last⟩ | ⟨none, -⟩
      · refine Or.inl ⟨_, first ++ payload, _, rfl,
          .fixed32 keyed known.symm wire (Number.finite.inj length).symm, ?_⟩
        rw [split, last, append_assoc]
      · cases none
    next => cases valued

/-- Decoding that does not throw ends at the end of the bytes, or stalls. -/
theorem of_decodeLoop {fields : List ProtoField} {ended : Number}
    (within : offset ≤ bytes.length) (done : decodeLoop bytes offset = .ok (fields, ended)) :
    ended = .finite bytes.length ∨ ended = .nan ∧ Stalls (bytes.drop offset) := by
  induction remaining : bytes.length - offset using Nat.strongRecOn
    generalizing offset fields with
  | _ bound ih =>
    by_cases more : offset < bytes.length
    · have outcome := done
      rw [decodeLoop, dif_pos more] at done
      split at done
      next => cases done
      next key start read =>
        split at done
        next => cases done
        next value after valued =>
          have moved := (readVarint_offset read).1
          rw [decodeLoop_read more read valued] at outcome
          rcases of_readValue read valued with
            ⟨next, field, decoded, rfl, complete, split⟩ | ⟨rfl, stalls⟩
          · have later := readValue_offset valued
            unfold resume at outcome
            dsimp only at outcome
            cases rest : decodeLoop bytes next with
            | error thrown =>
              rw [rest] at outcome
              cases outcome
            | ok result =>
              rw [rest] at outcome
              cases outcome
              rcases ih _ (by omega) later.2 rest rfl with whole | ⟨none, stalls⟩
              · exact Or.inl whole
              · refine Or.inr ⟨none, ?_⟩
                rw [split]
                exact .later complete stalls
          · cases outcome
            exact Or.inr ⟨rfl, stalls⟩
    · rw [decodeLoop, dif_neg more] at done
      cases done
      have same : offset = bytes.length := by omega
      rw [same]
      exact Or.inl rfl

end Stalls

section Bounds

variable {bytes : Bytes} {offset : Nat}

theorem error_of_bind {first second : Type} {step : Except Thrown first}
    {later : first → Except Thrown second} {thrown : Thrown}
    (failed : (step >>= later) = .error thrown) :
    step = .error thrown ∨ ∃ middle, step = .ok middle ∧ later middle = .error thrown := by
  cases step with
  | error other =>
    cases failed
    exact Or.inl rfl
  | ok middle => exact Or.inr ⟨middle, rfl, failed⟩

theorem take_ne_outside (length : Number) : take bytes offset length ≠ .error .outside := by
  intro failed
  unfold take at failed
  split at failed
  next length =>
    split at failed
    next => cases failed
    next within =>
      split at failed
      next missing =>
        unfold slice at missing
        rw [if_pos (Nat.not_lt.mp within)] at missing
        cases missing
      next => cases failed
  next => cases failed
  next => cases failed

theorem readValue_ne_outside (key : Number) : readValue bytes offset key ≠ .error .outside := by
  intro failed
  unfold readValue at failed
  dsimp only at failed
  cases key with
  | infinity => cases failed
  | nan => cases failed
  | finite number =>
    dsimp only at failed
    split at failed
    next =>
      rcases error_of_bind failed with read | ⟨_, _, done⟩
      · exact readVarintLoop_ne_outside read
      · cases done
    split at failed
    next =>
      rcases error_of_bind failed with read | ⟨_, _, rest⟩
      · exact readVarintLoop_ne_outside read
      · rcases error_of_bind rest with taken | ⟨_, _, done⟩
        · exact take_ne_outside _ taken
        · cases done
    split at failed
    next =>
      rcases error_of_bind failed with taken | ⟨_, _, done⟩
      · exact take_ne_outside _ taken
      · cases done
    split at failed
    next =>
      rcases error_of_bind failed with taken | ⟨_, _, done⟩
      · exact take_ne_outside _ taken
      · cases done
    next => cases failed

/-- No read is past the end of the bytes. -/
theorem decodeLoop_ne_outside : decodeLoop bytes offset ≠ .error .outside := by
  induction remaining : bytes.length - offset using Nat.strongRecOn generalizing offset with
  | _ bound ih =>
    intro failed
    rw [decodeLoop] at failed
    split at failed
    next more =>
      split at failed
      next read =>
        cases failed
        exact readVarintLoop_ne_outside read
      next key start read =>
        have moved := (readVarint_offset read).1
        split at failed
        next valued =>
          cases failed
          exact readValue_ne_outside _ valued
        next value after valued =>
          dsimp only at failed
          split at failed
          next next =>
            have later := (readValue_offset valued).1
            rcases error_of_bind failed with rest | ⟨_, _, done⟩
            · exact ih _ (by omega) rfl rest
            · cases done
          next => cases failed
    next => cases failed

end Bounds

end AutoMobile.ProtobufWire
