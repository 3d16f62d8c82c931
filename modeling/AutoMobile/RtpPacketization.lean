import Mathlib
import AutoMobile.ByteRecords

/- RTP payloads of H.264 access units: single NAL units and FU-A fragments. -/
namespace AutoMobile.Rtp

open ByteRecords List

section Packetizer

def FU_A_TYPE : UInt8 := 28
def FU_A_HEADER_BYTES : ℚ := 2

/-- Any number: the type does not ask for a whole number of bytes. -/
inductive Mtu where
  | finite (bytes : ℚ)
  | infinity
  | negativeInfinity
  | notANumber
deriving DecidableEq, Repr

/-- `length <= mtu`. -/
def Mtu.allows : Mtu → Nat → Prop
  | .finite bytes, length => (length : ℚ) ≤ bytes
  | .infinity, _ => True
  | .negativeInfinity, _ => False
  | .notANumber, _ => False

instance Mtu.decidableAllows : ∀ (mtu : Mtu) (length : Nat), Decidable (mtu.allows length)
  | .finite bytes, length => inferInstanceAs (Decidable ((length : ℚ) ≤ bytes))
  | .infinity, _ => isTrue trivial
  | .negativeInfinity, _ => isFalse id
  | .notANumber, _ => isFalse id

/-- The error of an MTU that is too small to fragment a NAL unit. -/
structure MtuTooSmall where
  mtu : Mtu
  nalLength : Nat
deriving DecidableEq, Repr

def fuHeader (nalType : UInt8) (isFirst isLast : Bool) : UInt8 :=
  let started := if isFirst then nalType ||| 0x80 else nalType
  if isLast then started ||| 0x40 else started

/-- `Buffer.subarray` from and to any number that is not negative: both are cut to whole bytes. -/
def subarray (payload : Bytes) (start stop : ℚ) : Bytes := ByteRecords.subarray payload ⌊start⌋₊ ⌊stop⌋₊

/-- The fragment loop, over the payload from `offset` on. -/
def fragmentLoop (payload : Bytes) (fuIndicator nalType : UInt8) (maxFragmentSize : ℚ)
    (room : 0 < maxFragmentSize) (offset : ℚ) : List Bytes :=
  if offset < payload.length then
    let fragmentSize := min maxFragmentSize (payload.length - offset)
    let isFirst := offset = 0
    let isLast := (payload.length : ℚ) ≤ offset + fragmentSize
    (fuIndicator :: fuHeader nalType isFirst isLast ::
        subarray payload offset (offset + fragmentSize)) ::
      fragmentLoop payload fuIndicator nalType maxFragmentSize room (offset + fragmentSize)
  else []
termination_by ⌈(payload.length - offset) / maxFragmentSize⌉₊
decreasing_by
  rename_i more
  rcases min_cases maxFragmentSize (payload.length - offset) with ⟨same, _⟩ | ⟨same, _⟩
  · rw [same, sub_add_eq_sub_sub, sub_div, div_self room.ne', Nat.ceil_sub_one]
    exact Nat.sub_lt (Nat.ceil_pos.mpr (div_pos (sub_pos.mpr more) room)) Nat.one_pos
  · rw [same, add_sub_cancel, sub_self, zero_div, Nat.ceil_zero]
    exact Nat.ceil_pos.mpr (div_pos (sub_pos.mpr more) room)

def packetizeNalUnit (nal : Bytes) (mtu : Mtu) : Except MtuTooSmall (List Bytes) :=
  match nal with
  | [] => .ok []
  | nalHeader :: payload =>
    if mtu.allows nal.length then .ok [nal]
    else
      match mtu with
      | .finite bytes =>
        if room : FU_A_HEADER_BYTES < bytes then
          .ok (fragmentLoop payload ((nalHeader &&& 0xe0) ||| FU_A_TYPE) (nalHeader &&& 0x1f)
            (bytes - FU_A_HEADER_BYTES) (sub_pos.mpr room) 0)
        else .error { mtu, nalLength := nal.length }
      | _ => .error { mtu, nalLength := nal.length }

/-- The payloads of the units in order, up to the first error. -/
def packetizeAll (mtu : Mtu) : List Bytes → Except MtuTooSmall (List Bytes)
  | [] => .ok []
  | nal :: rest => do
    let packets ← packetizeNalUnit nal mtu
    let later ← packetizeAll mtu rest
    return packets ++ later

structure RtpPayloadUnit where
  payload : Bytes
  marker : Bool
deriving DecidableEq, Repr

def packetizeAccessUnit (accessUnit : List Bytes) (mtu : Mtu) :
    Except MtuTooSmall (List RtpPayloadUnit) := do
  let payloads ← packetizeAll mtu accessUnit
  return payloads.mapIdx fun index payload => { payload, marker := index + 1 = payloads.length }

end Packetizer

section Depacketizer

/-- One payload of a receiver that follows RFC 6184: the unit in the making, and the unit it
completes. A payload out of place is refused. -/
def receive (unfinished : Option Bytes) (payload : Bytes) : Option (Option Bytes × List Bytes) :=
  match payload with
  | [] => none
  | indicator :: rest =>
    if indicator &&& 0x1f = 28 then
      match rest with
      | [] => none
      | header :: fragment =>
        let started := header &&& 0x80 ≠ 0
        let ended := header &&& 0x40 ≠ 0
        match unfinished with
        | none =>
          if started ∧ ¬ended then
            some (some (((indicator &&& 0xe0) ||| (header &&& 0x1f)) :: fragment), [])
          else none
        | some unit =>
          if started then none
          else if ended then some (none, [unit ++ fragment])
          else some (some (unit ++ fragment), [])
    else
      match unfinished with
      | none => some (none, [payload])
      | some _ => none

def depacketizeFrom (unfinished : Option Bytes) : List Bytes → Option (List Bytes)
  | [] => if unfinished = none then some [] else none
  | payload :: rest => do
    let (next, units) ← receive unfinished payload
    let later ← depacketizeFrom next rest
    return units ++ later

/-- The NAL units of a whole sequence of payloads. -/
def depacketize (payloads : List Bytes) : Option (List Bytes) := depacketizeFrom none payloads

end Depacketizer

section Headers

/-- What holds of the 256 bytes holds of every byte. -/
theorem forall_byte {holds : UInt8 → Prop} (all : ∀ value < 256, holds (UInt8.ofNat value))
    (byte : UInt8) : holds byte := by
  have bounded := all byte.toNat byte.toNat_lt
  rwa [UInt8.ofNat_toNat] at bounded

/-- A fragment carries the FU-A type, and the two halves of the unit's header. -/
theorem fu_indicator (nalHeader : UInt8) (isFirst isLast : Bool) :
    ((nalHeader &&& 0xe0) ||| FU_A_TYPE) &&& 0x1f = 28 ∧
      ((((nalHeader &&& 0xe0) ||| FU_A_TYPE) &&& 0xe0) |||
        (fuHeader (nalHeader &&& 0x1f) isFirst isLast &&& 0x1f)) = nalHeader := by
  apply forall_byte _ nalHeader
  cases isFirst <;> cases isLast <;> decide +kernel

theorem fu_flags (nalHeader : UInt8) (isFirst isLast : Bool) :
    (fuHeader (nalHeader &&& 0x1f) isFirst isLast &&& 0x80 ≠ 0 ↔ isFirst = true) ∧
      (fuHeader (nalHeader &&& 0x1f) isFirst isLast &&& 0x40 ≠ 0 ↔ isLast = true) := by
  apply forall_byte _ nalHeader
  cases isFirst <;> cases isLast <;> decide +kernel

end Headers

section Fragments

variable {nalHeader : UInt8} {payload : Bytes} {maxFragmentSize : Nat}
  {room : 0 < maxFragmentSize}

/-- The fragments of a unit from `offset` on, each with a whole number of bytes. -/
abbrev fragments (nalHeader : UInt8) (payload : Bytes) (maxFragmentSize : Nat)
    (room : 0 < maxFragmentSize) (offset : Nat) : List Bytes :=
  fragmentLoop payload ((nalHeader &&& 0xe0) ||| FU_A_TYPE) (nalHeader &&& 0x1f) maxFragmentSize
    (Nat.cast_pos.mpr room) offset

/-- A fragment of the payload. -/
def fragment (nalHeader : UInt8) (isFirst isLast : Bool) (part : Bytes) : Bytes :=
  ((nalHeader &&& 0xe0) ||| FU_A_TYPE) :: fuHeader (nalHeader &&& 0x1f) isFirst isLast :: part

variable {offset : Nat}

theorem fragmentLoop_more {fuIndicator nalType : UInt8} {largest offset size : ℚ}
    (room : 0 < largest) (more : offset < payload.length)
    (next : min largest (payload.length - offset) = size) :
    fragmentLoop payload fuIndicator nalType largest room offset =
      (fuIndicator :: fuHeader nalType (offset = 0) ((payload.length : ℚ) ≤ offset + size) ::
          subarray payload offset (offset + size)) ::
        fragmentLoop payload fuIndicator nalType largest room (offset + size) := by
  rw [fragmentLoop, if_pos more]
  dsimp only
  rw [next]

theorem fragments_done (done : payload.length ≤ offset) :
    fragments nalHeader payload maxFragmentSize room offset = [] := by
  rw [fragments, fragmentLoop, if_neg (not_lt.mpr (Nat.cast_le.mpr done))]

/-- One turn of the loop, when the next fragment has `size` bytes. -/
theorem fragments_step {size : Nat} (more : offset < payload.length)
    (next : size = min maxFragmentSize (payload.length - offset)) :
    fragments nalHeader payload maxFragmentSize room offset =
      fragment nalHeader (offset = 0) (payload.length ≤ offset + size)
          ((payload.drop offset).take size) ::
        fragments nalHeader payload maxFragmentSize room (offset + size) := by
  have sized : min (maxFragmentSize : ℚ) (payload.length - offset) = (size : ℚ) := by
    rw [next, Nat.cast_min, Nat.cast_sub more.le]
  have part : subarray payload offset ((offset : ℚ) + size) = (payload.drop offset).take size := by
    rw [subarray, ← Nat.cast_add, Nat.floor_natCast, Nat.floor_natCast, ByteRecords.subarray,
      Nat.add_sub_cancel_left]
  rw [fragments, fragmentLoop_more _ (Nat.cast_lt.mpr more) sized, part, ← Nat.cast_add]
  simp only [Nat.cast_eq_zero, Nat.cast_le]
  rfl

/-- The last fragment holds what is left. -/
theorem fragments_last (more : offset < payload.length)
    (short : payload.length ≤ offset + maxFragmentSize) :
    fragments nalHeader payload maxFragmentSize room offset =
      [fragment nalHeader (offset = 0) true (payload.drop offset)] := by
  have whole : (payload.drop offset).take (payload.length - offset) = payload.drop offset := by
    apply take_of_length_le
    rw [length_drop]
  have reached : payload.length ≤ offset + (payload.length - offset) := by omega
  rw [fragments_step more (show payload.length - offset = _ by omega), whole,
    decide_eq_true reached, fragments_done reached]

theorem fragments_more (long : offset + maxFragmentSize < payload.length) :
    fragments nalHeader payload maxFragmentSize room offset =
      fragment nalHeader (offset = 0) false ((payload.drop offset).take maxFragmentSize) ::
        fragments nalHeader payload maxFragmentSize room (offset + maxFragmentSize) := by
  rw [fragments_step (show offset < payload.length by omega)
    (show maxFragmentSize = _ by omega), decide_eq_false (not_le.mpr long)]

theorem fragments_length : ∀ packet ∈ fragments nalHeader payload maxFragmentSize room offset,
      packet.length ≤ maxFragmentSize + 2 := by
  induction left : payload.length - offset using Nat.strongRecOn generalizing offset with
  | _ bound ih =>
    intro packet member
    by_cases more : offset < payload.length
    · by_cases short : payload.length ≤ offset + maxFragmentSize
      · rw [fragments_last more short, mem_singleton] at member
        rw [member, fragment, length_cons, length_cons, length_drop]
        omega
      · rw [fragments_more (Nat.not_le.mp short), mem_cons] at member
        rcases member with same | later
        · rw [same, fragment, length_cons, length_cons, length_take]
          omega
        · exact ih _ (by omega) rfl packet later
    · rw [fragments_done (Nat.not_lt.mp more)] at member
      cases member

def startsFragment (packet : Bytes) : Prop := packet.getD 1 0 &&& 0x80 ≠ 0

def endsFragment (packet : Bytes) : Prop := packet.getD 1 0 &&& 0x40 ≠ 0

/-- After the start, the last fragment alone ends the unit and none starts one. -/
theorem fragments_flags (begun : 0 < offset) (more : offset < payload.length) :
    ∃ middle last, fragments nalHeader payload maxFragmentSize room offset = middle ++ [last] ∧
      (∀ packet ∈ middle, ¬startsFragment packet ∧ ¬endsFragment packet) ∧
      ¬startsFragment last ∧ endsFragment last := by
  have later : decide (offset = 0) = false := decide_eq_false (by omega)
  induction left : payload.length - offset using Nat.strongRecOn generalizing offset with
  | _ bound ih =>
    by_cases short : payload.length ≤ offset + maxFragmentSize
    · obtain ⟨started, ended⟩ := fu_flags nalHeader false true
      refine ⟨[], _, fragments_last more short, by simp, ?_, ?_⟩
      · rw [later]
        exact fun starts => Bool.false_ne_true (started.mp starts)
      · rw [later]
        exact ended.mpr rfl
    · have long := Nat.not_le.mp short
      obtain ⟨middle, last, split, quiet, ends⟩ := @ih (payload.length - (offset + maxFragmentSize))
        (by omega) (offset + maxFragmentSize) (by omega) long (decide_eq_false (by omega)) rfl
      obtain ⟨started, ended⟩ := fu_flags nalHeader false false
      refine ⟨fragment nalHeader (offset = 0) false ((payload.drop offset).take maxFragmentSize) ::
        middle, last, ?_, fun packet member => ?_, ends⟩
      · rw [fragments_more long, split]
        rfl
      · rcases mem_cons.mp member with same | inside
        · rw [same, later]
          exact ⟨fun starts => Bool.false_ne_true (started.mp starts),
            fun done => Bool.false_ne_true (ended.mp done)⟩
        · exact quiet packet inside

end Fragments

section RoundTrip

variable {nalHeader : UInt8} {payload : Bytes} {maxFragmentSize : Nat}
  {room : 0 < maxFragmentSize}

theorem receive_fragment (unfinished : Option Bytes) (isFirst isLast : Bool) (part : Bytes) :
    receive unfinished (fragment nalHeader isFirst isLast part) = match unfinished with
      | none => if isFirst ∧ ¬isLast then some (some (nalHeader :: part), []) else none
      | some unit =>
        if isFirst then none
        else if isLast then some (none, [unit ++ part])
        else some (some (unit ++ part), []) := by
  obtain ⟨typed, header⟩ := fu_indicator nalHeader isFirst isLast
  obtain ⟨started, ended⟩ := fu_flags nalHeader isFirst isLast
  unfold fragment receive
  dsimp only
  rw [if_pos typed]
  cases unfinished with
  | none => simp only [started, ended, header]
  | some unit => simp only [started, ended]

theorem depacketizeFrom_cons {unfinished next : Option Bytes} {packet : Bytes}
    {units : List Bytes} (received : receive unfinished packet = some (next, units))
    (rest : List Bytes) :
    depacketizeFrom unfinished (packet :: rest) = (depacketizeFrom next rest).map (units ++ ·) := by
  rw [depacketizeFrom, received]
  show (depacketizeFrom next rest).bind (fun later => some (units ++ later)) = _
  cases depacketizeFrom next rest <;> rfl

/-- The fragments after the start complete the unit. -/
theorem depacketize_rest {offset : Nat} (begun : 0 < offset) (more : offset < payload.length)
    (rest : List Bytes) :
    depacketizeFrom (some (nalHeader :: payload.take offset))
        (fragments nalHeader payload maxFragmentSize room offset ++ rest) =
      (depacketizeFrom none rest).map ((nalHeader :: payload) :: ·) := by
  have later : decide (offset = 0) = false := decide_eq_false (by omega)
  induction left : payload.length - offset using Nat.strongRecOn generalizing offset with
  | _ bound ih =>
    by_cases short : payload.length ≤ offset + maxFragmentSize
    · have whole : nalHeader :: payload.take offset ++ payload.drop offset =
          nalHeader :: payload := congrArg (nalHeader :: ·) (take_append_drop offset payload)
      have received := @receive_fragment nalHeader (some (nalHeader :: payload.take offset)) false
        true (payload.drop offset)
      simp only [Bool.false_eq_true, if_false, if_true, whole] at received
      rw [fragments_last more short, later, singleton_append, depacketizeFrom_cons received]
      rfl
    · have long := Nat.not_le.mp short
      have grown : nalHeader :: payload.take offset ++ (payload.drop offset).take maxFragmentSize =
          nalHeader :: payload.take (offset + maxFragmentSize) := by
        rw [take_add]
        rfl
      have received := @receive_fragment nalHeader (some (nalHeader :: payload.take offset)) false
        false ((payload.drop offset).take maxFragmentSize)
      simp only [Bool.false_eq_true, if_false, grown] at received
      have after := @ih (payload.length - (offset + maxFragmentSize)) (by omega)
        (offset + maxFragmentSize) (by omega) long (decide_eq_false (by omega)) rfl
      rw [fragments_more long, later, cons_append, depacketizeFrom_cons received, after,
        Option.map_map]
      rfl

/-- The fragments of a unit that does not fit complete it. -/
theorem depacketize_fragments (long : maxFragmentSize < payload.length) (rest : List Bytes) :
    depacketizeFrom none (fragments nalHeader payload maxFragmentSize room 0 ++ rest) =
      (depacketizeFrom none rest).map ((nalHeader :: payload) :: ·) := by
  have first : 0 + maxFragmentSize < payload.length := by omega
  have received := @receive_fragment nalHeader none true false (payload.take maxFragmentSize)
  simp only [Bool.false_eq_true, not_false_eq_true, and_self, if_true] at received
  have after := @depacketize_rest nalHeader payload maxFragmentSize room maxFragmentSize room long
    rest
  rw [fragments_more first, Nat.zero_add, drop_zero, cons_append,
    decide_eq_true (show 0 = 0 from rfl), depacketizeFrom_cons received, after, Option.map_map]
  rfl

variable {nal : Bytes} {mtu : Mtu} {payloads accessUnit : List Bytes}

/-- A unit of another type is received as it is. -/
theorem depacketize_single (proper : nal ≠ []) (other : nal.headD 0 &&& 0x1f ≠ 28)
    (rest : List Bytes) :
    depacketizeFrom none (nal :: rest) = (depacketizeFrom none rest).map (nal :: ·) := by
  cases nal with
  | nil => exact absurd rfl proper
  | cons nalHeader payload =>
    have received : receive none (nalHeader :: payload) =
        some (none, [nalHeader :: payload]) := if_neg other
    exact depacketizeFrom_cons received rest

/-- A whole number of bytes, or one of the numbers that count none. -/
def Mtu.Whole : Mtu → Prop
  | .finite bytes => ∃ count : Int, bytes = count
  | _ => True

theorem packetizeNalUnit_large {nalHeader : UInt8} {payload : Bytes} {size : Nat} (room : 0 < size)
    (long : size + 1 < payload.length) : packetizeNalUnit (nalHeader :: payload) (.finite (size + 2)) =
      .ok (fragments nalHeader payload size room 0) := by
  have large : ¬Mtu.allows (.finite (size + 2)) (payload.length + 1) := by
    show ¬((payload.length + 1 : Nat) : ℚ) ≤ size + 2
    exact_mod_cast (by omega : ¬payload.length + 1 ≤ size + 2)
  have wide : FU_A_HEADER_BYTES < (size : ℚ) + 2 := by
    rw [FU_A_HEADER_BYTES]
    exact_mod_cast (by omega : 2 < size + 2)
  have small : (size : ℚ) + 2 - FU_A_HEADER_BYTES = size := add_sub_cancel_right _ _
  unfold packetizeNalUnit fragments
  dsimp only
  rw [length_cons, if_neg large, dif_pos wide]
  simp only [small, Nat.cast_zero]

/-- What the packets of one unit are: the unit itself, or its fragments. -/
theorem packetizeNalUnit_ok {nalHeader : UInt8} {payload : Bytes} {packets : List Bytes}
    (whole : mtu.Whole) (sent : packetizeNalUnit (nalHeader :: payload) mtu = .ok packets) :
    (mtu.allows (payload.length + 1) ∧ packets = [nalHeader :: payload]) ∨
      ∃ size : Nat, ∃ room : 0 < size, mtu = .finite (size + 2) ∧ size + 1 < payload.length ∧
        packets = fragments nalHeader payload size room 0 := by
  by_cases fits : mtu.allows (payload.length + 1)
  · left
    unfold packetizeNalUnit at sent
    dsimp only at sent
    rw [length_cons, if_pos fits] at sent
    exact ⟨fits, (Except.ok.inj sent).symm⟩
  · right
    cases mtu with
    | finite bytes =>
      obtain ⟨count, rfl⟩ := whole
      have wider : ¬((payload.length + 1 : Nat) : Int) ≤ count := by
        exact_mod_cast (show ¬((payload.length + 1 : Nat) : ℚ) ≤ count from fits)
      by_cases wide : 2 < count
      · obtain ⟨size, rfl⟩ : ∃ size : Nat, count = size + 2 := ⟨(count - 2).toNat, by omega⟩
        have room : 0 < size := by omega
        have long : size + 1 < payload.length := by omega
        push_cast at sent ⊢
        rw [packetizeNalUnit_large room long] at sent
        exact ⟨size, room, rfl, long, (Except.ok.inj sent).symm⟩
      · have tight : ¬FU_A_HEADER_BYTES < (count : ℚ) := by
          rw [FU_A_HEADER_BYTES]
          exact_mod_cast wide
        unfold packetizeNalUnit at sent
        dsimp only at sent
        rw [length_cons, if_neg fits, dif_neg tight] at sent
        cases sent
    | infinity => exact absurd trivial fits
    | negativeInfinity => cases sent
    | notANumber => cases sent

theorem packetizeAll_cons {rest : List Bytes}
    (sent : packetizeAll mtu (nal :: rest) = .ok payloads) :
    ∃ packets later, packetizeNalUnit nal mtu = .ok packets ∧
      packetizeAll mtu rest = .ok later ∧ payloads = packets ++ later := by
  unfold packetizeAll at sent
  cases first : packetizeNalUnit nal mtu with
  | error error =>
    rw [first] at sent
    cases sent
  | ok packets =>
    cases others : packetizeAll mtu rest with
    | error error =>
      rw [first, others] at sent
      cases sent
    | ok later =>
      rw [first, others] at sent
      cases sent
      exact ⟨packets, later, rfl, rfl, rfl⟩

theorem packetizeAll_length (whole : mtu.Whole) (sent : packetizeAll mtu accessUnit = .ok payloads) :
    ∀ payload ∈ payloads, mtu.allows payload.length := by
  induction accessUnit generalizing payloads with
  | nil =>
    cases sent
    intro payload member
    cases member
  | cons nal rest ih =>
    obtain ⟨packets, later, first, others, rfl⟩ := packetizeAll_cons sent
    intro payload member
    rcases mem_append.mp member with now | after
    · cases nal with
      | nil =>
        cases first
        cases now
      | cons nalHeader body =>
        rcases packetizeNalUnit_ok whole first with ⟨fits, rfl⟩ | ⟨size, room, rfl, _, rfl⟩
        · rw [mem_singleton.mp now]
          exact fits
        · show (payload.length : ℚ) ≤ size + 2
          exact_mod_cast fragments_length payload now
    · exact ih others payload after

theorem depacketize_all (whole : mtu.Whole) (proper : ∀ nal ∈ accessUnit, nal ≠ [])
    (typed : ∀ nal ∈ accessUnit, nal.headD 0 &&& 0x1f ≠ 28)
    (sent : packetizeAll mtu accessUnit = .ok payloads) :
    depacketizeFrom none payloads = some accessUnit := by
  induction accessUnit generalizing payloads with
  | nil =>
    cases sent
    rfl
  | cons nal rest ih =>
    obtain ⟨packets, later, first, others, rfl⟩ := packetizeAll_cons sent
    have after := ih (fun unit member => proper unit (mem_cons_of_mem _ member))
      (fun unit member => typed unit (mem_cons_of_mem _ member)) others
    have other := typed nal mem_cons_self
    have present := proper nal mem_cons_self
    cases nal with
    | nil => exact absurd rfl present
    | cons nalHeader body =>
      rcases packetizeNalUnit_ok whole first with ⟨_, rfl⟩ | ⟨size, room, _, long, rfl⟩
      · rw [singleton_append, depacketize_single present other, after]
        rfl
      · rw [depacketize_fragments (by omega), after]
        rfl

/-- The packets of a unit that does not fit lie together in the payloads. -/
theorem packetizeAll_infix (sent : packetizeAll mtu accessUnit = .ok payloads)
    (member : nal ∈ accessUnit) :
    ∃ packets, packetizeNalUnit nal mtu = .ok packets ∧ packets <:+: payloads := by
  induction accessUnit generalizing payloads with
  | nil => cases member
  | cons first rest ih =>
    obtain ⟨packets, later, now, others, rfl⟩ := packetizeAll_cons sent
    rcases mem_cons.mp member with same | after
    · rw [same]
      exact ⟨packets, now, (prefix_append packets later).isInfix⟩
    · obtain ⟨found, known, inside⟩ := ih others after
      exact ⟨found, known, inside.trans (suffix_append packets later).isInfix⟩

theorem packetizeAll_refused {error : MtuTooSmall}
    (refused : packetizeNalUnit nal mtu = .error error) (member : nal ∈ accessUnit) :
    ∃ first, packetizeAll mtu accessUnit = .error first := by
  cases sent : packetizeAll mtu accessUnit with
  | error first => exact ⟨first, rfl⟩
  | ok payloads =>
    obtain ⟨packets, known, _⟩ := packetizeAll_infix sent member
    rw [known] at refused
    cases refused

theorem fragmented {nalHeader : UInt8} {payload : Bytes} {packets : List Bytes} (whole : mtu.Whole)
    (sent : packetizeNalUnit (nalHeader :: payload) mtu = .ok packets)
    (large : ¬mtu.allows (payload.length + 1)) :
    ∃ first middle last, packets = first :: (middle ++ [last]) ∧
      (startsFragment first ∧ ¬endsFragment first) ∧
      (∀ packet ∈ middle, ¬startsFragment packet ∧ ¬endsFragment packet) ∧
      ¬startsFragment last ∧ endsFragment last := by
  rcases packetizeNalUnit_ok whole sent with ⟨fits, _⟩ | ⟨size, room, _, long, rfl⟩
  · exact absurd fits large
  · have begun : 0 + size < payload.length := by omega
    obtain ⟨middle, last, split, flags⟩ :=
      @fragments_flags nalHeader payload size room size room (by omega)
    obtain ⟨started, ended⟩ := fu_flags nalHeader true false
    refine ⟨fragment nalHeader true false (payload.take size), middle, last, ?_,
      ⟨started.mpr rfl, fun done => Bool.false_ne_true (ended.mp done)⟩, flags⟩
    rw [fragments_more begun, Nat.zero_add, split]
    rfl

theorem packetizeNalUnit_refused {bytes : ℚ} (small : bytes ≤ 2) (proper : nal ≠ [])
    (large : ¬Mtu.allows (.finite bytes) nal.length) :
    ∃ error, packetizeNalUnit nal (.finite bytes) = .error error := by
  cases nal with
  | nil => exact absurd rfl proper
  | cons nalHeader payload =>
    refine ⟨{ mtu := .finite bytes, nalLength := payload.length + 1 }, ?_⟩
    have tight : ¬FU_A_HEADER_BYTES < bytes := not_lt.mpr small
    unfold packetizeNalUnit
    dsimp only
    rw [if_neg large, dif_neg tight]
    rfl

/-- With an MTU of whole bytes, every payload fits, the receiver gets the units back, a fragmented
unit starts and ends once, and the marker is on the last payload; an MTU that cannot fragment is
refused. -/
theorem access_unit_round_trip {accessUnit : List Bytes} {mtu : Mtu} {units : List RtpPayloadUnit}
    (whole : mtu.Whole) (proper : ∀ nal ∈ accessUnit, nal ≠ [])
    (sent : packetizeAccessUnit accessUnit mtu = .ok units) :
    (∀ unit ∈ units, mtu.allows unit.payload.length) ∧
      ((∀ nal ∈ accessUnit, nal.headD 0 &&& 0x1f ≠ 28) →
        depacketize (units.map RtpPayloadUnit.payload) = some accessUnit) ∧
      (∀ nal ∈ accessUnit, ¬mtu.allows nal.length →
        ∃ first middle last, packetizeNalUnit nal mtu = .ok (first :: (middle ++ [last])) ∧
          first :: (middle ++ [last]) <:+: units.map RtpPayloadUnit.payload ∧
          (startsFragment first ∧ ¬endsFragment first) ∧
          (∀ packet ∈ middle, ¬startsFragment packet ∧ ¬endsFragment packet) ∧
          ¬startsFragment last ∧ endsFragment last) ∧
      (∀ index unit, units[index]? = some unit → (unit.marker = true ↔ index + 1 = units.length)) ∧
      ∀ (other : List Bytes) (bytes : ℚ), bytes ≤ 2 →
        (∃ nal ∈ other, nal ≠ [] ∧ ¬Mtu.allows (.finite bytes) nal.length) →
        ∃ error, packetizeAccessUnit other (.finite bytes) = .error error := by
  unfold packetizeAccessUnit at sent
  cases all : packetizeAll mtu accessUnit with
  | error error =>
    rw [all] at sent
    cases sent
  | ok payloads =>
    rw [all] at sent
    have made : payloads.mapIdx (fun index payload =>
        ({ payload, marker := index + 1 = payloads.length } : RtpPayloadUnit)) = units := by
      injection sent
    have carried : units.map RtpPayloadUnit.payload = payloads := by
      rw [← made]
      apply ext_getElem?
      intro index
      rw [getElem?_map, getElem?_mapIdx]
      cases payloads[index]? <;> rfl
    have count : units.length = payloads.length := by rw [← made, length_mapIdx]
    refine ⟨fun unit member => ?_, fun typed => ?_, fun nal member large => ?_,
      fun index unit found => ?_, fun other bytes small unfit => ?_⟩
    · exact packetizeAll_length whole all _ (carried ▸ mem_map_of_mem member)
    · rw [carried]
      exact depacketize_all whole proper typed all
    · obtain ⟨packets, known, inside⟩ := packetizeAll_infix all member
      cases nal with
      | nil => exact absurd rfl (proper [] member)
      | cons nalHeader payload =>
        obtain ⟨first, middle, last, split, flags⟩ := fragmented whole known large
        rw [carried]
        exact ⟨first, middle, last, split ▸ known, split ▸ inside, flags⟩
    · rw [count]
      rw [← made, getElem?_mapIdx] at found
      cases here : payloads[index]? with
      | none =>
        rw [here] at found
        cases found
      | some payload =>
        rw [here] at found
        injection found with same
        rw [← same]
        exact decide_eq_true_iff
    · obtain ⟨nal, member, present, large⟩ := unfit
      obtain ⟨error, refused⟩ := packetizeNalUnit_refused small present large
      obtain ⟨first, failed⟩ := packetizeAll_refused refused member
      refine ⟨first, ?_⟩
      unfold packetizeAccessUnit
      rw [failed]
      rfl

/-- A unit of two bytes and one of five, at an MTU of four. -/
theorem access_unit_round_trip_fragmented :
    packetizeAccessUnit [[0x67, 1], [0x65, 1, 2, 3, 4]] (.finite 4) =
        .ok [⟨[0x67, 1], false⟩, ⟨[0x7c, 0x85, 1, 2], false⟩, ⟨[0x7c, 0x45, 3, 4], true⟩] ∧
      depacketize [[0x67, 1], [0x7c, 0x85, 1, 2], [0x7c, 0x45, 3, 4]] =
        some [[0x67, 1], [0x65, 1, 2, 3, 4]] := by
  have four : (4 : ℚ) = (2 : Nat) + 2 := by norm_num
  have sent : packetizeAccessUnit [[0x67, 1], [0x65, 1, 2, 3, 4]] (.finite 4) =
      .ok [⟨[0x67, 1], false⟩, ⟨[0x7c, 0x85, 1, 2], false⟩, ⟨[0x7c, 0x45, 3, 4], true⟩] := by
    have parts : fragments 0x65 [1, 2, 3, 4] 2 (by decide) 0 =
        [[0x7c, 0x85, 1, 2], [0x7c, 0x45, 3, 4]] := by
      rw [fragments_more (by decide), fragments_last (by decide) (by decide)]
      decide
    have second : packetizeNalUnit [0x65, 1, 2, 3, 4] (.finite 4) =
        .ok [[0x7c, 0x85, 1, 2], [0x7c, 0x45, 3, 4]] := by
      rw [four, packetizeNalUnit_large (by decide) (by decide), parts]
    have first : packetizeNalUnit [0x67, 1] (.finite 4) = .ok [[0x67, 1]] := rfl
    unfold packetizeAccessUnit packetizeAll packetizeAll packetizeAll
    rw [first, second]
    rfl
  have whole : Mtu.Whole (.finite 4) := ⟨4, rfl⟩
  exact ⟨sent, (access_unit_round_trip whole (by decide) sent).2.1 (by decide)⟩

/-- A unit of five bytes at an MTU of three and a half: the second fragment has one byte too many. -/
theorem half_byte_exceeds_mtu : ∃ units,
    packetizeAccessUnit [[0x65, 1, 2, 3, 4]] (.finite (7 / 2)) = .ok units ∧
      ∃ unit ∈ units, ¬Mtu.allows (.finite (7 / 2)) unit.payload.length := by
  have parts (room : (0 : ℚ) < 3 / 2) : fragmentLoop [1, 2, 3, 4] 0x7c 5 (3 / 2) room 0 =
      [[0x7c, 0x85, 1], [0x7c, 5, 2, 3], [0x7c, 0x45, 4]] := by
    rw [fragmentLoop_more room (by decide +kernel) (by decide +kernel : _ = (3 / 2 : ℚ)),
      fragmentLoop_more room (by decide +kernel) (by decide +kernel : _ = (3 / 2 : ℚ)),
      fragmentLoop_more room (by decide +kernel) (by decide +kernel : _ = (1 : ℚ)), fragmentLoop,
      if_neg (by decide +kernel)]
    decide +kernel
  have sent : packetizeNalUnit [0x65, 1, 2, 3, 4] (.finite (7 / 2)) =
      .ok [[0x7c, 0x85, 1], [0x7c, 5, 2, 3], [0x7c, 0x45, 4]] := by
    have large : ¬Mtu.allows (.finite (7 / 2)) [(0x65 : UInt8), 1, 2, 3, 4].length := by
      decide +kernel
    have wide : FU_A_HEADER_BYTES < (7 / 2 : ℚ) := by decide +kernel
    have small : (7 / 2 : ℚ) - FU_A_HEADER_BYTES = 3 / 2 := by decide +kernel
    unfold packetizeNalUnit
    dsimp only
    rw [if_neg large, dif_pos wide]
    simp only [small]
    exact congrArg Except.ok (parts _)
  refine ⟨[⟨[0x7c, 0x85, 1], false⟩, ⟨[0x7c, 5, 2, 3], false⟩, ⟨[0x7c, 0x45, 4], true⟩], ?_,
    ⟨[0x7c, 5, 2, 3], false⟩, by simp, by decide +kernel⟩
  unfold packetizeAccessUnit packetizeAll packetizeAll
  rw [sent]
  rfl

end RoundTrip

end AutoMobile.Rtp
