import Mathlib
import AutoMobile.EmulatorPortReservations
import AutoMobile.ExclusiveHoldings

/- Which runs keep the reservations of the process apart. -/
namespace AutoMobile.EmulatorPorts

open List hiding keys
open ExclusiveHoldings InsertionMap Runs
open Function (update)

section Statement

/-- Where an outstanding reservation is kept. -/
inductive Place where
  | child (child : Nat)
  | pending (deviceId : String)
  | terminal (deviceId : String)
deriving DecidableEq, Repr

def ReservationState.at (state : ReservationState) : Place → Option EmulatorPortPair
  | .child child => (get? state.reservedLaunchDeviceIds child).map EmulatorDeviceIdReservation.ports
  | .pending deviceId =>
    (get? state.pendingLaunchDeviceIds deviceId).map EmulatorDeviceIdReservation.ports
  | .terminal deviceId =>
    (get? state.terminalReservedDeviceIds deviceId).map TerminalEmulatorReservation.ports

/-- The pairs share no port. -/
def EmulatorPortPair.Apart (first second : EmulatorPortPair) : Prop :=
  ∀ port ∈ first.both, port ∉ second.both

instance (first second : EmulatorPortPair) : Decidable (first.Apart second) :=
  inferInstanceAs (Decidable (∀ port ∈ first.both, port ∉ second.both))

/-- No two outstanding reservations share a port, and none has an excluded console port. -/
structure Outstanding (excludedPorts : List Nat) (state : ReservationState) : Prop where
  apart : Exclusive EmulatorPortPair.Apart state.at
  allowed : ∀ place ports, state.at place = some ports → ports.consolePort ∉ excludedPorts

/-- When the step prunes. -/
def Event.prunesAt : Event → Option Int
  | .add _ _ _ _ now | .probed _ _ now => some now
  | _ => none

/-- Every record is where it was, or this event is what ends or moves it. -/
structure Kept (before : ReservationState) (event : Event) (after : ReservationState) : Prop where
  pending : ∀ deviceId reservation, get? before.pendingLaunchDeviceIds deviceId = some reservation →
    get? after.pendingLaunchDeviceIds deviceId = some reservation ∨
      (event = .launch reservation.object ∧
        get? after.reservedLaunchDeviceIds reservation.object = some reservation) ∨
      event = .abandon reservation.object
  child : ∀ child reservation, get? before.reservedLaunchDeviceIds child = some reservation →
    get? after.reservedLaunchDeviceIds child = some reservation ∨
      ∃ now generation, event = .exited child now ∧
        get? after.terminalReservedDeviceIds reservation.deviceId =
          some { generation := generation, ports := reservation.ports, releasedAt := now }
  terminal : ∀ deviceId record, get? before.terminalReservedDeviceIds deviceId = some record →
    get? after.terminalReservedDeviceIds deviceId = some record ∨
      (∃ now, event.prunesAt = some now ∧ TERMINAL_RESERVATION_TTL_MS < now - record.releasedAt) ∨
      ∃ deviceIds captured seen, event = .confirmAbsent deviceIds captured ∧
        deviceId ∉ deviceIds ∧ (deviceId, seen) ∈ captured ∧ seen.generation = record.generation

/-- The pair whose host checks are being answered. -/
def Phase.probing : Phase → Option EmulatorPortPair
  | .asserting ports _ | .scanning ports _ => some ports
  | _ => none

/-- The pair that passed its last check and is not reserved yet. -/
def Phase.claim : Phase → Option EmulatorPortPair
  | .checked ports _ => some ports
  | _ => none

/-- When a pair is found free on the host, no other launch is past the last check of a pair that
shares a port with it and has not reserved that pair yet. -/
def Clear (state : ReservationState) : Event → Prop
  | .probed call (.available true) _ =>
    ∀ launch ∈ state.launches[call]?, ∀ ports ∈ launch.phase.probing,
      ∀ other ∈ state.launches, ∀ claim ∈ other.phase.claim, ports.Apart claim
  | _ => True

instance (state : ReservationState) : DecidablePred (Clear state)
  | .probed call (.available true) _ =>
    inferInstanceAs (Decidable (∀ launch ∈ state.launches[call]?,
      ∀ ports ∈ launch.phase.probing, ∀ other ∈ state.launches,
        ∀ claim ∈ other.phase.claim, ports.Apart claim))
  | .probed _ (.available false) _ | .probed _ .cancelled _ | .add .. | .reserve _ | .launch _
  | .abandon _ | .exited .. | .confirmAbsent .. => isTrue trivial

end Statement

section Pairs

theorem EmulatorPortPair.Apart.symm {first second : EmulatorPortPair}
    (apart : first.Apart second) : second.Apart first :=
  fun port here there => apart port there here

theorem EmulatorPortPair.Apart.consolePort_ne {first second : EmulatorPortPair}
    (apart : first.Apart second) : first.consolePort ≠ second.consolePort := by
  intro same
  apply apart first.consolePort (by simp [EmulatorPortPair.both])
  simp [EmulatorPortPair.both, same]

theorem emulatorDeviceIdForConsolePort_inj {first second : Nat}
    (same : emulatorDeviceIdForConsolePort first = emulatorDeviceIdForConsolePort second) :
    first = second := by
  unfold emulatorDeviceIdForConsolePort at same
  rw [String.append_right_inj] at same
  exact Nat.repr_injective same

end Pairs

section Holders

/-- A place of the records, or a launch whose own pair passed its last check. -/
inductive Holder where
  | place (place : Place)
  | claim (call : Nat)
deriving DecidableEq

def held (state : ReservationState) : Holder → Option EmulatorPortPair
  | .place place => state.at place
  | .claim call => state.launches[call]?.bind fun launch => launch.phase.claim

/-- The pairs that a launch may still reserve. -/
def Phase.candidates : Phase → List EmulatorPortPair
  | .asserting ports _ | .checked ports _ => [ports]
  | .scanning ports rest => ports :: rest
  | _ => []

theorem Phase.claim_candidate {phase : Phase} {ports : EmulatorPortPair}
    (claim : phase.claim = some ports) : ports ∈ phase.candidates := by
  cases phase <;> simp_all [Phase.claim, Phase.candidates]

def EmulatorDeviceIdReservation.Named (reservation : EmulatorDeviceIdReservation) : Prop :=
  reservation.deviceId = emulatorDeviceIdForConsolePort reservation.ports.consolePort

/-- The invariant of runs whose steps are clear. -/
structure Sound (excludedPorts : List Nat) (state : ReservationState) : Prop where
  apart : Exclusive EmulatorPortPair.Apart (held state)
  allowed : ∀ holder ports, held state holder = some ports → ports.consolePort ∉ excludedPorts
  candidates : ∀ (call : Nat) (launch : Launch), state.launches[call]? = some launch →
    ∀ ports ∈ launch.phase.candidates, ports.consolePort ∉ excludedPorts
  pending : ∀ deviceId reservation, get? state.pendingLaunchDeviceIds deviceId = some reservation →
      reservation.deviceId = deviceId ∧ reservation.Named
  child : ∀ child reservation, get? state.reservedLaunchDeviceIds child = some reservation →
    reservation.Named ∧ ∃ launch, state.launches[child]? = some launch ∧ launch.phase = .launched
  terminal : ∀ deviceId record, get? state.terminalReservedDeviceIds deviceId = some record →
    deviceId = emulatorDeviceIdForConsolePort record.ports.consolePort
  holding : ∀ (call : Nat) (launch : Launch) reservation, state.launches[call]? = some launch →
    launch.phase = .holding reservation → reservation.object = call ∧
      get? state.pendingLaunchDeviceIds reservation.deviceId = some reservation
  distinct : (keys state.terminalReservedDeviceIds).Nodup

variable {excludedPorts : List Nat} {state after : ReservationState}

theorem Sound.outstanding (sound : Sound excludedPorts state) :
    Outstanding excludedPorts state := by
  refine ⟨?_, fun place ports here => sound.allowed (.place place) ports here⟩
  intro one other first second here there apart
  exact sound.apart (.place one) (.place other) first second here there
    (fun same => apart (Holder.place.inj same))

theorem Sound.start : Sound excludedPorts {} := by
  have nothing : ∀ holder, held {} holder = none := by
    intro holder
    rcases holder with (child | deviceId | deviceId) | call <;> rfl
  refine ⟨?_, ?_, ?_, ?_, ?_, ?_, ?_, nodup_nil⟩
  · intro one other first second here
    rw [nothing] at here
    cases here
  · intro holder ports here
    rw [nothing] at here
    cases here
  all_goals simp [get?]

/-- Terminal records may go. -/
theorem Sound.withTerminals (sound : Sound excludedPorts state)
    {terminals : InsertionMap String TerminalEmulatorReservation}
    (fewer : ∀ deviceId record, get? terminals deviceId = some record →
      get? state.terminalReservedDeviceIds deviceId = some record)
    (distinct : (keys terminals).Nodup) :
    Sound excludedPorts { state with terminalReservedDeviceIds := terminals } := by
  have before : ∀ holder ports,
      held { state with terminalReservedDeviceIds := terminals } holder = some ports →
        held state holder = some ports := by
    intro holder ports here
    rcases holder with (child | deviceId | deviceId) | call
    case place.terminal =>
      obtain ⟨record, found, same⟩ := Option.map_eq_some_iff.mp here
      exact Option.map_eq_some_iff.mpr ⟨record, fewer deviceId record found, same⟩
    all_goals exact here
  refine ⟨sound.apart.fewer before, ?_, sound.candidates, sound.pending, sound.child, ?_,
    sound.holding, distinct⟩
  · exact fun holder ports here => sound.allowed holder ports (before holder ports here)
  · exact fun deviceId record found => sound.terminal deviceId record (fewer deviceId record found)

theorem held_relaunch {call : Nat} {launch next : Launch}
    (there : state.launches[call]? = some launch) :
    held { state with launches := state.launches.set call next } =
      update (held state) (.claim call) next.phase.claim := by
  funext holder
  cases holder with
  | place place => rw [Function.update_of_ne (by simp)]; rfl
  | claim other =>
    by_cases same : other = call
    · subst same
      have inside := (List.getElem?_eq_some_iff.mp there).1
      simp [held, inside]
    · rw [Function.update_of_ne (fun equal => same (Holder.claim.inj equal))]
      have elsewhere : call ≠ other := fun equal => same equal.symm
      simp [held, elsewhere]

/-- A launch is as before, or the one that was written. -/
theorem of_relaunched {launches : List Launch} {call other : Nat} {next found : Launch}
    (here : (launches.set call next)[other]? = some found) :
    other = call ∧ found = next ∨ other ≠ call ∧ launches[other]? = some found := by
  by_cases same : other = call
  · subst same
    have inside : other < (launches.set other next).length := (List.getElem?_eq_some_iff.mp here).1
    rw [getElem?_set_self (by simpa using inside)] at here
    exact Or.inl ⟨rfl, (Option.some.inj here).symm⟩
  · rw [getElem?_set_ne (Ne.symm same)] at here
    exact Or.inr ⟨same, here⟩

/-- A launch that has not spawned goes on. It holds a reservation that is pending, or none; a pair
that passed its last check is apart from all that is held. -/
theorem Sound.relaunch (sound : Sound excludedPorts state) {call : Nat} {launch next : Launch}
    (there : state.launches[call]? = some launch)
    (unlaunched : launch.phase ≠ .launched)
    (holds : ∀ reservation, next.phase = .holding reservation → reservation.object = call ∧
      get? state.pendingLaunchDeviceIds reservation.deviceId = some reservation)
    (candidates : ∀ ports ∈ next.phase.candidates, ports.consolePort ∉ excludedPorts)
    (free : ∀ ports, next.phase.claim = some ports → ∀ holder other, holder ≠ .claim call →
      held state holder = some other → ports.Apart other) :
    Sound excludedPorts { state with launches := state.launches.set call next } := by
  refine ⟨?_, ?_, ?_, sound.pending, ?_, sound.terminal, ?_, sound.distinct⟩
  · rw [held_relaunch there]
    cases claim : next.phase.claim with
    | none => exact sound.apart.release _
    | some ports =>
      apply sound.apart.grant
      intro holder other elsewhere here
      have apart := free ports claim holder other elsewhere here
      exact ⟨apart, apart.symm⟩
  · intro holder ports here
    rw [held_relaunch there] at here
    cases claim : next.phase.claim with
    | none =>
      rw [claim] at here
      exact sound.allowed holder ports (update_none_holds here).2
    | some taken =>
      rw [claim] at here
      rcases update_some_holds here with rfl | before
      · exact candidates ports (Phase.claim_candidate claim)
      · exact sound.allowed holder ports before
  · intro other found here
    rcases of_relaunched here with ⟨_, rfl⟩ | ⟨_, before⟩
    · exact candidates
    · exact sound.candidates other found before
  · intro child reservation found
    obtain ⟨named, spawned, here, launched⟩ := sound.child child reservation found
    have apart : call ≠ child := by
      rintro rfl
      rw [there] at here
      cases here
      exact unlaunched launched
    refine ⟨named, spawned, ?_, launched⟩
    rw [getElem?_set_ne apart]
    exact here
  · intro other found reservation here holding
    rcases of_relaunched here with ⟨rfl, rfl⟩ | ⟨_, before⟩
    · exact holds reservation holding
    · exact sound.holding other found reservation before holding

theorem Sound.append (sound : Sound excludedPorts state) {launch : Launch}
    (ended : launch.phase = .ended) :
    Sound excludedPorts { state with launches := state.launches ++ [launch] } := by
  have appended : ∀ (call : Nat) (found : Launch),
      (state.launches ++ [launch])[call]? = some found →
        state.launches[call]? = some found ∨ found = launch := by
    intro call found here
    rw [getElem?_append] at here
    split at here
    · exact Or.inl here
    · right
      rw [getElem?_singleton] at here
      split at here
      · exact (Option.some.inj here).symm
      · cases here
  have before : ∀ holder ports,
      held { state with launches := state.launches ++ [launch] } holder = some ports →
        held state holder = some ports := by
    intro holder ports here
    cases holder with
    | place place => exact here
    | claim call =>
      obtain ⟨found, there, claim⟩ := Option.bind_eq_some_iff.mp here
      rcases appended call found there with before | rfl
      · exact Option.bind_eq_some_iff.mpr ⟨found, before, claim⟩
      · rw [ended] at claim
        cases claim
  refine ⟨sound.apart.fewer before, ?_, ?_, sound.pending, ?_, sound.terminal, ?_, sound.distinct⟩
  · exact fun holder ports here => sound.allowed holder ports (before holder ports here)
  · intro call found here ports member
    rcases appended call found here with before | rfl
    · exact sound.candidates call found before ports member
    · rw [ended] at member
      cases member
  · intro child reservation found
    obtain ⟨named, spawned, here, launched⟩ := sound.child child reservation found
    refine ⟨named, spawned, ?_, launched⟩
    rw [getElem?_append_left (List.getElem?_eq_some_iff.mp here).1]
    exact here
  · intro call found reservation here holding
    rcases appended call found here with before | rfl
    · exact sound.holding call found reservation before holding
    · rw [ended] at holding
      cases holding

/-- Only one of the places is written. -/
theorem held_update {holder : Holder} {ports : Option EmulatorPortPair}
    (own : held after holder = ports)
    (others : ∀ other, other ≠ holder → held after other = held state other) :
    held after = update (held state) holder ports := by
  funext other
  by_cases same : other = holder
  · rw [same, own, Function.update_self]
  · rw [others other same, Function.update_of_ne same]

theorem held_putPending (state : ReservationState) (deviceId : String)
    (reservation : EmulatorDeviceIdReservation) :
    held { state with
        pendingLaunchDeviceIds := put state.pendingLaunchDeviceIds deviceId reservation } =
      update (held state) (.place (.pending deviceId)) (some reservation.ports) := by
  apply held_update (by simp [held, ReservationState.at])
  rintro ((other | other | other) | call) apart
  case place.pending =>
    have elsewhere : deviceId ≠ other := fun same => apart (same ▸ rfl)
    simp [held, ReservationState.at, get?_put, elsewhere]
  all_goals rfl

theorem held_erasePending (state : ReservationState) (deviceId : String) : held { state with
        pendingLaunchDeviceIds := erase state.pendingLaunchDeviceIds deviceId } =
      update (held state) (.place (.pending deviceId)) none := by
  apply held_update (by simp [held, ReservationState.at, get?_erase])
  rintro ((other | other | other) | call) apart
  case place.pending =>
    have elsewhere : deviceId ≠ other := fun same => apart (same ▸ rfl)
    simp [held, ReservationState.at, get?_erase, elsewhere]
  all_goals rfl

theorem held_putChild (state : ReservationState) (child : Nat)
    (reservation : EmulatorDeviceIdReservation) :
    held { state with
        reservedLaunchDeviceIds := put state.reservedLaunchDeviceIds child reservation } =
      update (held state) (.place (.child child)) (some reservation.ports) := by
  apply held_update (by simp [held, ReservationState.at])
  rintro ((other | other | other) | call) apart
  case place.child =>
    have elsewhere : child ≠ other := fun same => apart (same ▸ rfl)
    simp [held, ReservationState.at, get?_put, elsewhere]
  all_goals rfl

theorem held_eraseChild (state : ReservationState) (child : Nat) : held { state with
        reservedLaunchDeviceIds := erase state.reservedLaunchDeviceIds child } =
      update (held state) (.place (.child child)) none := by
  apply held_update (by simp [held, ReservationState.at, get?_erase])
  rintro ((other | other | other) | call) apart
  case place.child =>
    have elsewhere : child ≠ other := fun same => apart (same ▸ rfl)
    simp [held, ReservationState.at, get?_erase, elsewhere]
  all_goals rfl

theorem held_putTerminal (state : ReservationState) (deviceId : String)
    (record : TerminalEmulatorReservation) (generation : Nat) :
    held { state with
        terminalReservedDeviceIds := put state.terminalReservedDeviceIds deviceId record
        terminalReservationGeneration := generation } =
      update (held state) (.place (.terminal deviceId)) (some record.ports) := by
  apply held_update (by simp [held, ReservationState.at])
  rintro ((other | other | other) | call) apart
  case place.terminal =>
    have elsewhere : deviceId ≠ other := fun same => apart (same ▸ rfl)
    simp [held, ReservationState.at, get?_put, elsewhere]
  all_goals rfl

/-- No record is pending under the serial of a pair that is apart from all that is held. -/
theorem Sound.fresh (sound : Sound excludedPorts state) {call : Nat} {ports : EmulatorPortPair}
    (free : ∀ holder other, holder ≠ .claim call → held state holder = some other →
      ports.Apart other) :
    get? state.pendingLaunchDeviceIds (emulatorDeviceIdForConsolePort ports.consolePort) = none := by
  cases found : get? state.pendingLaunchDeviceIds
      (emulatorDeviceIdForConsolePort ports.consolePort) with
  | none => rfl
  | some reservation =>
    obtain ⟨keyed, named⟩ := sound.pending _ reservation found
    have here : held state
        (.place (.pending (emulatorDeviceIdForConsolePort ports.consolePort))) =
          some reservation.ports := by
      simp [held, ReservationState.at, found]
    have apart := (free _ _ (by simp) here).consolePort_ne
    exact absurd (emulatorDeviceIdForConsolePort_inj (keyed.symm.trans named)) apart

/-- A pair that is apart from all that is held gets a pending record. -/
theorem Sound.putPending (sound : Sound excludedPorts state)
    {reservation : EmulatorDeviceIdReservation} (named : reservation.Named)
    (allowed : reservation.ports.consolePort ∉ excludedPorts)
    (fresh : get? state.pendingLaunchDeviceIds reservation.deviceId = none)
    (free : ∀ holder other, held state holder = some other → reservation.ports.Apart other) :
    Sound excludedPorts { state with
      pendingLaunchDeviceIds :=
        put state.pendingLaunchDeviceIds reservation.deviceId reservation } := by
  refine ⟨?_, ?_, sound.candidates, ?_, sound.child, sound.terminal, ?_, sound.distinct⟩
  · rw [held_putPending]
    apply sound.apart.grant
    intro holder other _ here
    have apart := free holder other here
    exact ⟨apart, apart.symm⟩
  · intro holder ports here
    rw [held_putPending] at here
    rcases update_some_holds here with rfl | before
    · exact allowed
    · exact sound.allowed holder ports before
  · intro deviceId other here
    rcases of_get?_put here with ⟨same, rfl⟩ | ⟨_, before⟩
    · exact ⟨same, named⟩
    · exact sound.pending deviceId other before
  · intro call launch other there holding
    obtain ⟨owner, stored⟩ := sound.holding call launch other there holding
    refine ⟨owner, ?_⟩
    rw [get?_put_of_ne]
    · exact stored
    · intro same
      rw [← same, fresh] at stored
      cases stored

/-- A launch that reserves takes its pair to a pending reservation: its own claim, or a pair that
is apart from all that is held. -/
theorem Sound.reservePending (sound : Sound excludedPorts state) {call : Nat} {launch : Launch}
    (there : state.launches[call]? = some launch) (unlaunched : launch.phase ≠ .launched)
    {ports : EmulatorPortPair} (candidate : ports ∈ launch.phase.candidates)
    (free : ∀ holder other, holder ≠ .claim call → held state holder = some other →
      ports.Apart other) (appendPort : Bool) :
    Sound excludedPorts
      (reservePendingEmulatorDeviceId state call launch ports appendPort).1 := by
  have allowed := sound.candidates call launch there ports candidate
  have fresh := sound.fresh free
  have inside := (List.getElem?_eq_some_iff.mp there).1
  -- the claim is given up, the record is put, and then the launch holds it
  let idle : Launch := { launch with phase := .ended }
  have ended : Sound excludedPorts { state with launches := state.launches.set call idle } :=
    sound.relaunch there unlaunched (by simp [idle]) (by simp [idle, Phase.candidates])
      (by simp [idle, Phase.claim])
  have apart : ∀ holder other,
      held { state with launches := state.launches.set call idle } holder = some other →
        ports.Apart other := by
    intro holder other here
    rw [held_relaunch there] at here
    obtain ⟨elsewhere, here⟩ := update_none_holds here
    exact free holder other elsewhere here
  have recorded := @Sound.putPending _ _ ended (reservationFor call launch.avdName ports appendPort)
    rfl allowed fresh apart
  have again : (state.launches.set call idle)[call]? = some idle := by simp [inside]
  unfold reservePendingEmulatorDeviceId
  dsimp only
  rw [← List.set_set idle]
  apply recorded.relaunch again (by simp [idle])
  · intro reservation holding
    cases holding
    exact ⟨rfl, get?_put_self _ _ _⟩
  · simp [Phase.candidates]
  · simp [Phase.claim]

/-- No launch holds the record that is pending under the serial. -/
def Unheld (state : ReservationState) (deviceId : String) : Prop :=
  ∀ (call : Nat) (launch : Launch) reservation, state.launches[call]? = some launch →
    launch.phase = .holding reservation → reservation.deviceId ≠ deviceId

theorem Sound.unheld (sound : Sound excludedPorts state) {call : Nat} {launch next : Launch}
    {reservation : EmulatorDeviceIdReservation} (there : state.launches[call]? = some launch)
    (holding : launch.phase = .holding reservation)
    (released : ∀ other, next.phase ≠ .holding other) :
    Unheld { state with launches := state.launches.set call next } reservation.deviceId := by
  obtain ⟨object, found⟩ := sound.holding call launch reservation there holding
  intro other kept held here holds same
  rcases of_relaunched here with ⟨_, rfl⟩ | ⟨elsewhere, before⟩
  · exact released held holds
  · obtain ⟨owner, stored⟩ := sound.holding other kept held before holds
    rw [same, found] at stored
    cases stored
    exact elsewhere (owner.symm.trans object)

theorem Sound.erasePending (sound : Sound excludedPorts state) {deviceId : String}
    (unheld : Unheld state deviceId) :
    Sound excludedPorts { state with
      pendingLaunchDeviceIds := erase state.pendingLaunchDeviceIds deviceId } := by
  refine ⟨?_, ?_, sound.candidates, ?_, sound.child, sound.terminal, ?_, sound.distinct⟩
  · rw [held_erasePending]
    exact sound.apart.release _
  · intro holder ports here
    rw [held_erasePending] at here
    exact sound.allowed holder ports (update_none_holds here).2
  · exact fun other reservation found => sound.pending other reservation (of_get?_erase found).2
  · intro call launch reservation there holding
    have apart := unheld call launch reservation there holding
    obtain ⟨object, found⟩ := sound.holding call launch reservation there holding
    refine ⟨object, ?_⟩
    rw [get?_erase, if_neg apart.symm]
    exact found

/-- A pending record moves to a child that has spawned. -/
theorem Sound.putChild (sound : Sound excludedPorts state) {child : Nat} {spawned : Launch}
    {reservation : EmulatorDeviceIdReservation}
    (found : get? state.pendingLaunchDeviceIds reservation.deviceId = some reservation)
    (unheld : Unheld state reservation.deviceId)
    (there : state.launches[child]? = some spawned) (launched : spawned.phase = .launched) :
    Sound excludedPorts { state with
      pendingLaunchDeviceIds := erase state.pendingLaunchDeviceIds reservation.deviceId
      reservedLaunchDeviceIds := put state.reservedLaunchDeviceIds child reservation } := by
  have erased := sound.erasePending unheld
  have places : held { state with
        pendingLaunchDeviceIds := erase state.pendingLaunchDeviceIds reservation.deviceId
        reservedLaunchDeviceIds := put state.reservedLaunchDeviceIds child reservation } =
      update (update (held state) (.place (.pending reservation.deviceId)) none)
        (.place (.child child)) (some reservation.ports) := by
    rw [← held_erasePending]
    exact held_putChild { state with
      pendingLaunchDeviceIds := erase state.pendingLaunchDeviceIds reservation.deviceId }
      child reservation
  have here : held state (.place (.pending reservation.deviceId)) = some reservation.ports := by
    simp [held, ReservationState.at, found]
  refine ⟨?_, ?_, sound.candidates, erased.pending, ?_, sound.terminal, erased.holding,
    sound.distinct⟩
  · rw [places]
    exact sound.apart.move here _
  · intro holder ports taken
    rw [places] at taken
    rcases update_some_holds taken with rfl | before
    · exact sound.allowed _ _ here
    · exact sound.allowed holder ports (update_none_holds before).2
  · intro other kept stored
    rcases of_get?_put stored with ⟨same, rfl⟩ | ⟨_, before⟩
    · exact ⟨(sound.pending _ _ found).2, spawned, same ▸ there, launched⟩
    · exact sound.child other kept before

/-- The record of a child becomes a terminal record. -/
theorem Sound.putTerminal (sound : Sound excludedPorts state) {child : Nat}
    {reservation : EmulatorDeviceIdReservation}
    (found : get? state.reservedLaunchDeviceIds child = some reservation)
    (record : TerminalEmulatorReservation) (same : record.ports = reservation.ports)
    (generation : Nat) :
    Sound excludedPorts { state with
      reservedLaunchDeviceIds := erase state.reservedLaunchDeviceIds child
      terminalReservedDeviceIds := put state.terminalReservedDeviceIds reservation.deviceId record
      terminalReservationGeneration := generation } := by
  have places : held { state with
        reservedLaunchDeviceIds := erase state.reservedLaunchDeviceIds child
        terminalReservedDeviceIds := put state.terminalReservedDeviceIds reservation.deviceId record
        terminalReservationGeneration := generation } =
      update (update (held state) (.place (.child child)) none)
        (.place (.terminal reservation.deviceId)) (some reservation.ports) := by
    rw [← held_eraseChild, ← same]
    exact held_putTerminal { state with
      reservedLaunchDeviceIds := erase state.reservedLaunchDeviceIds child }
      reservation.deviceId record generation
  have here : held state (.place (.child child)) = some reservation.ports := by
    simp [held, ReservationState.at, found]
  refine ⟨?_, ?_, sound.candidates, sound.pending, ?_, ?_, sound.holding,
    nodup_keys_put sound.distinct _ _⟩
  · rw [places]
    exact sound.apart.move here _
  · intro holder ports taken
    rw [places] at taken
    rcases update_some_holds taken with rfl | before
    · exact sound.allowed _ _ here
    · exact sound.allowed holder ports (update_none_holds before).2
  · exact fun other kept stored => sound.child other kept (of_get?_erase stored).2
  · intro deviceId kept stored
    rcases of_get?_put stored with ⟨keyed, rfl⟩ | ⟨_, before⟩
    · rw [← keyed, same]
      exact (sound.child child reservation found).1
    · exact sound.terminal deviceId kept before

end Holders

section Steps

variable {number : String → Option Nat} {excludedPorts : List Nat}
  {before state after : ReservationState} {event : Event} {now : Int}

theorem get?_releaseIfAbsent {deviceIds : List String} (entry : String × TerminalEmulatorReservation)
    (terminals : InsertionMap String TerminalEmulatorReservation) (deviceId : String) :
    get? (releaseIfAbsent deviceIds terminals entry) deviceId = get? terminals deviceId ∨
      (get? (releaseIfAbsent deviceIds terminals entry) deviceId = none ∧ entry.1 = deviceId ∧
        deviceId ∉ deviceIds ∧ ∀ record, get? terminals deviceId = some record →
          record.generation = entry.2.generation) := by
  unfold releaseIfAbsent
  split
  next absent =>
    rw [get?_erase]
    split
    next same =>
      right
      rw [Bool.and_eq_true, same] at absent
      refine ⟨rfl, same, by simpa using absent.1, ?_⟩
      intro record found
      simpa [found] using absent.2
    next => exact Or.inl rfl
  next => exact Or.inl rfl

/-- What the loop drops is absent, and of the generation that was captured. -/
theorem get?_released {deviceIds : List String}
    {captured terminals : InsertionMap String TerminalEmulatorReservation} {deviceId : String}
    {record : TerminalEmulatorReservation} (found : get? terminals deviceId = some record) :
    get? (captured.foldl (releaseIfAbsent deviceIds) terminals) deviceId = some record ∨
      deviceId ∉ deviceIds ∧
        ∃ seen, (deviceId, seen) ∈ captured ∧ seen.generation = record.generation := by
  induction captured generalizing terminals with
  | nil => exact Or.inl found
  | cons entry rest ih =>
    rw [List.foldl_cons]
    rcases get?_releaseIfAbsent entry terminals deviceId with same | ⟨_, here, absent, seen⟩
    · rcases ih (same.trans found) with kept | ⟨absent, seen, member, generation⟩
      · exact Or.inl kept
      · exact Or.inr ⟨absent, seen, List.mem_cons_of_mem _ member, generation⟩
    · right
      subst here
      exact ⟨absent, entry.2, List.mem_cons_self, (seen record found).symm⟩

theorem get?_of_released {deviceIds : List String}
    {captured terminals : InsertionMap String TerminalEmulatorReservation} {deviceId : String}
    {record : TerminalEmulatorReservation}
    (found : get? (captured.foldl (releaseIfAbsent deviceIds) terminals) deviceId = some record) :
    get? terminals deviceId = some record := by
  induction captured generalizing terminals with
  | nil => exact found
  | cons entry rest ih =>
    have later := ih found
    rcases get?_releaseIfAbsent entry terminals deviceId with same | ⟨gone, _⟩
    · rw [← same]
      exact later
    · rw [gone] at later
      cases later

theorem nodup_keys_released {deviceIds : List String}
    {captured terminals : InsertionMap String TerminalEmulatorReservation}
    (distinct : (keys terminals).Nodup) :
    (keys (captured.foldl (releaseIfAbsent deviceIds) terminals)).Nodup := by
  induction captured generalizing terminals with
  | nil => exact distinct
  | cons entry rest ih =>
    apply ih
    unfold releaseIfAbsent
    split
    · exact nodup_keys_erase distinct _
    · exact distinct

/-- A pair that is free among the unavailable ports shares no port with an outstanding one. -/
theorem Apart.of_freeIn {ports : EmulatorPortPair} {preexistingDeviceIds : List String}
    (free : ports.freeIn (unavailableEmulatorPorts number state preexistingDeviceIds) = true)
    {place : Place} {other : EmulatorPortPair} (here : state.at place = some other) :
    ports.Apart other := by
  have unavailable : ∀ port ∈ other.both,
      port ∈ unavailableEmulatorPorts number state preexistingDeviceIds := by
    intro port member
    simp only [unavailableEmulatorPorts, List.mem_append, List.mem_flatMap]
    cases place with
    | child child =>
      obtain ⟨reservation, found, same⟩ := Option.map_eq_some_iff.mp here
      have stored : reservation ∈ values state.reservedLaunchDeviceIds :=
        List.mem_map_of_mem (mem_of_get? found)
      exact Or.inl (Or.inl (Or.inr ⟨reservation, stored, same ▸ member⟩))
    | pending deviceId =>
      obtain ⟨reservation, found, same⟩ := Option.map_eq_some_iff.mp here
      have stored : reservation ∈ values state.pendingLaunchDeviceIds :=
        List.mem_map_of_mem (mem_of_get? found)
      exact Or.inl (Or.inr ⟨reservation, stored, same ▸ member⟩)
    | terminal deviceId =>
      obtain ⟨record, found, same⟩ := Option.map_eq_some_iff.mp here
      have stored : record ∈ values state.terminalReservedDeviceIds :=
        List.mem_map_of_mem (mem_of_get? found)
      exact Or.inr ⟨record, stored, same ▸ member⟩
  intro port own shared
  have taken := unavailable port shared
  simp only [EmulatorPortPair.freeIn, Bool.and_eq_true, Bool.not_eq_true',
    List.contains_eq_mem, decide_eq_false_iff_not] at free
  simp only [EmulatorPortPair.both, List.mem_cons, List.not_mem_nil, or_false] at own
  rcases own with rfl | rfl
  · exact free.1 taken
  · exact free.2 taken

theorem apart_of_free {ports : EmulatorPortPair} {preexistingDeviceIds : List String}
    (free : ports.freeIn (unavailableEmulatorPorts number state preexistingDeviceIds) = true)
    (clear : ∀ other ∈ state.launches, ∀ claim ∈ other.phase.claim, ports.Apart claim)
    {holder : Holder} {other : EmulatorPortPair} (here : held state holder = some other) :
    ports.Apart other := by
  cases holder with
  | place place => exact Apart.of_freeIn free here
  | claim call =>
    obtain ⟨launch, there, claim⟩ := Option.bind_eq_some_iff.mp here
    exact clear launch (List.mem_of_getElem? there) other claim

/-- The maps are as before, but for terminal records past their time. -/
structure Pruned (now : Int) (before after : ReservationState) : Prop where
  children : after.reservedLaunchDeviceIds = before.reservedLaunchDeviceIds
  pending : after.pendingLaunchDeviceIds = before.pendingLaunchDeviceIds
  terminal : ∀ deviceId record, get? before.terminalReservedDeviceIds deviceId = some record →
    get? after.terminalReservedDeviceIds deviceId = some record ∨
      TERMINAL_RESERVATION_TTL_MS < now - record.releasedAt

/-- A call that reserves nothing has left a sound state, in which the maps are pruned at most. -/
structure Quiet (excludedPorts : List Nat) (now : Int) (before after : ReservationState) : Prop where
  sound : Sound excludedPorts after
  pruned : Pruned now before after

theorem Sound.quiet (sound : Sound excludedPorts state) : Quiet excludedPorts now state state :=
  ⟨sound, rfl, rfl, fun _ _ found => Or.inl found⟩

theorem Quiet.prune (quiet : Quiet excludedPorts now before state)
    (snapshot : Option EmulatorDeviceIdSnapshot) :
    Quiet excludedPorts now before (pruneExpiredTerminalReservations state snapshot now) := by
  have distinct := quiet.sound.distinct
  refine ⟨?_, quiet.pruned.children, quiet.pruned.pending, ?_⟩
  · apply quiet.sound.withTerminals
    · intro deviceId record found
      rw [get?_filter distinct] at found
      exact (Option.filter_eq_some_iff.mp found).1
    · exact (List.filter_sublist.map Prod.fst).nodup distinct
  · intro deviceId record found
    rcases quiet.pruned.terminal deviceId record found with kept | old
    · unfold pruneExpiredTerminalReservations
      rw [get?_filter distinct, kept]
      by_cases old : TERMINAL_RESERVATION_TTL_MS < now - record.releasedAt
      · exact Or.inr old
      · left
        have recent : decide (now - record.releasedAt ≤ TERMINAL_RESERVATION_TTL_MS) = true :=
          decide_eq_true (by omega)
        rw [Option.filter_some, recent, Bool.or_true, if_pos rfl]
    · exact Or.inr old

section Launches

variable {call : Nat} {launch : Launch} (quiet : Quiet excludedPorts now before state)
  (there : state.launches[call]? = some launch) (unlaunched : launch.phase ≠ .launched)
include quiet there unlaunched

/-- A launch goes on; a pair that passed its last check is apart from all that is held. -/
theorem Quiet.setPhase {phase : Phase} (unheld : ∀ reservation, phase ≠ .holding reservation)
    (candidates : ∀ ports ∈ phase.candidates, ports.consolePort ∉ excludedPorts)
    (free : ∀ ports ∈ phase.claim, ∀ holder other, holder ≠ .claim call →
      held state holder = some other → ports.Apart other) :
    Quiet excludedPorts now before (state.setPhase call launch phase) := by
  refine ⟨?_, quiet.pruned.children, quiet.pruned.pending, quiet.pruned.terminal⟩
  apply quiet.sound.relaunch there unlaunched _ candidates free
  exact fun reservation holding => absurd holding (unheld reservation)

theorem Quiet.reject (error : ReservationError) :
    Quiet excludedPorts now before (state.reject call launch error).1 :=
  quiet.setPhase there unlaunched (by simp) (by simp [Phase.candidates]) (by simp [Phase.claim])

theorem Quiet.scan {rest : List EmulatorPortPair}
    (candidates : ∀ ports ∈ rest, ports.consolePort ∉ excludedPorts) :
    Quiet excludedPorts now before (scan excludedPorts state call launch rest).1 := by
  cases rest with
  | nil => exact quiet.reject there unlaunched _
  | cons ports rest => exact quiet.setPhase there unlaunched (by simp) candidates (by simp [Phase.claim])

theorem Quiet.automatic : Quiet excludedPorts now before
      (reserveAutomaticEmulatorDeviceId number excludedPorts state call launch now).1 := by
  unfold reserveAutomaticEmulatorDeviceId
  split
  next snapshot _ =>
    apply (quiet.prune (some snapshot)).scan there unlaunched
    intro ports member
    have passes := (List.mem_filter.mp member).2
    rw [Bool.and_eq_true] at passes
    simpa using passes.1
  next =>
    split
    · exact quiet.reject there unlaunched _
    · exact quiet.setPhase there unlaunched (by simp) (by simp [Phase.candidates])
        (by simp [Phase.claim])

theorem Quiet.assert (ports : EmulatorPortPair) (appendPort : Bool) : Quiet excludedPorts now before
      (assertEmulatorPortsAvailable number excludedPorts state call launch ports appendPort
        now).1 := by
  unfold assertEmulatorPortsAvailable assertEmulatorPortsNotReserved
  have pruned := quiet.prune launch.preLaunchSnapshot
  split
  · exact quiet.reject there unlaunched _
  next allowed =>
    dsimp only
    by_cases free : ports.freeIn (unavailableEmulatorPorts number
        (pruneExpiredTerminalReservations state launch.preLaunchSnapshot now)
        (snapshotIds launch.preLaunchSnapshot)) = true
    · rw [if_pos free]
      apply pruned.setPhase there unlaunched (by simp) _ (by simp [Phase.claim])
      intro candidate member
      obtain rfl := List.mem_singleton.mp member
      simpa using allowed
    · rw [if_neg free]
      exact pruned.reject there unlaunched _

theorem Quiet.add (expectedDeviceId : Option String) : Quiet excludedPorts now before
      (reserveEmulatorDeviceId number excludedPorts state call launch expectedDeviceId now).1 := by
  have pruned := quiet.prune launch.preLaunchSnapshot
  unfold reserveEmulatorDeviceId
  split
  · exact quiet.reject there unlaunched _
  next =>
    split
    · exact quiet.setPhase there unlaunched (by simp) (by simp [Phase.candidates])
        (by simp [Phase.claim])
    next =>
      split
      · exact quiet.reject there unlaunched _
      next =>
        split
        · split
          · exact quiet.reject there unlaunched _
          · exact pruned.assert there unlaunched _ _
        · exact pruned.assert there unlaunched _ _
        · exact pruned.assert there unlaunched _ _
        · exact quiet.automatic there unlaunched

end Launches

/-- What a step leaves: a sound state, and every record where it was unless its own event came. -/
structure Stepped (excludedPorts : List Nat) (before : ReservationState) (event : Event)
    (after : ReservationState) : Prop where
  sound : Sound excludedPorts after
  kept : Kept before event after

theorem Kept.refl (state : ReservationState) (event : Event) : Kept state event state :=
  ⟨fun _ _ found => Or.inl found, fun _ _ found => Or.inl found, fun _ _ found => Or.inl found⟩

theorem Sound.stay (sound : Sound excludedPorts state) : Stepped excludedPorts state event state :=
  ⟨sound, Kept.refl state event⟩

/-- Pruning comes before the rest of a step. -/
theorem Pruned.kept (pruned : Pruned now before state) (prunes : event.prunesAt = some now)
    (kept : Kept state event after) : Kept before event after := by
  refine ⟨?_, ?_, ?_⟩
  · rw [← pruned.pending]
    exact kept.pending
  · rw [← pruned.children]
    exact kept.child
  · intro deviceId record found
    rcases pruned.terminal deviceId record found with there | old
    · exact kept.terminal deviceId record there
    · exact Or.inr (Or.inl ⟨now, prunes, old⟩)

theorem Quiet.stepped (quiet : Quiet excludedPorts now before state)
    (prunes : event.prunesAt = some now) : Stepped excludedPorts before event state :=
  ⟨quiet.sound, quiet.pruned.kept prunes (Kept.refl state event)⟩

section Launches

variable {call : Nat} {launch : Launch}

/-- A fresh pair is reserved: every record stays. -/
theorem Sound.reserved (sound : Sound excludedPorts state)
    (there : state.launches[call]? = some launch) (unlaunched : launch.phase ≠ .launched)
    {ports : EmulatorPortPair} (candidate : ports ∈ launch.phase.candidates)
    (free : ∀ holder other, holder ≠ .claim call → held state holder = some other →
      ports.Apart other) (appendPort : Bool) :
    Stepped excludedPorts state event
      (reservePendingEmulatorDeviceId state call launch ports appendPort).1 := by
  refine ⟨sound.reservePending there unlaunched candidate free appendPort, ?_,
    fun _ _ found => Or.inl found, fun _ _ found => Or.inl found⟩
  intro deviceId reservation found
  left
  unfold reservePendingEmulatorDeviceId reservationFor
  dsimp only
  rw [get?_put_of_ne]
  · exact found
  · intro same
    rw [← same, sound.fresh free] at found
    cases found

/-- A launch whose host checks are answered, where a pair found free is clear of other claims. -/
theorem Sound.hostAnswered (sound : Sound excludedPorts state)
    (there : state.launches[call]? = some launch) (answer : HostAnswer)
    (prunes : event.prunesAt = some now)
    (clear : answer = .available true → ∀ ports ∈ launch.phase.probing,
      ∀ other ∈ state.launches, ∀ claim ∈ other.phase.claim, ports.Apart claim) :
    Stepped excludedPorts state event
      (hostAnswered number excludedPorts state call launch answer now).1 := by
  have quiet : Quiet excludedPorts now state state := sound.quiet
  have pruned := quiet.prune launch.preLaunchSnapshot
  have candidates := sound.candidates call launch there
  unfold EmulatorPorts.hostAnswered assertEmulatorPortsNotReserved
  cases phase : launch.phase with
  | asserting ports appendPort =>
    have unlaunched : launch.phase ≠ .launched := by simp [phase]
    rw [phase] at candidates
    cases answer with
    | cancelled => exact (quiet.reject there unlaunched _).stepped prunes
    | available isFree =>
      cases isFree with
      | false => exact (quiet.reject there unlaunched _).stepped prunes
      | true =>
        dsimp only
        have apart := clear rfl ports (by simp [phase, Phase.probing])
        by_cases free : ports.freeIn (unavailableEmulatorPorts number
            (pruneExpiredTerminalReservations state launch.preLaunchSnapshot now)
            (snapshotIds launch.preLaunchSnapshot)) = true
        · rw [if_pos free]
          dsimp only
          refine Quiet.stepped (pruned.setPhase there unlaunched (by simp) ?_ ?_) prunes
          · exact candidates
          · intro taken claim holder other _ here
            cases claim
            exact apart_of_free free apart here
        · rw [if_neg free]
          exact (pruned.reject there unlaunched _).stepped prunes
  | scanning ports rest =>
    have unlaunched : launch.phase ≠ .launched := by simp [phase]
    rw [phase] at candidates
    have others : ∀ other ∈ rest, other.consolePort ∉ excludedPorts :=
      fun other member => candidates other (List.mem_cons_of_mem _ member)
    cases answer with
    | cancelled => exact (quiet.reject there unlaunched _).stepped prunes
    | available isFree =>
      cases isFree with
      | false => exact (quiet.scan there unlaunched others).stepped prunes
      | true =>
        dsimp only
        have apart := clear rfl ports (by simp [phase, Phase.probing])
        split
        next free =>
          have reserved : Stepped excludedPorts _ event _ := pruned.sound.reserved there unlaunched
            (by simp [phase, Phase.candidates])
            (fun holder other _ here => apart_of_free free apart here) true
          exact ⟨reserved.sound, pruned.pruned.kept prunes reserved.kept⟩
        next => exact (pruned.scan there unlaunched others).stepped prunes
  | checked _ _ | holding _ | launched | ended => cases answer <;> exact sound.stay

theorem releasePending_of_held {reservation : EmulatorDeviceIdReservation}
    (found : get? state.pendingLaunchDeviceIds reservation.deviceId = some reservation) :
    releasePendingEmulatorDeviceId state reservation = { state with
      pendingLaunchDeviceIds := erase state.pendingLaunchDeviceIds reservation.deviceId } := by
  simp [releasePendingEmulatorDeviceId, found]

variable {reservation : EmulatorDeviceIdReservation}

/-- The launch that held a pending reservation no longer does. -/
theorem Sound.unholding (sound : Sound excludedPorts state)
    (there : state.launches[call]? = some launch) (phase : launch.phase = .holding reservation)
    {next : Phase} (unheld : ∀ other, next ≠ .holding other) (empty : next.candidates = [])
    (unclaimed : next.claim = none) : Sound excludedPorts (state.setPhase call launch next) ∧
      Unheld (state.setPhase call launch next) reservation.deviceId := by
  have quiet : Quiet excludedPorts 0 state state := sound.quiet
  have moved := quiet.setPhase there (by simp [phase]) unheld (by simp [empty]) (by simp [unclaimed])
  exact ⟨moved.sound, sound.unheld there phase unheld⟩

theorem Sound.launched (sound : Sound excludedPorts state)
    (there : state.launches[call]? = some launch) (phase : launch.phase = .holding reservation) :
    Stepped excludedPorts state (.launch call)
      ((recordReservedEmulatorDeviceId state call reservation).setPhase call launch
        .launched) := by
  obtain ⟨object, stored⟩ := sound.holding call launch reservation there phase
  obtain ⟨spawned, unheld⟩ : Sound excludedPorts (state.setPhase call launch .launched) ∧ _ :=
    sound.unholding there phase (by simp) rfl rfl
  have inside := (List.getElem?_eq_some_iff.mp there).1
  have here : (state.setPhase call launch .launched).launches[call]? =
      some { launch with phase := .launched } := by
    simp [ReservationState.setPhase, inside]
  unfold recordReservedEmulatorDeviceId
  rw [releasePending_of_held stored]
  refine ⟨spawned.putChild stored unheld here rfl, ?_, ?_, fun _ _ found => Or.inl found⟩
  · intro deviceId other found
    by_cases same : reservation.deviceId = deviceId
    · right
      left
      rw [← same, stored] at found
      cases found
      rw [object]
      exact ⟨rfl, get?_put_self _ _ _⟩
    · exact Or.inl ((get?_erase _ _ _).trans ((if_neg same).trans found))
  · intro child other found
    left
    obtain ⟨_, spawned, here, launched⟩ := sound.child child other found
    have apart : call ≠ child := by
      rintro rfl
      rw [there] at here
      cases here
      rw [phase] at launched
      cases launched
    exact (get?_put_of_ne _ apart _).trans found

theorem Sound.abandoned (sound : Sound excludedPorts state)
    (there : state.launches[call]? = some launch) (phase : launch.phase = .holding reservation) :
    Stepped excludedPorts state (.abandon call)
      ((releasePendingEmulatorDeviceId state reservation).setPhase call launch .ended) := by
  obtain ⟨object, stored⟩ := sound.holding call launch reservation there phase
  obtain ⟨ended, unheld⟩ : Sound excludedPorts (state.setPhase call launch .ended) ∧ _ :=
    sound.unholding there phase (by simp) rfl rfl
  rw [releasePending_of_held stored]
  refine ⟨ended.erasePending unheld, ?_, fun _ _ found => Or.inl found,
    fun _ _ found => Or.inl found⟩
  intro deviceId other found
  by_cases same : reservation.deviceId = deviceId
  · right
    right
    rw [← same, stored] at found
    cases found
    rw [object]
  · exact Or.inl ((get?_erase _ _ _).trans ((if_neg same).trans found))

end Launches

/-- A released child's serial has no terminal record yet, so none is overwritten. -/
theorem Sound.exited (sound : Sound excludedPorts state) (call : Nat) (now : Int) :
    Stepped excludedPorts state (.exited call now)
      (releaseReservedEmulatorDeviceId state call now) := by
  unfold releaseReservedEmulatorDeviceId
  split
  next reservation stored =>
    refine ⟨sound.putTerminal stored _ rfl _, fun _ _ found => Or.inl found, ?_, ?_⟩
    · intro child other found
      by_cases same : call = child
      · right
        rw [← same, stored] at found
        cases found
        exact ⟨now, _, by rw [same], get?_put_self _ _ _⟩
      · exact Or.inl ((get?_erase _ _ _).trans ((if_neg same).trans found))
    · intro deviceId record found
      left
      dsimp only
      rw [get?_put_of_ne]
      · exact found
      · intro same
        have one : held state (.place (.child call)) = some reservation.ports := by
          simp [held, ReservationState.at, stored]
        have other : held state (.place (.terminal deviceId)) = some record.ports := by
          simp [held, ReservationState.at, found]
        have apart := (sound.apart _ _ _ _ one other (by simp)).consolePort_ne
        have keyed := sound.terminal deviceId record found
        rw [← same, (sound.child call reservation stored).1] at keyed
        exact apart (emulatorDeviceIdForConsolePort_inj keyed)
  next => exact sound.stay

theorem Sound.step (sound : Sound excludedPorts state) (clear : Clear state event) :
    Stepped excludedPorts state event (step number excludedPorts state event).1 := by
  have ofLaunch : ∀ (call : Nat) (next : Launch → ReservationState × List Outcome),
      (∀ launch, state.launches[call]? = some launch →
        Stepped excludedPorts state event (next launch).1) →
      Stepped excludedPorts state event (state.ofLaunch call next).1 := by
    intro call next each
    unfold ReservationState.ofLaunch
    cases there : state.launches[call]? with
    | none => exact sound.stay
    | some launch => exact each launch there
  cases event with
  | add args avdName preLaunchSnapshot expectedDeviceId now =>
    have appended : Quiet excludedPorts now state { state with
        launches := state.launches ++ [⟨args, avdName, preLaunchSnapshot, .ended⟩] } :=
      ⟨sound.append rfl, rfl, rfl, fun _ _ found => Or.inl found⟩
    exact (appended.add (by simp) (by simp) expectedDeviceId).stepped rfl
  | probed call answer now =>
    apply ofLaunch
    intro launch there
    apply sound.hostAnswered there _ rfl
    rintro rfl
    exact clear launch there
  | reserve call =>
    apply ofLaunch
    intro launch there
    cases phase : launch.phase with
    | checked ports appendPort =>
      have own : held state (.claim call) = some ports := by simp [held, there, phase, Phase.claim]
      apply sound.reserved there (by simp [phase]) (by simp [phase, Phase.candidates])
      intro holder other elsewhere here
      exact sound.apart _ _ _ _ own here elsewhere.symm
    | asserting _ _ | scanning _ _ | holding _ | launched | ended => exact sound.stay
  | launch call =>
    apply ofLaunch
    intro launch there
    cases phase : launch.phase with
    | holding reservation => exact sound.launched there phase
    | asserting _ _ | scanning _ _ | checked _ _ | launched | ended => exact sound.stay
  | abandon call =>
    apply ofLaunch
    intro launch there
    cases phase : launch.phase with
    | holding reservation => exact sound.abandoned there phase
    | asserting _ _ | scanning _ _ | checked _ _ | launched | ended => exact sound.stay
  | exited call now => exact sound.exited call now
  | confirmAbsent deviceIds captured =>
    refine ⟨sound.withTerminals (fun _ _ found => get?_of_released found)
      (nodup_keys_released sound.distinct), fun _ _ found => Or.inl found,
      fun _ _ found => Or.inl found, ?_⟩
    intro deviceId record found
    rcases get?_released found with kept | ⟨absent, seen, member, generation⟩
    · exact Or.inl kept
    · exact Or.inr (Or.inr ⟨deviceIds, captured, seen, rfl, absent, member, generation⟩)

theorem Sound.run {events : List Event}
    (clear : Meets (EmulatorPorts.step number excludedPorts) Clear {} events) :
    Sound excludedPorts (run (EmulatorPorts.step number excludedPorts) {} events).1 :=
  clear.state_invariant (EmulatorPorts.step number excludedPorts) (Sound excludedPorts)
    (fun _ _ sound allowed => (sound.step allowed).sound) Sound.start

end Steps

section Main

/-- In every run in which no pair is found free while a launch, past the last check of a pair that
shares a port with it, has not reserved that pair yet: outstanding reservations share no port, none
has an excluded console port, and a record stays until an event of its own ends or moves it. -/
theorem port_reservations_exclusive (number : String → Option Nat) (excludedPorts : List Nat)
    {events : List Event} (clear : Meets (step number excludedPorts) Clear {} events) :
    let state := (run (step number excludedPorts) {} events).1
    Outstanding excludedPorts state ∧
      ∀ event, Clear state event → Kept state event (step number excludedPorts state event).1 := by
  have sound : Sound excludedPorts (run (step number excludedPorts) {} events).1 := Sound.run clear
  exact ⟨sound.outstanding, fun event allowed => (sound.step allowed).kept⟩

/-- `Number` of the texts of the runs below. -/
def decimal (text : String) : Option Nat :=
  if text = "5554" then some 5554
  else if text = "5556" then some 5556
  else none

/-- One launch names port 5554, another takes a port automatically. -/
def apartLaunches : List Event :=
  [.add ["-port", "5554"] "Pixel 9" none none 0, .probed 0 (.available true) 0, .reserve 0,
    .add [] "Pixel 9a" (some { deviceIds := [], isComplete := true }) none 0,
    .probed 1 (.available true) 0, .launch 0, .launch 1, .exited 0 5]

theorem port_reservations_exclusive_apart :
    Outstanding [5558] (run (step decimal [5558]) {} apartLaunches).1 ∧
      ((run (step decimal [5558]) {} apartLaunches).1.at (.terminal "emulator-5554"),
        (run (step decimal [5558]) {} apartLaunches).1.at (.child 1)) =
        (some ⟨5554, 5555⟩, some ⟨5556, 5557⟩) :=
  ⟨(port_reservations_exclusive decimal [5558] (by decide +kernel)).1, by decide +kernel⟩

/-- Two launches name port 5554; both pass their last check before either reserves. -/
def racedLaunches : List Event :=
  [.add ["-port", "5554"] "Pixel 9" none none 0, .add ["-port", "5554"] "Pixel 9a" none none 0,
    .probed 0 (.available true) 0, .probed 1 (.available true) 0, .reserve 0, .reserve 1,
    .launch 0, .launch 1]

theorem raced_launches_share_port :
    ¬ ∀ events : List Event, Outstanding [] (run (step decimal []) {} events).1 := by
  intro always
  have first : (run (step decimal []) {} racedLaunches).1.at (.child 0) = some ⟨5554, 5555⟩ := by
    decide +kernel
  have second : (run (step decimal []) {} racedLaunches).1.at (.child 1) = some ⟨5554, 5555⟩ := by
    decide +kernel
  have apart := (always racedLaunches).apart _ _ _ _ first second (by decide)
  exact apart.consolePort_ne rfl

end Main

end AutoMobile.EmulatorPorts
