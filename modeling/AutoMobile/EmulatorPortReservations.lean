import AutoMobile.InsertionMap
import AutoMobile.Runs

/- `DefaultEmulatorPortReservations`: the console-port reservations that every emulator launch of
the process shares. A step is what one launch runs between two awaits. -/
namespace AutoMobile.EmulatorPorts

open InsertionMap

def MIN_EMULATOR_CONSOLE_PORT : Nat := 5554
def MAX_EMULATOR_CONSOLE_PORT : Nat := 5682
def EMULATOR_CONSOLE_PORT_STEP : Nat := 2
def TERMINAL_RESERVATION_TTL_MS : Int := 30000

/-- The name of `ENV.EMULATOR_EXCLUDED_CONSOLE_PORTS`. -/
def excludedPortsVariable : String := "AUTOMOBILE_EMULATOR_EXCLUDED_CONSOLE_PORTS"

structure EmulatorPortPair where
  consolePort : Nat
  adbPort : Nat
deriving DecidableEq, Repr

inductive PortOption where
  | port
  | ports
deriving DecidableEq, Repr

def PortOption.text : PortOption → String
  | .port => "-port"
  | .ports => "-ports"

structure EmulatorConsolePortArgument where
  option : PortOption
  value : Option String
  consumesFollowingArgument : Bool
deriving DecidableEq, Repr

/-- `object` is the call that built the reservation: each call builds at most one, and a release
compares the objects. -/
structure EmulatorDeviceIdReservation where
  object : Nat
  deviceId : String
  ports : EmulatorPortPair
  appendPort : Bool
  avdName : String
deriving DecidableEq, Repr

structure TerminalEmulatorReservation where
  generation : Nat
  ports : EmulatorPortPair
  releasedAt : Int
deriving DecidableEq, Repr

structure EmulatorDeviceIdSnapshot where
  deviceIds : List String
  isComplete : Bool
deriving DecidableEq, Repr

inductive ReservationError where
  | invalidConsolePort (option : PortOption)
  | invalidAdbPort
  | multiplePairs
  | expectedDeviceId (deviceId : String)
  | conflict (deviceId : String) (consolePort : Nat)
  | excluded (consolePort : Nat)
  | reserved (ports : EmulatorPortPair)
  | hostInUse (ports : EmulatorPortPair)
  | cancelled
  | exhausted (excludedPorts : List Nat)
  | incompleteSnapshot
deriving DecidableEq, Repr

def ReservationError.message : ReservationError → String
  | .invalidConsolePort option =>
    s!"Emulator {option.text} must specify an even console port from " ++
      s!"{MIN_EMULATOR_CONSOLE_PORT} through {MAX_EMULATOR_CONSOLE_PORT}"
  | .invalidAdbPort => "Emulator -ports must specify distinct console and ADB TCP ports"
  | .multiplePairs => "Emulator arguments specify multiple different port pairs"
  | .expectedDeviceId deviceId =>
    s!"Expected emulator device ID '{deviceId}' must use an even console port from " ++
      s!"{MIN_EMULATOR_CONSOLE_PORT} through {MAX_EMULATOR_CONSOLE_PORT}"
  | .conflict deviceId consolePort =>
    s!"Expected emulator device ID '{deviceId}' conflicts with configured " ++
      s!"console port {consolePort}"
  | .excluded consolePort =>
    s!"Cannot launch an Android emulator: console port {consolePort} is excluded by " ++
      s!"{excludedPortsVariable}; choose another console port or update that variable."
  | .reserved ports =>
    s!"Cannot safely launch an Android emulator: console port " ++
      s!"{ports.consolePort} is already in use"
  | .hostInUse ports =>
    s!"Cannot safely launch an Android emulator: emulator port pair " ++
      s!"{ports.consolePort}/{ports.adbPort} is already in use"
  | .cancelled => "Android emulator launch was cancelled while checking host ports"
  | .exhausted excludedPorts =>
    let sorted := excludedPorts.mergeSort (fun a b => a ≤ b)
    let joined := if sorted = [] then "none" else ", ".intercalate (sorted.map toString)
    s!"Cannot safely launch an Android emulator: all console ports from " ++
      s!"{MIN_EMULATOR_CONSOLE_PORT} through {MAX_EMULATOR_CONSOLE_PORT} are in use; " ++
      s!"excluded console ports: {joined} ({excludedPortsVariable})"
  | .incompleteSnapshot =>
    s!"Cannot safely enforce {excludedPortsVariable} without a complete " ++
      "emulator device snapshot; restore device discovery or specify an allowed -port."

section Parsing

-- `Number(text)`, where it is a natural number.
variable (number : String → Option Nat)

def isValidEmulatorConsolePort (port : Nat) : Bool :=
  MIN_EMULATOR_CONSOLE_PORT ≤ port && port ≤ MAX_EMULATOR_CONSOLE_PORT &&
    port % EMULATOR_CONSOLE_PORT_STEP = 0

/-- What `.` of a regular expression does not match. -/
def isLineTerminator (char : Char) : Bool :=
  char = '\n' || char = '\r' || char = '\u2028' || char = '\u2029'

/-- The value of an argument `-port=…` or `-ports=…`. -/
def inlineValue (argument lead : String) : Option String :=
  match lead.toList.isPrefixOf? argument.toList with
  | some rest => if rest.any isLineTerminator then none else some (String.ofList rest)
  | none => none

/-- Reads the first of `arguments`. -/
def emulatorConsolePortArgument (argument : String) (following : Option String) :
    Option EmulatorConsolePortArgument :=
  if argument = "-port" then
    some { option := .port, value := following, consumesFollowingArgument := true }
  else if argument = "-ports" then
    some { option := .ports, value := following, consumesFollowingArgument := true }
  else
    match inlineValue argument "-port=", inlineValue argument "-ports=" with
    | some value, _ =>
      some { option := .port, value := some value, consumesFollowingArgument := false }
    | none, some value =>
      some { option := .ports, value := some value, consumesFollowingArgument := false }
    | none, none => none

def parseEmulatorConsolePort (consolePortText : Option String) (option : PortOption) :
    Except ReservationError Nat :=
  match consolePortText.bind fun text => if text = "" then none else number text with
  | some consolePort =>
    if isValidEmulatorConsolePort consolePort then .ok consolePort
    else .error (.invalidConsolePort option)
  | none => .error (.invalidConsolePort option)

def parseEmulatorAdbPort (adbPortText : Option String) (additionalValues : List String) :
    Except ReservationError Nat :=
  match adbPortText.bind fun text => if text = "" then none else number text with
  | some adbPort =>
    if additionalValues ≠ [] || adbPort < 1 || 65535 < adbPort then .error .invalidAdbPort
    else .ok adbPort
  | none => .error .invalidAdbPort

def parseEmulatorPortPair (argument : EmulatorConsolePortArgument) :
    Except ReservationError EmulatorPortPair := do
  let values := (argument.value.map fun value =>
    (value.toList.splitOn ',').map String.ofList).getD []
  let consolePort ← parseEmulatorConsolePort number values.head? argument.option
  match argument.option with
  | .port => pure { consolePort := consolePort, adbPort := consolePort + 1 }
  | .ports =>
    let adbPort ← parseEmulatorAdbPort number (values.drop 1).head? (values.drop 2)
    if adbPort = consolePort then throw .invalidAdbPort
    pure { consolePort := consolePort, adbPort := adbPort }

/-- The number after `emulator-`. -/
def serialNumber (deviceId : String) : Option (Option Nat) :=
  ("emulator-".toList.isPrefixOf? deviceId.toList).map fun rest => number (String.ofList rest)

def emulatorPortsForDeviceId (deviceId : Option String) :
    Except ReservationError (Option EmulatorPortPair) :=
  match deviceId with
  | none => .ok none
  | some deviceId =>
    match serialNumber number deviceId with
    | none => .ok none
    | some none => .error (.expectedDeviceId deviceId)
    | some (some consolePort) =>
      if isValidEmulatorConsolePort consolePort then
        .ok (some { consolePort := consolePort, adbPort := consolePort + 1 })
      else .error (.expectedDeviceId deviceId)

def observedEmulatorPorts (deviceId : String) : Option EmulatorPortPair :=
  match serialNumber number deviceId with
  | some (some consolePort) =>
    if consolePort < 1 || 65535 ≤ consolePort then none
    else some { consolePort := consolePort, adbPort := consolePort + 1 }
  | _ => none

def emulatorDeviceIdForConsolePort (consolePort : Nat) : String :=
  "emulator-" ++ Nat.repr consolePort

/-- The loop of `configuredEmulatorPorts`; `skip` is set after an argument that took the next. -/
def configuredFrom (configuredPorts : Option EmulatorPortPair) :
    Bool → List String → Except ReservationError (Option EmulatorPortPair)
  | _, [] => .ok configuredPorts
  | true, _ :: rest => configuredFrom configuredPorts false rest
  | false, argument :: rest =>
    match emulatorConsolePortArgument argument rest.head? with
    | none => configuredFrom configuredPorts false rest
    | some read =>
      match parseEmulatorPortPair number read with
      | .error error => .error error
      | .ok ports =>
        if configuredPorts.any (fun before => before ≠ ports) then .error .multiplePairs
        else configuredFrom (some ports) read.consumesFollowingArgument rest

def configuredEmulatorPorts (args : List String) :
    Except ReservationError (Option EmulatorPortPair) :=
  configuredFrom number none false args

end Parsing

/-- Where a launch is: its host ports are being probed, its own ports passed their last check, it
holds a pending reservation, or it is past that. -/
inductive Phase where
  | asserting (ports : EmulatorPortPair) (appendPort : Bool)
  | checked (ports : EmulatorPortPair) (appendPort : Bool)
  | scanning (ports : EmulatorPortPair) (rest : List EmulatorPortPair)
  | holding (reservation : EmulatorDeviceIdReservation)
  | launched
  | ended
deriving DecidableEq, Repr

/-- A call of `addReservedEmulatorPort` and the launch that made it. -/
structure Launch where
  args : List String
  avdName : String
  preLaunchSnapshot : Option EmulatorDeviceIdSnapshot
  phase : Phase
deriving DecidableEq, Repr

/-- The process-wide records. A launch spawns one child, which its number names. -/
structure ReservationState where
  reservedLaunchDeviceIds : InsertionMap Nat EmulatorDeviceIdReservation := []
  pendingLaunchDeviceIds : InsertionMap String EmulatorDeviceIdReservation := []
  terminalReservedDeviceIds : InsertionMap String TerminalEmulatorReservation := []
  terminalReservationGeneration : Nat := 0
  launches : List Launch := []
deriving DecidableEq, Repr

inductive Outcome where
  | resolved (call : Nat) (reservation : Option EmulatorDeviceIdReservation) (args : List String)
  | rejected (call : Nat) (error : ReservationError)
deriving DecidableEq, Repr

/-- What `areEmulatorPortsAvailableOnHost` settles with. -/
inductive HostAnswer where
  | available (free : Bool)
  | cancelled
deriving DecidableEq, Repr

inductive Event where
  | add (args : List String) (avdName : String)
      (preLaunchSnapshot : Option EmulatorDeviceIdSnapshot) (expectedDeviceId : Option String)
      (now : Int)
  /-- The host checks of a call are answered. -/
  | probed (call : Nat) (answer : HostAnswer) (now : Int)
  /-- A call goes on after `assertEmulatorPortsAvailable`. -/
  | reserve (call : Nat)
  /-- The launch spawned its child and records the reservation on it. -/
  | launch (call : Nat)
  /-- The launch was cancelled, or its spawn failed. -/
  | abandon (call : Nat)
  /-- `releaseLaunchChild` of the child that the launch spawned. -/
  | exited (call : Nat) (now : Int)
  /-- A complete snapshot was taken. -/
  | confirmAbsent (deviceIds : List String)
      (terminalReservationsAtSnapshot : InsertionMap String TerminalEmulatorReservation)
deriving DecidableEq, Repr

section Records

variable (number : String → Option Nat)

def ReservationState.setPhase (state : ReservationState) (call : Nat) (launch : Launch)
    (phase : Phase) : ReservationState :=
  { state with launches := state.launches.set call { launch with phase := phase } }

def EmulatorPortPair.both (ports : EmulatorPortPair) : List Nat := [ports.consolePort, ports.adbPort]

def pruneExpiredTerminalReservations (state : ReservationState)
    (snapshot : Option EmulatorDeviceIdSnapshot) (now : Int) : ReservationState :=
  { state with
    terminalReservedDeviceIds := state.terminalReservedDeviceIds.filter fun entry =>
      snapshot.any (fun shown => shown.isComplete && shown.deviceIds.contains entry.1) ||
        now - entry.2.releasedAt ≤ TERMINAL_RESERVATION_TTL_MS }

def unavailableEmulatorPorts (state : ReservationState) (preexistingDeviceIds : List String) :
    List Nat :=
  (preexistingDeviceIds.filterMap (observedEmulatorPorts number)).flatMap EmulatorPortPair.both ++
    (values state.reservedLaunchDeviceIds).flatMap (fun reservation => reservation.ports.both) ++
    (values state.pendingLaunchDeviceIds).flatMap (fun reservation => reservation.ports.both) ++
    (values state.terminalReservedDeviceIds).flatMap (fun reservation => reservation.ports.both)

/-- Neither port of the pair is unavailable. -/
def EmulatorPortPair.freeIn (ports : EmulatorPortPair) (unavailablePorts : List Nat) : Bool :=
  !unavailablePorts.contains ports.consolePort && !unavailablePorts.contains ports.adbPort

def snapshotIds (snapshot : Option EmulatorDeviceIdSnapshot) : List String :=
  (snapshot.map EmulatorDeviceIdSnapshot.deviceIds).getD []

def assertEmulatorPortsNotReserved (state : ReservationState) (ports : EmulatorPortPair)
    (preLaunchSnapshot : Option EmulatorDeviceIdSnapshot) (now : Int) :
    ReservationState × Option ReservationError :=
  let pruned := pruneExpiredTerminalReservations state preLaunchSnapshot now
  if ports.freeIn (unavailableEmulatorPorts number pruned (snapshotIds preLaunchSnapshot)) then
    (pruned, none)
  else (pruned, some (.reserved ports))

def reservationFor (call : Nat) (avdName : String) (ports : EmulatorPortPair) (appendPort : Bool) :
    EmulatorDeviceIdReservation :=
  { object := call
    deviceId := emulatorDeviceIdForConsolePort ports.consolePort
    ports := ports
    appendPort := appendPort
    avdName := avdName }

/-- `addReservedEmulatorPort` resolves with the reservation and appends its port. -/
def reservePendingEmulatorDeviceId (state : ReservationState) (call : Nat) (launch : Launch)
    (ports : EmulatorPortPair) (appendPort : Bool) : ReservationState × List Outcome :=
  let reservation := reservationFor call launch.avdName ports appendPort
  let args := if appendPort then launch.args ++ ["-port", Nat.repr ports.consolePort] else launch.args
  ({ state with
      pendingLaunchDeviceIds := put state.pendingLaunchDeviceIds reservation.deviceId reservation
      launches := state.launches.set call
        { launch with phase := .holding reservation, args := args } },
    [.resolved call (some reservation) args])

def releasePendingEmulatorDeviceId (state : ReservationState)
    (reservation : EmulatorDeviceIdReservation) : ReservationState :=
  match get? state.pendingLaunchDeviceIds reservation.deviceId with
  | some held =>
    if held.object = reservation.object then
      { state with
        pendingLaunchDeviceIds := erase state.pendingLaunchDeviceIds reservation.deviceId }
    else state
  | none => state

def recordReservedEmulatorDeviceId (state : ReservationState) (child : Nat)
    (reservation : EmulatorDeviceIdReservation) : ReservationState :=
  let released := releasePendingEmulatorDeviceId state reservation
  { released with
    reservedLaunchDeviceIds := put released.reservedLaunchDeviceIds child reservation }

def releaseReservedEmulatorDeviceId (state : ReservationState) (child : Nat) (now : Int) :
    ReservationState :=
  match get? state.reservedLaunchDeviceIds child with
  | some reservation =>
    { state with
      reservedLaunchDeviceIds := erase state.reservedLaunchDeviceIds child
      terminalReservedDeviceIds := put state.terminalReservedDeviceIds reservation.deviceId
        { generation := state.terminalReservationGeneration + 1
          ports := reservation.ports
          releasedAt := now }
      terminalReservationGeneration := state.terminalReservationGeneration + 1 }
  | none => state

/-- A round of the loop of `releaseAbsentTerminalReservations`. -/
def releaseIfAbsent (deviceIds : List String)
    (terminals : InsertionMap String TerminalEmulatorReservation)
    (entry : String × TerminalEmulatorReservation) :
    InsertionMap String TerminalEmulatorReservation :=
  if !deviceIds.contains entry.1 &&
      (get? terminals entry.1).any (fun held => held.generation = entry.2.generation) then
    erase terminals entry.1
  else terminals

def releaseAbsentTerminalReservations (state : ReservationState) (deviceIds : List String)
    (terminalReservationsAtSnapshot : InsertionMap String TerminalEmulatorReservation) :
    ReservationState :=
  { state with
    terminalReservedDeviceIds :=
      terminalReservationsAtSnapshot.foldl (releaseIfAbsent deviceIds)
        state.terminalReservedDeviceIds }

end Records

section Calls

variable (number : String → Option Nat) (excludedPorts : List Nat)

def ReservationState.reject (state : ReservationState) (call : Nat) (launch : Launch)
    (error : ReservationError) : ReservationState × List Outcome :=
  (state.setPhase call launch .ended, [.rejected call error])

/-- The pairs of the loop of `allocateReservedEmulatorPorts`. -/
def automaticPorts : List EmulatorPortPair :=
  (List.range ((MAX_EMULATOR_CONSOLE_PORT - MIN_EMULATOR_CONSOLE_PORT) /
      EMULATOR_CONSOLE_PORT_STEP + 1)).map fun index =>
    let port := MIN_EMULATOR_CONSOLE_PORT + index * EMULATOR_CONSOLE_PORT_STEP
    { consolePort := port, adbPort := port + 1 }

/-- On to the next pair that the loop probes. -/
def scan (state : ReservationState) (call : Nat) (launch : Launch) :
    List EmulatorPortPair → ReservationState × List Outcome
  | [] => state.reject call launch (.exhausted excludedPorts)
  | ports :: rest => (state.setPhase call launch (.scanning ports rest), [])

def allocateReservedEmulatorPorts (state : ReservationState) (call : Nat) (launch : Launch)
    (preLaunchSnapshot : EmulatorDeviceIdSnapshot) (now : Int) :
    ReservationState × List Outcome :=
  let pruned := pruneExpiredTerminalReservations state (some preLaunchSnapshot) now
  let unavailablePorts := unavailableEmulatorPorts number pruned preLaunchSnapshot.deviceIds
  scan excludedPorts pruned call launch (automaticPorts.filter fun ports =>
    !excludedPorts.contains ports.consolePort && ports.freeIn unavailablePorts)

def reserveAutomaticEmulatorDeviceId (state : ReservationState) (call : Nat) (launch : Launch)
    (now : Int) : ReservationState × List Outcome :=
  match launch.preLaunchSnapshot.filter EmulatorDeviceIdSnapshot.isComplete with
  | some snapshot =>
    allocateReservedEmulatorPorts number excludedPorts state call launch snapshot now
  | none =>
    if excludedPorts ≠ [] then state.reject call launch .incompleteSnapshot
    else (state.setPhase call launch .ended, [.resolved call none launch.args])

/-- `assertEmulatorPortsAvailable` up to the host checks. -/
def assertEmulatorPortsAvailable (state : ReservationState) (call : Nat) (launch : Launch)
    (ports : EmulatorPortPair) (appendPort : Bool) (now : Int) : ReservationState × List Outcome :=
  if excludedPorts.contains ports.consolePort then
    state.reject call launch (.excluded ports.consolePort)
  else
    match assertEmulatorPortsNotReserved number state ports launch.preLaunchSnapshot now with
    | (pruned, some error) => pruned.reject call launch error
    | (pruned, none) => (pruned.setPhase call launch (.asserting ports appendPort), [])

/-- `reserveEmulatorDeviceId` up to its first await. -/
def reserveEmulatorDeviceId (state : ReservationState) (call : Nat) (launch : Launch)
    (expectedDeviceId : Option String) (now : Int) : ReservationState × List Outcome :=
  match emulatorPortsForDeviceId number expectedDeviceId with
  | .error error => state.reject call launch error
  | .ok expectedEmulatorPorts =>
    if expectedDeviceId.any (fun deviceId => deviceId ≠ "") && expectedEmulatorPorts = none then
      (state.setPhase call launch .ended, [.resolved call none launch.args])
    else
      match configuredEmulatorPorts number launch.args with
      | .error error => state.reject call launch error
      | .ok configuredPorts =>
        match configuredPorts, expectedEmulatorPorts with
        | some configured, some expected =>
          if expected.consolePort ≠ configured.consolePort then
            state.reject call launch
              (.conflict (expectedDeviceId.getD "") configured.consolePort)
          else
            assertEmulatorPortsAvailable number excludedPorts
              (pruneExpiredTerminalReservations state launch.preLaunchSnapshot now)
              call launch configured false now
        | some configured, none =>
          assertEmulatorPortsAvailable number excludedPorts
            (pruneExpiredTerminalReservations state launch.preLaunchSnapshot now)
            call launch configured false now
        | none, some expected =>
          assertEmulatorPortsAvailable number excludedPorts
            (pruneExpiredTerminalReservations state launch.preLaunchSnapshot now)
            call launch expected true now
        | none, none => reserveAutomaticEmulatorDeviceId number excludedPorts state call launch now

/-- The rest of `assertEmulatorPortsAvailable`, and of a round of the loop of
`allocateReservedEmulatorPorts`, once the host checks of the pair are answered. -/
def hostAnswered (state : ReservationState) (call : Nat) (launch : Launch) (answer : HostAnswer)
    (now : Int) : ReservationState × List Outcome :=
  match launch.phase, answer with
  | .asserting _ _, .cancelled | .scanning _ _, .cancelled => state.reject call launch .cancelled
  | .asserting ports _, .available false => state.reject call launch (.hostInUse ports)
  | .asserting ports appendPort, .available true =>
    match assertEmulatorPortsNotReserved number state ports launch.preLaunchSnapshot now with
    | (pruned, some error) => pruned.reject call launch error
    | (pruned, none) => (pruned.setPhase call launch (.checked ports appendPort), [])
  | .scanning _ rest, .available false => scan excludedPorts state call launch rest
  | .scanning ports rest, .available true =>
    let pruned := pruneExpiredTerminalReservations state launch.preLaunchSnapshot now
    if ports.freeIn
        (unavailableEmulatorPorts number pruned (snapshotIds launch.preLaunchSnapshot)) then
      reservePendingEmulatorDeviceId pruned call launch ports true
    else scan excludedPorts pruned call launch rest
  | _, _ => (state, [])

def ReservationState.ofLaunch (state : ReservationState) (call : Nat)
    (next : Launch → ReservationState × List Outcome) : ReservationState × List Outcome :=
  match state.launches[call]? with
  | some launch => next launch
  | none => (state, [])

def step (state : ReservationState) : Event → ReservationState × List Outcome
  | .add args avdName preLaunchSnapshot expectedDeviceId now =>
    let launch : Launch :=
      { args := args
        avdName := avdName
        preLaunchSnapshot := preLaunchSnapshot
        phase := .ended }
    reserveEmulatorDeviceId number excludedPorts
      { state with launches := state.launches ++ [launch] } state.launches.length launch
      expectedDeviceId now
  | .probed call answer now =>
    state.ofLaunch call fun launch => hostAnswered number excludedPorts state call launch answer now
  | .reserve call =>
    state.ofLaunch call fun launch =>
      match launch.phase with
      | .checked ports appendPort =>
        reservePendingEmulatorDeviceId state call launch ports appendPort
      | _ => (state, [])
  | .launch call =>
    state.ofLaunch call fun launch =>
      match launch.phase with
      | .holding reservation =>
        ((recordReservedEmulatorDeviceId state call reservation).setPhase call launch .launched, [])
      | _ => (state, [])
  | .abandon call =>
    state.ofLaunch call fun launch =>
      match launch.phase with
      | .holding reservation =>
        ((releasePendingEmulatorDeviceId state reservation).setPhase call launch .ended, [])
      | _ => (state, [])
  | .exited call now => (releaseReservedEmulatorDeviceId state call now, [])
  | .confirmAbsent deviceIds terminalReservationsAtSnapshot =>
    (releaseAbsentTerminalReservations state deviceIds terminalReservationsAtSnapshot, [])

end Calls

end AutoMobile.EmulatorPorts
