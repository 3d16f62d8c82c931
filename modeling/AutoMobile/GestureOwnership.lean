import AutoMobile.InsertionMap
import AutoMobile.Runs

/- The registry of streamed gestures that are down on a device, by the socket
that started them and then by device and gesture. Every operation runs in one
turn; only the loop of a closing socket waits, between one cancel and the next. -/
namespace AutoMobile.GestureOwnership

open InsertionMap

structure BootedDevice where
  deviceId : String
deriving DecidableEq, Repr

structure OwnedGesture where
  targetDevice : BootedDevice
  gestureId : String
  holderSessionId : Option String
deriving DecidableEq, Repr

/-- One gesture of a socket on a device: the arguments of a cancel. -/
structure Stroke where
  socketSessionId : String
  targetDevice : BootedDevice
  gestureId : String
deriving DecidableEq, Repr

abbrev BySocket := InsertionMap String (InsertionMap String OwnedGesture)

def key (deviceId gestureId : String) : String := deviceId ++ "::" ++ gestureId

def OwnedGesture.stroke (owned : OwnedGesture) (socketSessionId : String) : Stroke :=
  ⟨socketSessionId, owned.targetDevice, owned.gestureId⟩

inductive StartAnswer | owned | cancelled
deriving DecidableEq, Repr

/-- The registry, the cancels that are issued, and the answer. -/
def onStartAcked (isSocketLive : String → Bool) (bySocket : BySocket) (socketSessionId : String)
    (targetDevice : BootedDevice) (gestureId : String) (holderSessionId : Option String)
    (admissionStillHolds : Bool) : BySocket × List Stroke × StartAnswer :=
  if !admissionStillHolds || !isSocketLive socketSessionId then
    (bySocket, [⟨socketSessionId, targetDevice, gestureId⟩], .cancelled)
  else
    let forSocket := (get? bySocket socketSessionId).getD []
    let recorded := put forSocket (key targetDevice.deviceId gestureId)
      ⟨targetDevice, gestureId, holderSessionId⟩
    (put bySocket socketSessionId recorded, [], .owned)

def onEndAcked (bySocket : BySocket) (socketSessionId deviceId gestureId : String) : BySocket :=
  match get? bySocket socketSessionId with
  | none => bySocket
  | some forSocket =>
    let left := erase forSocket (key deviceId gestureId)
    if left.isEmpty then erase bySocket socketSessionId
    else put bySocket socketSessionId left

/-- The registry, and the cancels that the loop issues one after another. -/
def cancelAllFor (bySocket : BySocket) (socketSessionId : String) : BySocket × List Stroke :=
  (erase bySocket socketSessionId,
    ((get? bySocket socketSessionId).getD []).map fun entry => entry.2.stroke socketSessionId)

/-- The registry without the gestures that match, and their cancels, all issued
before the first settles. -/
def cancelAllMatching (wanted : OwnedGesture → Bool) : BySocket → BySocket × List Stroke
  | [] => ([], [])
  | (socketSessionId, forSocket) :: later =>
    let rest := cancelAllMatching wanted later
    let lifted := (forSocket.filter fun entry => wanted entry.2).map
      fun entry => entry.2.stroke socketSessionId
    let left := forSocket.filter fun entry => !wanted entry.2
    (if left.isEmpty then rest.1 else (socketSessionId, left) :: rest.1, lifted ++ rest.2)

def heldBy (holderSessionId : String) (owned : OwnedGesture) : Bool :=
  owned.holderSessionId = some holderSessionId

def heldByOn (holderSessionId deviceId : String) (owned : OwnedGesture) : Bool :=
  owned.holderSessionId = some holderSessionId ∧ owned.targetDevice.deviceId = deviceId

def unheldOn (deviceId : String) (owned : OwnedGesture) : Bool :=
  owned.holderSessionId = none ∧ owned.targetDevice.deviceId = deviceId

def cancelAllHeldBy (bySocket : BySocket) (holderSessionId : String) : BySocket × List Stroke :=
  cancelAllMatching (heldBy holderSessionId) bySocket

def cancelAllHeldByOn (bySocket : BySocket) (holderSessionId deviceId : String) :
    BySocket × List Stroke :=
  cancelAllMatching (heldByOn holderSessionId deviceId) bySocket

def cancelAllUnheldOn (bySocket : BySocket) (deviceId : String) : BySocket × List Stroke :=
  cancelAllMatching (unheldOn deviceId) bySocket

/-- The record that a socket has under the key of a device and a gesture. -/
def ownedAt (bySocket : BySocket) (socketSessionId deviceId gestureId : String) :
    Option OwnedGesture :=
  (get? bySocket socketSessionId).bind fun forSocket => get? forSocket (key deviceId gestureId)

def cancelIfDeviceChangedHands (bySocket : BySocket) (socketSessionId deviceId gestureId : String)
    (currentHolderSessionId : Option String) : BySocket × List Stroke × Bool :=
  match ownedAt bySocket socketSessionId deviceId gestureId with
  | none => (bySocket, [], false)
  | some owned =>
    if owned.holderSessionId = currentHolderSessionId then (bySocket, [], false)
    else (onEndAcked bySocket socketSessionId deviceId gestureId,
      [⟨socketSessionId, owned.targetDevice, gestureId⟩], true)

/-- The registry, the live client sockets, and for each loop of a closing socket
the cancels it has still to issue. -/
structure State where
  bySocket : BySocket := []
  clientSockets : List String := []
  closing : List (List Stroke) := []
deriving DecidableEq, Repr

inductive Event
  | socketOpened (socketSessionId : String)
  | startAcked (socketSessionId : String) (targetDevice : BootedDevice) (gestureId : String)
      (holderSessionId : Option String) (admissionStillHolds : Bool)
  | endAcked (socketSessionId deviceId gestureId : String)
  | socketClosed (socketSessionId : String)
  | holderReleased (holderSessionId : String)
  | holderLeft (holderSessionId deviceId : String)
  | deviceAcquired (deviceId : String)
  | frameRefused (socketSessionId deviceId gestureId : String)
      (currentHolderSessionId : Option String)
  | cancelSettled (loop : Nat)
deriving DecidableEq, Repr

/-- `started` notes a start ack and `ended` an end ack that met the record of its
own gesture; `cancelled` is a cancel that is issued. -/
inductive Effect
  | started (stroke : Stroke)
  | ended (stroke : Stroke)
  | cancelled (stroke : Stroke)
deriving DecidableEq, Repr

/-- The gesture that an end ack ends: the one on record that it names. -/
def endedBy (bySocket : BySocket) (socketSessionId deviceId gestureId : String) : List Stroke :=
  match ownedAt bySocket socketSessionId deviceId gestureId with
  | none => []
  | some owned =>
    if owned.targetDevice.deviceId = deviceId ∧ owned.gestureId = gestureId then
      [owned.stroke socketSessionId]
    else []

def step (state : State) : Event → State × List Effect
  | .socketOpened socket => ({ state with clientSockets := socket :: state.clientSockets }, [])
  | .startAcked socket targetDevice gestureId holder admissionStillHolds =>
    let isSocketLive := fun socketSessionId => decide (socketSessionId ∈ state.clientSockets)
    let after := onStartAcked isSocketLive state.bySocket socket targetDevice gestureId holder
      admissionStillHolds
    ({ state with bySocket := after.1 },
      .started ⟨socket, targetDevice, gestureId⟩ :: after.2.1.map .cancelled)
  | .endAcked socket deviceId gestureId =>
    ({ state with bySocket := onEndAcked state.bySocket socket deviceId gestureId },
      (endedBy state.bySocket socket deviceId gestureId).map .ended)
  | .socketClosed socket =>
    -- the transport forgets the socket in the turn that starts the loop
    let after := cancelAllFor state.bySocket socket
    ({ bySocket := after.1
       clientSockets := state.clientSockets.filter fun live => live ≠ socket
       closing := state.closing ++ [after.2.tail] }, (after.2.take 1).map .cancelled)
  | .holderReleased holder =>
    let after := cancelAllHeldBy state.bySocket holder
    ({ state with bySocket := after.1 }, after.2.map .cancelled)
  | .holderLeft holder deviceId =>
    let after := cancelAllHeldByOn state.bySocket holder deviceId
    ({ state with bySocket := after.1 }, after.2.map .cancelled)
  | .deviceAcquired deviceId =>
    let after := cancelAllUnheldOn state.bySocket deviceId
    ({ state with bySocket := after.1 }, after.2.map .cancelled)
  | .frameRefused socket deviceId gestureId currentHolder =>
    let after := cancelIfDeviceChangedHands state.bySocket socket deviceId gestureId currentHolder
    ({ state with bySocket := after.1 }, after.2.1.map .cancelled)
  | .cancelSettled loop =>
    let remaining := (state.closing[loop]?).getD []
    ({ state with closing := state.closing.set loop remaining.tail },
      (remaining.take 1).map .cancelled)

def run (events : List Event) : State × List Effect := Runs.run step {} events

end AutoMobile.GestureOwnership
