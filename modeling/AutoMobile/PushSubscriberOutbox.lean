import AutoMobile.PrototypeDataWrite

/- `PushSubscriberOutbox`, and the part of `PushSubscriptionSocketServer` that drives the outbox of
one connection: its writes, its drain events and its subscriptions. -/
namespace AutoMobile.PushOutbox

open InsertionMap PrototypeData

/-- A member of a message, as far as `fields` tells its values apart. -/
inductive Member where
  | undefined
  | null
  | text (value : String)
  | other
deriving DecidableEq, Repr

/-- A message that a caller sends; one that is no object has no members. -/
structure Frame (Body : Type) where
  hasId : Bool
  hasRequestId : Bool
  type : Member
  subscriptionId : Member
  deviceId : Member
  deviceSessionUuid : Member
  body : Body
deriving DecidableEq, Repr

/-- A frame of a caller, or the notice that the outbox sends for the screenshots it drops. -/
inductive Message (Body : Type) where
  | frame (frame : Frame Body)
  | frames_dropped (subscriptionId deviceId : Option String)
      (deviceSessionUuid : Option (Option String))
deriving DecidableEq, Repr

/-- The members that place a message. An epoch may be absent, null or a text. -/
structure Fields where
  type : Option String
  subscriptionId : Option String
  deviceId : Option String
  deviceSessionUuid : Option (Option String)
  correlated : Bool
deriving DecidableEq, Repr

def Member.asText : Member → Option String
  | .text value => some value
  | _ => none

def Member.asTextOrNull : Member → Option (Option String)
  | .text value => some (some value)
  | .null => some none
  | _ => none

variable {Body Line : Type}

def Message.fields : Message Body → Fields
  | .frame given =>
    { type := given.type.asText, subscriptionId := given.subscriptionId.asText,
      deviceId := given.deviceId.asText,
      deviceSessionUuid := given.deviceSessionUuid.asTextOrNull,
      correlated := given.hasId || given.hasRequestId }
  | .frames_dropped subscriptionId deviceId deviceSessionUuid =>
    { type := some "frames_dropped", subscriptionId, deviceId, deviceSessionUuid,
      correlated := false }

def keyPart : Option (Option String) → String
  | none => "unset"
  | some none => "null"
  | some (some field) => toString (utf16Length field) ++ ":" ++ field

def stateKey (subscriptionId deviceId : Option String) (deviceSessionUuid : Option (Option String))
    (type : String) : String :=
  ":".intercalate [keyPart (subscriptionId.map some), keyPart (deviceId.map some),
    keyPart deviceSessionUuid, keyPart (some (some type))]

/-- A slot of the queue: that of a state, which newer frames take over, or one of its own. -/
inductive Slot where
  | state (key : String)
  | sequence (number : Nat)
deriving DecidableEq, Repr

/-- The state whose slot a message takes: only uncorrelated screenshots and hierarchies have one. -/
def Fields.state? (fields : Fields) : Option String :=
  match fields.type with
  | none => none
  | some type =>
    if !fields.correlated && (type = "screenshot_update" || type = "hierarchy_update") then
      some (stateKey fields.subscriptionId fields.deviceId fields.deviceSessionUuid type)
    else none

/-- A queued message. The code forgets the message of a lossless entry, whose line is final. -/
structure PendingPush (Body Line : Type) where
  message : Message Body
  serialized : Option Line
  subscriptionId : Option String
deriving DecidableEq, Repr

structure Outbox (Body Line : Type) where
  pending : InsertionMap Slot (PendingPush Body Line) := []
  reportedDrops : InsertionMap String (Option String) := []
  sequence : Nat := 0
deriving DecidableEq, Repr

/-- A line that was written, with the message that it is. -/
structure Pushed (Body Line : Type) where
  message : Message Body
  line : Line
deriving DecidableEq, Repr

def PUSH_SOCKET_WRITABLE_LIMIT_BYTES : Nat := 8 * 1024 * 1024

variable (stringify : Message Body → Line)

def write (message : Message Body) (serialized : Option Line) : Pushed Body Line where
  message := message
  line := serialized.getD (stringify message)

/-- Putting a state where one is replaces it in place. -/
def enqueue (outbox : Outbox Body Line) (message : Message Body) (serialized : Option Line) :
    Outbox Body Line :=
  let fields := message.fields
  match fields.state? with
  | some key =>
    { outbox with
      pending := put outbox.pending (.state key)
        { message, serialized, subscriptionId := fields.subscriptionId } }
  | none =>
    let sequence := outbox.sequence + 1
    { outbox with
      sequence
      pending := put outbox.pending (.sequence sequence)
        { message, serialized := some (serialized.getD (stringify message)),
          subscriptionId := fields.subscriptionId } }

/-- What a send leaves: the outbox, the lines written, and whether more may be written. -/
structure Sent (Body Line : Type) where
  outbox : Outbox Body Line
  written : List (Pushed Body Line)
  ok : Bool
deriving DecidableEq, Repr

/-- Write the message, or queue it while a drain is pending. -/
def place (outbox : Outbox Body Line) (accepts : Bool) (message : Message Body)
    (drainPending : Bool) (serialized : Option Line) : Sent Body Line :=
  if drainPending then
    { outbox := enqueue stringify outbox message serialized, written := [], ok := false }
  else { outbox, written := [write stringify message serialized], ok := accepts }

/-- `accepts` is what the socket answers if something is written. -/
def send (writableLength : Nat) (accepts : Bool) (outbox : Outbox Body Line)
    (message : Message Body) (drainPending : Bool) (serialized : Option Line) :
    Sent Body Line :=
  let outbox :=
    if writableLength ≤ PUSH_SOCKET_WRITABLE_LIMIT_BYTES then { outbox with reportedDrops := [] }
    else outbox
  let fields := message.fields
  if fields.type = some "screenshot_update" ∧ fields.correlated = false ∧
      writableLength > PUSH_SOCKET_WRITABLE_LIMIT_BYTES then
    let key := stateKey fields.subscriptionId fields.deviceId fields.deviceSessionUuid
      "screenshot_update"
    let outbox := { outbox with pending := erase outbox.pending (.state key) }
    if has outbox.reportedDrops key then { outbox, written := [], ok := !drainPending }
    else
      let outbox :=
        { outbox with reportedDrops := put outbox.reportedDrops key fields.subscriptionId }
      place stringify outbox accepts
        (.frames_dropped fields.subscriptionId fields.deviceId fields.deviceSessionUuid)
        drainPending none
  else place stringify outbox accepts message drainPending serialized

/-- What a socket answers, by the number of steps that were taken on it before. -/
structure Socket where
  writableLength : Nat → Nat
  destroyed : Nat → Bool
  accepts : Nat → Bool

/-- One round of the loop of `flush`. -/
def flushEntry (socket : Socket) (step : Nat) (outbox : Outbox Body Line)
    (entry : Slot × PendingPush Body Line) : Sent Body Line :=
  let outbox := { outbox with pending := erase outbox.pending entry.1 }
  if socket.destroyed step then { outbox, written := [], ok := false }
  else
    match entry.1 with
    | .state _ =>
      send stringify (socket.writableLength step) (socket.accepts step) outbox entry.2.message
        false entry.2.serialized
    | .sequence _ =>
      { outbox, written := [write stringify entry.2.message entry.2.serialized],
        ok := socket.accepts step }

/-- The loop of `flush` over the entries there are; no round adds one. -/
def flushEntries (socket : Socket) : Nat → Outbox Body Line →
    List (Slot × PendingPush Body Line) → Sent Body Line
  | _, outbox, [] => { outbox, written := [], ok := true }
  | step, outbox, entry :: rest =>
    let first := flushEntry stringify socket step outbox entry
    if first.ok then
      let later := flushEntries socket (step + 1) first.outbox rest
      { later with written := first.written ++ later.written }
    else first

def flush (socket : Socket) (step : Nat) (outbox : Outbox Body Line) : Sent Body Line :=
  flushEntries stringify socket step { outbox with reportedDrops := [] } outbox.pending

/-- A state of the subscription leaves the queue; what is lossless stays. -/
def removeSubscription (outbox : Outbox Body Line) (subscriptionId : String) : Outbox Body Line :=
  { outbox with
    pending := outbox.pending.filter fun entry =>
      match entry.1 with
      | .state _ => entry.2.subscriptionId ≠ some subscriptionId
      | .sequence _ => true
    reportedDrops := outbox.reportedDrops.filter fun drop => drop.2 ≠ some subscriptionId }

/-- A connection of the server, with the number of steps taken on its socket. -/
structure Connection (Body Line : Type) where
  outbox : Outbox Body Line := {}
  drainPending : Bool := false
  steps : Nat := 0
deriving DecidableEq, Repr

inductive Event (Body Line : Type) where
  | send (frame : Frame Body) (serialized : Option Line)
  | drain
  | removeSubscription (subscriptionId : String)
deriving DecidableEq, Repr

/-- A send that may not go on makes the connection wait for a drain event. -/
def sendOutbound (socket : Socket) (connection : Connection Body Line) (frame : Frame Body)
    (serialized : Option Line) : Connection Body Line × List (Pushed Body Line) :=
  if socket.destroyed connection.steps then
    ({ connection with steps := connection.steps + 1 }, [])
  else
    let sent := send stringify (socket.writableLength connection.steps)
      (socket.accepts connection.steps) connection.outbox (.frame frame) connection.drainPending
      serialized
    ({ outbox := sent.outbox, drainPending := connection.drainPending || !sent.ok,
       steps := connection.steps + 1 }, sent.written)

/-- The drain event: nothing waits any more, until the flush says otherwise. -/
def drained (socket : Socket) (connection : Connection Body Line) :
    Connection Body Line × List (Pushed Body Line) :=
  let flushed := flush stringify socket connection.steps connection.outbox
  ({ outbox := flushed.outbox, drainPending := !flushed.ok,
     steps := connection.steps + connection.outbox.pending.length }, flushed.written)

def serve (socket : Socket) (connection : Connection Body Line) :
    Event Body Line → Connection Body Line × List (Pushed Body Line)
  | .send frame serialized => sendOutbound stringify socket connection frame serialized
  | .drain => drained stringify socket connection
  | .removeSubscription subscriptionId =>
    ({ connection with outbox := removeSubscription connection.outbox subscriptionId }, [])

end AutoMobile.PushOutbox
