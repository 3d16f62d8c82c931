import AutoMobile.InsertionMap
import AutoMobile.SessionBrokerAdmission

/- The tables of `sqliteStore`: the rows, and how a transaction reads and updates them.
A transaction that fails leaves the tables as they were. -/
namespace AutoMobile.SessionBroker

open InsertionMap

/-- A process; its generation token can be absent, null or a text. -/
structure BindingProcessIdentity where
  daemonId : String
  pid : Nat
  processGenerationToken : Option (Option String) := none
deriving DecidableEq, Repr

inductive BrokerRequestState where
  | acquiring
  | active
  | releasing
  | released
  | failed
deriving DecidableEq, Repr

def isTerminalState (state : BrokerRequestState) : Bool := state = .released || state = .failed

/-- A row of `session_broker_requests`, under its request id. -/
structure RequestRow (Parameters : Type) where
  fingerprint : String
  parameters : Parameters
  owner : BindingProcessIdentity
  restartHandoff : Bool := false
  state : BrokerRequestState
  resourceId : Option String := none
  sessionId : Option String := none
  error : Option String := none
  errorCode : Option String := none
  retryable : Option Bool := none
  terminalAtMs : Option Nat := none
deriving DecidableEq, Repr

/-- A row of `session_broker_resources`, under its resource id. -/
structure ResourceRow (Profile : Type) where
  allocationIndex : Nat
  scopeKey : String
  profile : Profile
  state : ResourceState
  requestId : Option String
  revision : Nat := 1
  idleOrder : Nat := 0
  reuseCount : Nat := 0
deriving DecidableEq, Repr

/-- A row of `session_broker_exports`, under its prepare id. -/
structure ExportRow where
  requestId : String
  requestDigest : String
  createdAtMs : Nat
  acknowledgedAtMs : Option Nat := none
deriving DecidableEq, Repr

/-- The resources come in the order of their allocation index. -/
structure Store (Parameters Profile : Type) where
  requests : InsertionMap String (RequestRow Parameters) := []
  resources : InsertionMap String (ResourceRow Profile) := []
  exports : InsertionMap String ExportRow := []
  nextAllocationIndex : Nat := 1
deriving DecidableEq, Repr

inductive BindingAssignmentState where
  | provisioning
  | ready
  | replacing
  | settling
  | cleanupPending
deriving DecidableEq, Repr

/-- A row of `slot_assignments`, as far as the store reads it. -/
structure SlotAssignment where
  stableDeviceId : Option String := none
  state : BindingAssignmentState
  execSessionUuid : Option String := none
  execOwnerDaemonId : Option String := none
  execOwnerPid : Option Nat := none
  execOwnerProcessToken : Option String := none
deriving DecidableEq, Repr

/-- What a transaction finds outside its tables: the physical slots, the open journal
entries, which processes live, and the clock. -/
structure Surroundings where
  slot : String → Nat → Option SlotAssignment
  journalOpen : String → Nat → Bool
  isOwnerLive : BindingProcessIdentity → Bool
  now : Nat

structure DestructionTicket where
  resourceId : String
  revision : Nat
deriving DecidableEq, Repr

/-- A text that is neither null nor empty. -/
def truthy (text : Option String) : Bool := text.isSome && text != some ""

variable {Parameters Profile : Type}

def ownsReadyBinding (binding : Option SlotAssignment) (sessionId : String)
    (owner : BindingProcessIdentity) : Bool :=
  match binding with
  | none => false
  | some binding =>
    truthy binding.stableDeviceId && binding.state = .ready &&
      binding.execSessionUuid == some sessionId &&
      binding.execOwnerDaemonId == some owner.daemonId && binding.execOwnerPid == some owner.pid &&
      binding.execOwnerProcessToken == owner.processGenerationToken.join

def destructionTicket (resourceId : String) (resource : ResourceRow Profile) : DestructionTicket :=
  ⟨resourceId, resource.revision⟩

/-- Idle, and still at a revision that was observed, if any were. -/
def drainableIdle (resourceId : String) (resource : ResourceRow Profile)
    (observed : Option (List DestructionTicket)) : Bool :=
  resource.state = .idle &&
    match observed with
    | none => true
    | some tickets => tickets.any (· = destructionTicket resourceId resource)

def requireValue {α : Type} (value : Option α) (message : String) : Except String α :=
  match value with
  | some value => .ok value
  | none => .error message

/-- Write a request; a terminal state takes the time of the clock. -/
def updateRequest (surroundings : Surroundings) (store : Store Parameters Profile) (id : String)
    (row : RequestRow Parameters) : Store Parameters Profile :=
  let stamped :=
    if isTerminalState row.state then { row with terminalAtMs := some surroundings.now } else row
  { store with requests := put store.requests id stamped }

/-- Write a resource under its next revision. -/
def updateResource (store : Store Parameters Profile) (id : String) (resource : ResourceRow Profile) :
    Store Parameters Profile :=
  let revised := { resource with revision := resource.revision + 1 }
  { store with resources := put store.resources id revised }

def ownedRequest (store : Store Parameters Profile) (id : String) (owner : BindingProcessIdentity) :
    Except String (RequestRow Parameters) := do
  let request ← requireValue (get? store.requests id) "Unknown session request"
  if request.owner = owner then .ok request
  else .error "Session request belongs to another daemon process generation"

/-- The resource that a request names, which must name it back. -/
def ownedResource (store : Store Parameters Profile) (id : String) (request : RequestRow Parameters) :
    Except String (String × ResourceRow Profile) := do
  let resourceId ← requireValue request.resourceId "Request has no device reservation"
  let resource ← requireValue (get? store.resources resourceId) "Request resource disappeared"
  if resource.requestId = some id then .ok (resourceId, resource)
  else .error "Session request no longer owns this device reservation"

/-- Whether the request occupies a session: a failed one only while its exact resource is
still owned and live. -/
def countsAsSession (resources : InsertionMap String (ResourceRow Profile)) (id : String)
    (request : RequestRow Parameters) : Bool :=
  request.state ≠ .released &&
    (request.state ≠ .failed ||
      match request.resourceId.bind (get? resources) with
      | some resource => resource.requestId = some id && resource.state ≠ .destroyed
      | none => false)

/-- The sessions of all other requests. -/
def countSessionAdmissions (store : Store Parameters Profile) (requestId : String) : Nat :=
  store.requests.countP fun (id, request) =>
    id ≠ requestId && countsAsSession store.resources id request

/-- The resources that are not destroyed. -/
def liveResources (store : Store Parameters Profile) : InsertionMap String (ResourceRow Profile) :=
  store.resources.filter fun (_, resource) => resource.state ≠ .destroyed

structure BrokerExportIdentity where
  prepareId : String
  requestDigest : String
deriving DecidableEq, Repr

/-- Link a request to its export; the links of both must agree. -/
def linkExport (now : Nat) (store : Store Parameters Profile) (requestId : String)
    (identity : Option BrokerExportIdentity) : Except String (Store Parameters Profile) :=
  match identity with
  | none => .ok store
  | some identity =>
    match store.exports.filter fun (prepareId, row) =>
      row.requestId = requestId || prepareId = identity.prepareId with
    | [] =>
      let row : ExportRow :=
        { requestId, requestDigest := identity.requestDigest, createdAtMs := now }
      .ok { store with exports := put store.exports identity.prepareId row }
    | [(prepareId, row)] =>
      if row.requestId = requestId ∧ prepareId = identity.prepareId ∧
          row.requestDigest = identity.requestDigest then .ok store
      else .error
        "Session export identity, digest, or liveness owner does not match the request"
    | _ => .error "Session export identity, digest, or liveness owner does not match the request"

end AutoMobile.SessionBroker
