import AutoMobile.SessionBrokerTables

/- The transactions of `sqliteStore`. Each reads its arguments and its surroundings and
either fails or gives the tables it commits. -/
namespace AutoMobile.SessionBroker

open InsertionMap ScriptText

def SESSION_OWNER_EXITED_CODE : String := "session_owner_exited"

def SESSION_OWNER_EXITED_MESSAGE : String :=
  "Session owner exited before relinquishing its device; cleanup remains owned by the broker"

def SESSION_REQUEST_ABANDONED_CODE : String := "session_request_abandoned"

def SESSION_REQUEST_ABANDONED_MESSAGE : String :=
  "Session request was abandoned by its liveness owner"

/-- How request identities are made: the fingerprint is a hash of the parameters and the
consumer's token, and abandoned requests get parameters of their own. -/
structure RequestIdentity (Parameters : Type) where
  sessionRequestFingerprint : Parameters → String → String
  abandonedParameters : Parameters

/-- Which resetting devices can be waited for. -/
structure ResetReadiness where
  thresholdMs : Int
  expectedReadyMs : InsertionMap String Int
  canWait : Option (String → Bool) := none

structure BrokerAdmissionInput (Parameters Profile : Type) where
  requestId : String
  fingerprint : String
  parameters : Parameters
  owner : BindingProcessIdentity
  limits : BrokerLimits
  exportIdentity : Option BrokerExportIdentity := none
  resetReadiness : Option ResetReadiness := none
  resolveCreation : Except String Profile
  compatibleWith : Profile → Bool
  /-- What the id generator gives if a resource is created; it is never empty. -/
  newResourceId : { id : String // id ≠ "" }

inductive BrokerAdmission where
  | existing
  | wait (resourceId : String) (waitMs : Int)
  | create (resourceId : String)
  | reuse (resourceId : String)
  | evict (resourceId : String)
  | refused (reason : AdmissionRefusalReason)
deriving DecidableEq, Repr

/-- Where the broker runs: its scope, its id generator's collation, and request identities. -/
structure BrokerHost (Parameters : Type) where
  scopeKey : String
  collate : String → String → Bool
  identity : RequestIdentity Parameters

variable {Parameters Profile : Type} (host : BrokerHost Parameters) (surroundings : Surroundings)

/-- The views of the live resources that an admission is selected from. -/
def admissionViews (input : BrokerAdmissionInput Parameters Profile)
    (live : InsertionMap String (ResourceRow Profile)) : List ResourceView :=
  live.map fun (id, resource) =>
    { id
      state := resource.state
      idleOrder := resource.idleOrder
      compatible := (resource.state = .idle || resource.state = .resetting) &&
        input.compatibleWith resource.profile
      expectedReadyMs := input.resetReadiness.bind fun readiness =>
        if readiness.canWait.any (fun canWait => !canWait id) then none
        else get? readiness.expectedReadyMs id }

def admissionSnapshot (store : Store Parameters Profile)
    (input : BrokerAdmissionInput Parameters Profile) : BrokerSnapshot where
  activeOrAcquiringSessions := countSessionAdmissions store input.requestId
  resources := admissionViews input (liveResources store)
  resetWaitThresholdMs := input.resetReadiness.map (·.thresholdMs)

/-- Record that the request is refused; the stored refusal never changes. -/
def refuse (store : Store Parameters Profile) (id : String) (request : RequestRow Parameters)
    (reason : AdmissionRefusalReason) : Store Parameters Profile :=
  updateRequest surroundings store id
    { request with
      state := .failed, error := some reason.text, errorCode := some "capacity_exhausted",
      retryable := some true }

/-- Create a resource for the request. -/
def createResource (store : Store Parameters Profile) (id : String) (request : RequestRow Parameters)
    (newId : String) (profile : Profile) : Except String (Store Parameters Profile) :=
  if has store.resources newId then .error "UNIQUE constraint failed: resource_id"
  else
    let resource : ResourceRow Profile :=
      { allocationIndex := store.nextAllocationIndex, scopeKey := host.scopeKey, profile,
        state := .reserved, requestId := some id }
    let created : Store Parameters Profile :=
      { store with
        resources := put store.resources newId resource
        nextAllocationIndex := store.nextAllocationIndex + 1 }
    .ok (updateRequest surroundings created id { request with resourceId := some newId })

/-- Give an idle resource to the request, to reuse it or to be rid of it. -/
def takeResource (store : Store Parameters Profile) (id : String) (request : RequestRow Parameters)
    (resourceId : String) (state : ResourceState) (reuse : Nat) :
    Except String (Store Parameters Profile) := do
  let selected ← requireValue (get? (liveResources store) resourceId) "Admission resource disappeared"
  let taken := updateResource store resourceId
    { selected with state, requestId := some id, reuseCount := selected.reuseCount + reuse }
  .ok (updateRequest surroundings taken id { request with resourceId := some resourceId })

def reserve (store : Store Parameters Profile) (request : RequestRow Parameters)
    (input : BrokerAdmissionInput Parameters Profile) :
    Except String (Store Parameters Profile × BrokerAdmission) := do
  let decision ← selectAdmission host.collate (admissionSnapshot store input) input.limits
  match decision with
  | .wait resourceId waitMs =>
    .ok (updateRequest surroundings store input.requestId request, .wait resourceId waitMs)
  | .refuse reason => .ok (refuse surroundings store input.requestId request reason, .refused reason)
  | .create =>
    let profile ← input.resolveCreation
    let created ← createResource host surroundings store input.requestId request
      input.newResourceId.val profile
    .ok (created, .create input.newResourceId.val)
  | .reuse resourceId =>
    let taken ← takeResource surroundings store input.requestId request resourceId .reserved 1
    .ok (taken, .reuse resourceId)
  | .evict resourceId =>
    -- an impossible creation must not destroy a useful idle device
    let _ ← input.resolveCreation
    let taken ← takeResource surroundings store input.requestId request resourceId .destroying 0
    .ok (taken, .evict resourceId)

def invalidIdentity (requestId fingerprint : String) : Bool := isBlank requestId || isBlank fingerprint

structure SessionBrokerFailure where
  message : String
  code : String
  retryable : Bool
deriving DecidableEq, Repr

/-- A failed lookup consumes its operation identity without consuming capacity. -/
def recordPreAdmissionFailure (store : Store Parameters Profile)
    (input : BrokerAdmissionInput Parameters Profile) (failure : SessionBrokerFailure) :
    Except String (Store Parameters Profile) :=
  if invalidIdentity input.requestId input.fingerprint then
    .error "Session request identity and fingerprint must be non-empty"
  else
    match get? store.requests input.requestId with
    | some previous =>
      if previous.fingerprint ≠ input.fingerprint then
        .error "Session request identity was already used with different parameters"
      else linkExport surroundings.now store input.requestId input.exportIdentity
    | none =>
      let row : RequestRow Parameters :=
        { fingerprint := input.fingerprint, parameters := input.parameters, owner := input.owner,
          state := .failed, error := some failure.message, errorCode := some failure.code,
          retryable := some failure.retryable, terminalAtMs := some surroundings.now }
      linkExport surroundings.now { store with requests := put store.requests input.requestId row }
        input.requestId input.exportIdentity

def admitRequest (store : Store Parameters Profile) (input : BrokerAdmissionInput Parameters Profile) :
    Except String (Store Parameters Profile × BrokerAdmission) :=
  if invalidIdentity input.requestId input.fingerprint then
    .error "Session request identity and fingerprint must be non-empty"
  else
    match get? store.requests input.requestId with
    | some previous =>
      if previous.fingerprint ≠ input.fingerprint then
        .error "Session request identity was already used with different parameters"
      else do
        let linked ← linkExport surroundings.now store input.requestId input.exportIdentity
        .ok (linked, .existing)
    | none => do
      let row : RequestRow Parameters :=
        { fingerprint := input.fingerprint, parameters := input.parameters, owner := input.owner,
          state := .acquiring }
      let linked ← linkExport surroundings.now
        { store with requests := put store.requests input.requestId row } input.requestId
        input.exportIdentity
      reserve host surroundings linked row input

/-- The ticket of the request's own resource, if it is being destroyed. -/
def currentDestructionTicket (store : Store Parameters Profile) (id : String)
    (request : RequestRow Parameters) : Option DestructionTicket :=
  match request.resourceId.bind fun resourceId =>
    (get? store.resources resourceId).map fun resource => (resourceId, resource) with
  | some (resourceId, resource) =>
    if resource.requestId = some id && resource.state = .destroying then
      some (destructionTicket resourceId resource)
    else none
  | none => none

/-- Send the request's own resource to destruction, unless it is gone; `again` gives one
that is on its way a new revision. -/
def destroyOwned (store : Store Parameters Profile) (id : String) (request : RequestRow Parameters)
    (again : Bool) : Except String (Store Parameters Profile × Option DestructionTicket) :=
  if truthy request.resourceId then do
    let (resourceId, resource) ← ownedResource store id request
    if resource.state = .destroyed then .ok (store, none)
    else if resource.state = .destroying && !again then
      .ok (store, some (destructionTicket resourceId resource))
    else
      let doomed := { resource with state := .destroying, revision := resource.revision + 1 }
      .ok (updateResource store resourceId { resource with state := .destroying },
        some (destructionTicket resourceId doomed))
  else .ok (store, none)

def abandon (store : Store Parameters Profile) (requestId : String) (owner : BindingProcessIdentity)
    (livenessOwnerToken : String) :
    Except String (Store Parameters Profile × Option DestructionTicket) :=
  if isBlank requestId || livenessOwnerToken = "" then
    .error "Session request identity and liveness owner token are required"
  else
    match get? store.requests requestId with
    | none =>
      let row : RequestRow Parameters :=
        { fingerprint := host.identity.sessionRequestFingerprint host.identity.abandonedParameters
            livenessOwnerToken
          parameters := host.identity.abandonedParameters, owner, state := .failed
          error := some SESSION_REQUEST_ABANDONED_MESSAGE
          errorCode := some SESSION_REQUEST_ABANDONED_CODE
          retryable := some false, terminalAtMs := some surroundings.now }
      .ok ({ store with requests := put store.requests requestId row }, none)
    | some previous =>
      if previous.fingerprint ≠
          host.identity.sessionRequestFingerprint previous.parameters livenessOwnerToken then
        .error "Session request belongs to another liveness owner"
      else if isTerminalState previous.state then
        .ok (store, currentDestructionTicket store requestId previous)
      else if previous.owner ≠ owner then
        .error "Session request belongs to another daemon process generation"
      else do
        let (doomed, ticket) ← destroyOwned store requestId previous false
        .ok (updateRequest surroundings doomed requestId
          { previous with
            state := .failed, error := some SESSION_REQUEST_ABANDONED_MESSAGE,
            errorCode := some SESSION_REQUEST_ABANDONED_CODE, retryable := some false }, ticket)

/-- Only the owner of a pending eviction may resume, after its resource is confirmed absent. -/
def continueAdmission (store : Store Parameters Profile)
    (input : BrokerAdmissionInput Parameters Profile) :
    Except String (Store Parameters Profile × BrokerAdmission) := do
  let request ← ownedRequest store input.requestId input.owner
  if request.fingerprint ≠ input.fingerprint ∨ request.state ≠ .acquiring then
    .error "Cannot continue a changed or terminal session request"
  else
    match request.resourceId with
    | none => reserve host surroundings store request input
    | some resourceId => do
      let resource ← requireValue (get? store.resources resourceId) "Admission resource disappeared"
      if resource.state ≠ .destroyed ∨ resource.requestId ≠ some input.requestId then
        .error "Admission must wait for confirmed eviction before reserving another device"
      else reserve host surroundings store request input

/-- `hardware` is `activationHardware`: what the preparation found out about the device. -/
def activate (store : Store Parameters Profile) (requestId : String) (owner : BindingProcessIdentity)
    (sessionId : String) (hardware : Profile → Profile) : Except String (Store Parameters Profile) :=
  if isBlank sessionId then .error "A prepared session must have a non-empty session UUID"
  else do
    let request ← ownedRequest store requestId owner
    if request.state = .active ∧ request.sessionId = some sessionId then .ok store
    else
      let (resourceId, resource) ← ownedResource store requestId request
      if request.state ≠ .acquiring ∨ resource.state ≠ .reserved then
        .error "Only the current acquiring request can activate a reservation"
      else if !ownsReadyBinding (surroundings.slot resource.scopeKey resource.allocationIndex)
          sessionId owner then
        .error "Prepared session does not own the current physical device binding"
      else if store.requests.any fun (other, row) =>
          other ≠ requestId && row.sessionId = some sessionId then
        .error "UNIQUE constraint failed: session_id"
      else
        let activated := updateResource store resourceId
          { resource with state := .active, profile := hardware resource.profile }
        .ok (updateRequest surroundings activated requestId
          { request with state := .active, sessionId := some sessionId })

def beginRelease (store : Store Parameters Profile) (sessionId : String)
    (owner : BindingProcessIdentity) : Except String (Store Parameters Profile) :=
  match store.requests.find? fun (_, row) => row.sessionId = some sessionId with
  | none => .ok store
  | some (requestId, row) =>
    if isTerminalState row.state then .ok store
    else do
      let request ← ownedRequest store requestId owner
      if request.state ≠ .active then .ok store
      else
        let (resourceId, resource) ← ownedResource store requestId request
        if resource.state ≠ .active then .error "Active session lost its resource ownership"
        else
          let resetting := updateResource store resourceId { resource with state := .resetting }
          .ok (updateRequest surroundings resetting requestId { request with state := .releasing })

/-- Evict one idle resource; the one that just came back keeps the request it came from. -/
def trimResource (returning : Option (String × String))
    (live : InsertionMap String (ResourceRow Profile)) (store : Store Parameters Profile)
    (id : String) : Except String (Store Parameters Profile × DestructionTicket) := do
  let resource ← requireValue (get? live id) "Idle resource disappeared"
  let owner := match returning with
    | some (resourceId, requestId) =>
      if id = resourceId ∧ requestId ≠ "" then some requestId else resource.requestId
    | none => resource.requestId
  let doomed := { resource with state := .destroying, requestId := owner }
  .ok (updateResource store id doomed,
    destructionTicket id { doomed with revision := resource.revision + 1 })

def trimResources (returning : Option (String × String))
    (live : InsertionMap String (ResourceRow Profile)) :
    Store Parameters Profile → List String →
      Except String (Store Parameters Profile × List DestructionTicket)
  | store, [] => .ok (store, [])
  | store, id :: rest => do
    let (trimmed, ticket) ← trimResource returning live store id
    let (final, tickets) ← trimResources returning live trimmed rest
    .ok (final, ticket :: tickets)

/-- The views that evictions are chosen from. -/
def occupiedResources (live : InsertionMap String (ResourceRow Profile)) : List ResourceView :=
  live.map fun (id, resource) =>
    { id, state := resource.state, idleOrder := resource.idleOrder, compatible := false }

def trimIdle (store : Store Parameters Profile) (limits : BrokerLimits)
    (returning : Option (String × String)) :
    Except String (Store Parameters Profile × List DestructionTicket) := do
  let live := liveResources store
  let selected ← chooseIdleEvictions host.collate
    { activeOrAcquiringSessions := 0, resources := occupiedResources live } limits
  trimResources returning live store selected

/-- The device is ready, without execution or journal work. -/
def isClean (resource : ResourceRow Profile) : Bool :=
  match surroundings.slot resource.scopeKey resource.allocationIndex with
  | some binding =>
    truthy binding.stableDeviceId && binding.state = .ready &&
      !truthy binding.execSessionUuid &&
      !surroundings.journalOpen resource.scopeKey resource.allocationIndex
  | none => false

/-- The device came back clean: its receipt and its return to the pool are one commit. -/
def completeCleanRelease (store : Store Parameters Profile) (requestId : String)
    (owner : BindingProcessIdentity) (limits : BrokerLimits) :
    Except String (Store Parameters Profile × List DestructionTicket) := do
  let request ← ownedRequest store requestId owner
  if request.state = .released then .ok (store, [])
  else
    let (resourceId, resource) ← ownedResource store requestId request
    if request.state ≠ .releasing ∨ resource.state ≠ .resetting then
      .error "Only a joined, resetting session can return a clean device"
    else
      if !isClean surroundings resource then
        .error "Physical device still has execution or journal work; it cannot enter the idle pool"
      else
        let latest := (liveResources store).foldl (fun latest entry => max latest entry.2.idleOrder) 0
        let idled := updateResource store resourceId
          { resource with state := .idle, requestId := none, idleOrder := latest + 1 }
        let released := updateRequest surroundings idled requestId { request with state := .released }
        trimIdle host released limits (some (resourceId, requestId))

structure FailureReason where
  error : String
  errorCode : String
  retryable : Bool
  onlyFrom : Option BrokerRequestState := none
deriving DecidableEq, Repr

/-- Failure is terminal for the request, but keeps a discoverable destruction obligation. -/
def failWhere (store : Store Parameters Profile) (requestId : String) (owner : BindingProcessIdentity)
    (failure : FailureReason) : Except String (Store Parameters Profile × Option DestructionTicket) := do
  let request ← ownedRequest store requestId owner
  if isTerminalState request.state ∨ failure.onlyFrom.any (· ≠ request.state) then .ok (store, none)
  else
    let (doomed, ticket) ← destroyOwned store requestId request true
    .ok (updateRequest surroundings doomed requestId
      { request with
        state := .failed, error := some failure.error, errorCode := some failure.errorCode,
        retryable := some failure.retryable }, ticket)

def fail (store : Store Parameters Profile) (requestId : String) (owner : BindingProcessIdentity)
    (error : String) (errorCode : String := "session_preparation_failed") (retryable : Bool := false) :
    Except String (Store Parameters Profile × Option DestructionTicket) :=
  failWhere surroundings store requestId owner { error, errorCode, retryable }

def failInterruptedAcquisition (store : Store Parameters Profile) (requestId : String)
    (owner : BindingProcessIdentity) (error : String) :
    Except String (Store Parameters Profile × Option DestructionTicket) :=
  failWhere surroundings store requestId owner
    { error, errorCode := "session_preparation_failed", retryable := false,
      onlyFrom := some .acquiring }

/-- Zero-pool release follows the same cleanup path, without pretending it was clean. -/
def releaseByDestruction (store : Store Parameters Profile) (requestId : String)
    (owner : BindingProcessIdentity) :
    Except String (Store Parameters Profile × Option DestructionTicket) := do
  let request ← ownedRequest store requestId owner
  if isTerminalState request.state then .ok (store, none)
  else if request.state ≠ .releasing then
    .error "Session must relinquish its execution before destruction"
  else
    let (resourceId, resource) ← ownedResource store requestId request
    if resource.state = .destroying then
      .ok (store, some (destructionTicket resourceId resource))
    else
      let doomed := { resource with state := .destroying, revision := resource.revision + 1 }
      .ok (updateResource store resourceId { resource with state := .destroying },
        some (destructionTicket resourceId doomed))

def drainResources (observed : Option (List DestructionTicket)) :
    InsertionMap String (ResourceRow Profile) → Store Parameters Profile →
      Store Parameters Profile × List DestructionTicket
  | [], store => (store, [])
  | (id, resource) :: rest, store =>
    if drainableIdle id resource observed then
      let doomed := { resource with state := .destroying, revision := resource.revision + 1 }
      let (final, tickets) := drainResources observed rest
        (updateResource store id { resource with state := .destroying })
      (final, destructionTicket id doomed :: tickets)
    else drainResources observed rest store

/-- Each claimed resource leaves the reusable set in one transaction. -/
def drainIdle (store : Store Parameters Profile) (observed : Option (List DestructionTicket)) :
    Store Parameters Profile × List DestructionTicket :=
  drainResources observed (liveResources store) store

def physicalWorkPending (resource : ResourceRow Profile) : Bool :=
  (match surroundings.slot resource.scopeKey resource.allocationIndex with
    | some assignment =>
      truthy assignment.stableDeviceId || truthy assignment.execSessionUuid ||
        assignment.state = .settling || assignment.state = .cleanupPending
    | none => false) ||
    surroundings.journalOpen resource.scopeKey resource.allocationIndex

/-- Drop a destroyed resource that no receipt names. -/
def deleteUnreferencedTombstone (store : Store Parameters Profile) (id : String) :
    Store Parameters Profile :=
  { store with resources := store.resources.filter fun (other, resource) =>
      !(other = id && resource.state = .destroyed && resource.requestId.isNone &&
        !store.requests.any fun (_, request) => request.resourceId = some other) }

/-- A release that waited for the destruction is over; a failure restarts its replay window. -/
def settleRequestAfterDestruction (store : Store Parameters Profile) (resourceId requestId : String) :
    Store Parameters Profile :=
  match get? store.requests requestId with
  | none => store
  | some request =>
    if request.resourceId ≠ some resourceId then store
    else if request.state = .releasing then
      updateRequest surroundings store requestId { request with state := .released }
    else if request.state = .failed then
      updateRequest surroundings store requestId request
    else store

def confirmDestroyed (store : Store Parameters Profile) (ticket : DestructionTicket) :
    Store Parameters Profile × Bool :=
  match get? store.resources ticket.resourceId with
  | none => (store, false)
  | some resource =>
    if resource.revision ≠ ticket.revision then (store, false)
    else if resource.state = .destroyed then (store, true)
    else if resource.state ≠ .destroying then (store, false)
    else if physicalWorkPending surroundings resource then (store, false)
    else
      let gone :=
        { store with
          resources := put store.resources ticket.resourceId { resource with state := .destroyed } }
      match resource.requestId with
      | some requestId =>
        if requestId = "" then (deleteUnreferencedTombstone gone ticket.resourceId, true)
        else (settleRequestAfterDestruction surroundings gone ticket.resourceId requestId, true)
      | none => (deleteUnreferencedTombstone gone ticket.resourceId, true)

/-- Take over from a dead owner. A release stays releasing until destruction confirms it;
other interrupted requests fail. -/
def recoverRequest (store : Store Parameters Profile) (requestId : String)
    (owner : BindingProcessIdentity) :
    Except String (Store Parameters Profile × Option DestructionTicket) := do
  let request ← requireValue (get? store.requests requestId) "Unknown session request"
  if request.owner = owner ∨ surroundings.isOwnerLive request.owner = true then .ok (store, none)
  else if isTerminalState request.state then .ok (store, none)
  else
    let (doomed, ticket) ← destroyOwned store requestId request (request.state ≠ .releasing)
    let releasing : Bool := request.state = .releasing
    .ok (updateRequest surroundings doomed requestId
      { request with
        owner := owner, restartHandoff := false,
        state := if releasing then .releasing else .failed,
        error := if releasing then none else some SESSION_OWNER_EXITED_MESSAGE,
        errorCode := if releasing then none else some SESSION_OWNER_EXITED_CODE }, ticket)

/-- Mark that the owner of an active session gives it up for a restart. -/
def relinquishForRestart (store : Store Parameters Profile) (requestId : String)
    (owner : BindingProcessIdentity) : Except String (Store Parameters Profile) := do
  let request ← ownedRequest store requestId owner
  if request.state ≠ .active ∨ request.restartHandoff = true then .ok store
  else .ok (updateRequest surroundings store requestId { request with restartHandoff := true })

inductive HandoffAdoption where
  | adopted
  | pending
  | notHandoff
deriving DecidableEq, Repr

/-- A successor adopts a session once the native layer has given it the same binding. -/
def adoptRestartHandoff (store : Store Parameters Profile) (requestId : String)
    (owner : BindingProcessIdentity) :
    Except String (Store Parameters Profile × HandoffAdoption) := do
  let request ← requireValue (get? store.requests requestId) "Unknown session request"
  if !request.restartHandoff ∨ request.state ≠ .active ∨ !truthy request.sessionId then
    .ok (store, .notHandoff)
  else if request.owner = owner then .ok (store, .adopted)
  else if surroundings.isOwnerLive request.owner = true then .ok (store, .pending)
  else
    let (_, resource) ← ownedResource store requestId request
    let binding := surroundings.slot resource.scopeKey resource.allocationIndex
    if resource.state ≠ .active ∨ !ownsReadyBinding binding (request.sessionId.getD "") owner then
      .ok (store, .pending)
    else
      .ok (updateRequest surroundings store requestId
        { request with owner := owner, restartHandoff := false }, .adopted)

end AutoMobile.SessionBroker
