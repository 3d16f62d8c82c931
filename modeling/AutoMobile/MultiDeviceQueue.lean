import AutoMobile.GraphSearch
import AutoMobile.IteratedRemoval
import AutoMobile.MultiDeviceMatching

/- `MultiDeviceAllocationQueue`: who waits for whom among the queued requests. -/
namespace AutoMobile.MultiDevice

inductive Platform where
  | android
  | ios
  | watchos
  | tvos
  | visionos
deriving DecidableEq, Repr

structure DeviceAllocationCriteria where
  platform : Option Platform := none
  simulatorType : Option String := none
  iosVersion : Option String := none
deriving DecidableEq, Repr

structure DeviceAllocationRequest (σ : Type) where
  sessionId : σ
  criteria : Option DeviceAllocationCriteria := none
deriving DecidableEq, Repr

/-- Tickets are compared as objects, which `id` stands for. -/
structure MultiDeviceAllocationTicket (σ : Type) where
  id : Nat
  requests : List (DeviceAllocationRequest σ)
  heldSessionIds : List σ
  /-- Only sessions of its requests are recorded. -/
  recorded : ∀ sessionId ∈ heldSessionIds, sessionId ∈ requests.map (·.sessionId)
deriving DecidableEq, Repr

/-- What the queue asks of the pool, as far as the deadlock analysis goes. -/
structure MultiDeviceAllocationQueuePort (σ δ : Type) where
  deviceHeldByExistingSession : σ → Option δ
  heldDeviceDisqualification : DeviceAllocationRequest σ → δ → Option String
  getDevicesMatchingCriteria : Option DeviceAllocationCriteria → List δ
  hasPendingAndroidRecoveryMatching : Option DeviceAllocationCriteria → Bool
  potentialSupplyFor : DeviceAllocationRequest σ → List δ

/-- A queued ticket whose pre-existing session pins a device. -/
structure PinnedDeviceHolder (σ : Type) where
  ticket : MultiDeviceAllocationTicket σ
  sessionId : σ
deriving DecidableEq, Repr

structure PinnedDeviceWait (σ δ : Type) where
  request : DeviceAllocationRequest σ
  deviceId : δ
  holders : List (PinnedDeviceHolder σ)

/-- The edges of one ticket in the wait-for graph. -/
structure DeadlockWait (σ δ : Type) where
  queuedBehind : List (MultiDeviceAllocationTicket σ)
  blockedOn : List (PinnedDeviceWait σ δ)

variable {σ δ : Type} [DecidableEq σ] [DecidableEq δ]

/-- Two requests conflict unless both name a platform and the platforms differ. -/
def DeviceAllocationRequest.conflicts (prior request : DeviceAllocationRequest σ) : Bool :=
  match prior.criteria.bind (·.platform), request.criteria.bind (·.platform) with
  | some one, some other => one = other
  | _, _ => true

def MultiDeviceAllocationTicket.conflicts (waiter ticket : MultiDeviceAllocationTicket σ) : Bool :=
  waiter.requests.any (fun prior => ticket.requests.any (fun request => prior.conflicts request))

/-- `queue.indexOf(ticket)` as the end of a slice: `-1` leaves out the last ticket. -/
def sliceEnd (queue : List (MultiDeviceAllocationTicket σ)) (ticket : MultiDeviceAllocationTicket σ) :
    Nat :=
  if ticket ∈ queue then queue.idxOf ticket else queue.length - 1

/-- Earlier queued tickets that `ticket` must wait behind. -/
def earlierConflictingTickets (queue : List (MultiDeviceAllocationTicket σ))
    (ticket : MultiDeviceAllocationTicket σ) : List (MultiDeviceAllocationTicket σ) :=
  (queue.take (sliceEnd queue ticket)).filter (fun waiter => waiter.conflicts ticket)

variable (port : MultiDeviceAllocationQueuePort σ δ)
  (queue : List (MultiDeviceAllocationTicket σ))

/-- Snapshots which of the ticket's sessions hold a pooled device right now. -/
def recordHeldSessions (ticket : MultiDeviceAllocationTicket σ) : MultiDeviceAllocationTicket σ :=
  { ticket with
    heldSessionIds := (ticket.requests.map (·.sessionId)).filter
      (fun sessionId => (port.deviceHeldByExistingSession sessionId).isSome) |>.eraseDups
    recorded := fun _ recorded => List.mem_of_mem_filter (List.mem_eraseDups.mp recorded) }

/-- The holders of a device, in queue order. -/
def pinnedDevicesByTicket (deviceId : δ) : List (PinnedDeviceHolder σ) :=
  queue.flatMap (fun ticket => ticket.heldSessionIds.filterMap (fun sessionId =>
    if port.deviceHeldByExistingSession sessionId = some deviceId then
      some ⟨ticket, sessionId⟩
    else none))

/-- The request takes a device of the pool once it is served. -/
def claimed (ticket : MultiDeviceAllocationTicket σ) (request : DeviceAllocationRequest σ) : Bool :=
  (port.deviceHeldByExistingSession request.sessionId).isNone ||
    decide (request.sessionId ∉ ticket.heldSessionIds)

/-- A session's held device cannot serve its request, so the attempt fails fast. -/
def disqualified (request : DeviceAllocationRequest σ) : Bool :=
  match port.deviceHeldByExistingSession request.sessionId with
  | some held => (port.heldDeviceDisqualification request held).isSome
  | none => false

/-- Claims a queued ticket still waits on, or none when the analysis cannot
reason about it. -/
def unmetMultiDeviceClaims (ticket : MultiDeviceAllocationTicket σ) :
    Option (List (DeviceAllocationRequest σ)) :=
  if ticket.requests.any (disqualified port) then none
  else
    let claims := ticket.requests.filter (claimed port ticket)
    let unknowable := claims.any (fun request =>
      (port.getDevicesMatchingCriteria request.criteria).isEmpty ||
        port.hasPendingAndroidRecoveryMatching request.criteria)
    if claims.isEmpty || unknowable then none else some claims

/-- `pinnedBy`: some holder of the device is a ticket of this kind. -/
def pinnedBy (pinned : δ → List (PinnedDeviceHolder σ)) (deviceId : δ)
    (test : MultiDeviceAllocationTicket σ → Bool) : Bool :=
  (pinned deviceId).any (fun holder => test holder.ticket)

/-- Whether the claims cannot be filled without a device that a blocker pins, yet
could be with them. -/
def isDeviceBlockedBy (ticket : MultiDeviceAllocationTicket σ)
    (claims : List (DeviceAllocationRequest σ)) (blockers : List (MultiDeviceAllocationTicket σ))
    (pinned : δ → List (PinnedDeviceHolder σ)) : Bool :=
  let candidates := claims.map (fun request =>
    (port.potentialSupplyFor request).filter
      (fun deviceId => !pinnedBy pinned deviceId (fun other => other = ticket)))
  let supply := candidates.map (fun ids =>
    ids.filter (fun deviceId => !pinnedBy pinned deviceId (fun other => other ∈ blockers)))
  !hasCompleteMatching supply && hasCompleteMatching candidates

def claimsByTicket :
    List (MultiDeviceAllocationTicket σ × List (DeviceAllocationRequest σ)) :=
  queue.filterMap (fun ticket => (unmetMultiDeviceClaims port ticket).map (fun claims =>
    (ticket, claims)))

/-- `claimsByTicket.get(ticket) ?? []`. -/
def claimsOf (ticket : MultiDeviceAllocationTicket σ) : List (DeviceAllocationRequest σ) :=
  ((claimsByTicket port queue).lookup ticket).getD []

def stuck (pinned : δ → List (PinnedDeviceHolder σ))
    (deadlocked : List (MultiDeviceAllocationTicket σ)) (ticket : MultiDeviceAllocationTicket σ) :
    Bool :=
  (earlierConflictingTickets queue ticket).any (fun other => other ∈ deadlocked) ||
    isDeviceBlockedBy port ticket (claimsOf port queue ticket) deadlocked pinned

/-- Waiting tickets that can never complete, with their claims. -/
def findDeadlockedTickets (pinned : δ → List (PinnedDeviceHolder σ)) :
    List (MultiDeviceAllocationTicket σ × List (DeviceAllocationRequest σ)) :=
  let waiting := (claimsByTicket port queue).map (·.1)
  let deadlocked := IteratedRemoval.settle (stuck port queue pinned) waiting.length waiting
  deadlocked.map (fun ticket => (ticket, claimsOf port queue ticket))

/-- A candidate device of a claim pinned by other deadlocked tickets. -/
def pinnedWaits (pinned : δ → List (PinnedDeviceHolder σ))
    (members : List (MultiDeviceAllocationTicket σ)) (ticket : MultiDeviceAllocationTicket σ)
    (request : DeviceAllocationRequest σ) : List (PinnedDeviceWait σ δ) :=
  (port.potentialSupplyFor request).flatMap (fun deviceId =>
    let holders := (pinned deviceId).filter (fun holder =>
      decide (holder.ticket ≠ ticket) && decide (holder.ticket ∈ members))
    if holders.length > 0 then [⟨request, deviceId, holders⟩] else [])

/-- Why each deadlocked ticket waits: its edges in the wait-for graph. -/
def deadlockWaits
    (deadlocked : List (MultiDeviceAllocationTicket σ × List (DeviceAllocationRequest σ)))
    (pinned : δ → List (PinnedDeviceHolder σ)) :
    List (MultiDeviceAllocationTicket σ × DeadlockWait σ δ) :=
  let members := deadlocked.map (·.1)
  deadlocked.map (fun (ticket, claims) =>
    (ticket,
      { queuedBehind := (earlierConflictingTickets queue ticket).filter
          (fun other => other ∈ members)
        blockedOn := if isDeviceBlockedBy port ticket claims members pinned then
            claims.flatMap (pinnedWaits port pinned members ticket)
          else [] }))

def waitSuccessors (waits : List (MultiDeviceAllocationTicket σ × DeadlockWait σ δ))
    (ticket : MultiDeviceAllocationTicket σ) : List (MultiDeviceAllocationTicket σ) :=
  match waits.lookup ticket with
  | some wait => wait.queuedBehind ++
      wait.blockedOn.flatMap (fun entry => entry.holders.map (·.ticket))
  | none => []

/-- Nodes that reach `start` and are reachable from it, including `start`. -/
def stronglyConnectedWith {α : Type} [DecidableEq α] (nodes : List α) (start : α)
    (successors : α → List α) : List α :=
  let forward := GraphSearch.reachableFrom successors nodes start
  if start ∈ forward then
    forward.filter (fun node =>
      decide (node = start) || decide (start ∈ GraphSearch.reachableFrom successors nodes node))
  else [start]

/-- The other members of the cycle that a ticket is failed for, in queue order, or
none when the ticket keeps waiting. -/
def throwIfMultiDeviceAllocationDeadlocked (ticket : MultiDeviceAllocationTicket σ) :
    Option (List (MultiDeviceAllocationTicket σ)) :=
  let pinned := pinnedDevicesByTicket port queue
  let deadlocked := findDeadlockedTickets port queue pinned
  let members := deadlocked.map (·.1)
  if ticket ∈ members then
    let waits := deadlockWaits port queue deadlocked pinned
    let cycle := stronglyConnectedWith members ticket (waitSuccessors waits)
    if decide (cycle.length < 2) ||
        cycle.any (fun other => decide (queue.idxOf other > queue.idxOf ticket)) then none
    else
      some ((cycle.filter (fun other => other ≠ ticket)).mergeSort
        (fun a b => decide (queue.idxOf a ≤ queue.idxOf b)))
  else none

end AutoMobile.MultiDevice
