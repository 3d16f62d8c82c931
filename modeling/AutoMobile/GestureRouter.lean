import AutoMobile.InsertionMap
import AutoMobile.Runs

/- The router of streamed gestures on the device. Everything runs on the gesture
thread, one posted block after another; a session may report its end at any
time, also inside the call that the router makes to it. -/
namespace AutoMobile.GestureRouter

open InsertionMap

/-- A connected client is known by its reference only. -/
abbrev ConnectedClient := Nat

structure Outcome where
  success : Bool
  error : Option String
deriving DecidableEq, Repr

/-- `ticket` numbers the end requests, so that two with one request id differ. -/
structure PendingEnd where
  requestId : String
  requester : Option ConnectedClient
  ticket : Nat
deriving DecidableEq, Repr

/-- A gesture with the id that its finish callback is bound to. -/
structure Gesture where
  gestureId : String
  owner : Option ConnectedClient
  disconnected : Bool := false
deriving DecidableEq, Repr

def maxTerminalFailures : Nat := 16

/-- `gestures` holds every gesture made so far; its index is its reference. -/
structure Router where
  gestures : List Gesture := []
  sessions : InsertionMap String Nat := []
  pendingEndRequests : InsertionMap String (List PendingEnd) := []
  terminalFailures : InsertionMap String Outcome := []
  closed : Bool := false
  ends : Nat := 0
deriving DecidableEq, Repr

inductive Request
  | start
  | move
  | finishing (ticket : Nat)
deriving DecidableEq, Repr

/-- `result` is a call of `onResult`, with the request that it answers;
`evicted` notes a failure that the cap drops. -/
inductive Output
  | result (request : Request) (requestId : Option String) (outcome : Outcome)
  | warning (message : String)
  | evicted (gestureId : String)
deriving DecidableEq, Repr

/-- A block on the gesture thread. `reported` is what the session reports inside
the call that the router makes to it; `connected` is the state of the sockets. -/
inductive Event
  | start (requestId : Option String) (gestureId : String) (owner : Option ConnectedClient)
      (ownerConnected : Bool) (reported : Option Outcome)
  | cancelOwnedBy (owner : ConnectedClient) (connected : ConnectedClient → Bool)
      (reported : Nat → Option Outcome)
  | move (requestId : Option String) (gestureId : String) (reported : Option Outcome)
  | finishing (requestId : Option String) (gestureId : String)
      (requester : Option ConnectedClient) (reported : Option Outcome)
  | terminated (gesture : Nat) (outcome : Outcome)
  | close (reported : Nat → Option Outcome)

def PendingEnd.answer (outcome : Outcome) (pending : PendingEnd) : Output :=
  .result (.finishing pending.ticket) (some pending.requestId) outcome

/-- The failures with one more, and the ids that the cap drops. -/
def recordFailure (failures : InsertionMap String Outcome) (gestureId : String)
    (outcome : Outcome) : InsertionMap String Outcome × List Output :=
  let recorded := put failures gestureId outcome
  if recorded.length > maxTerminalFailures then
    match recorded with
    | [] => (recorded, [])
    | oldest :: _ => (erase recorded oldest.1, [.evicted oldest.1])
  else (recorded, [])

def finish (router : Router) (reference : Nat) (outcome : Outcome) : Router × List Output :=
  match router.gestures[reference]? with
  | none => (router, [])
  | some gesture =>
    if gesture.disconnected then
      (router, if outcome.success then [] else
        [.warning ("Failed to release disconnected gesture " ++ gesture.gestureId ++ ": " ++
          outcome.error.getD "null")])
    else if router.closed || get? router.sessions gesture.gestureId ≠ some reference then
      (router, [])
    else
      let requests := (get? router.pendingEndRequests gesture.gestureId).getD []
      let kept := if outcome.success then (router.terminalFailures, [])
        else recordFailure router.terminalFailures gesture.gestureId outcome
      ({ router with
          sessions := erase router.sessions gesture.gestureId
          pendingEndRequests := erase router.pendingEndRequests gesture.gestureId
          terminalFailures := kept.1 },
        kept.2 ++ requests.map (PendingEnd.answer outcome))

/-- What a session reports inside a call, if anything. -/
def report (router : Router) (reference : Nat) : Option Outcome → Router × List Output
  | none => (router, [])
  | some outcome => finish router reference outcome

def start (router : Router) (requestId : Option String) (gestureId : String)
    (owner : Option ConnectedClient) (ownerConnected : Bool) (reported : Option Outcome) :
    Router × List Output :=
  if router.closed || (owner.isSome && !ownerConnected) then (router, [])
  else if has router.sessions gestureId then
    (router, [.result .start requestId
      ⟨false, some ("Gesture " ++ gestureId ++ " is already active")⟩])
  else
    let reference := router.gestures.length
    let started := { router with
      gestures := router.gestures ++ [{ gestureId, owner }]
      sessions := put router.sessions gestureId reference
      -- a new stream with the same id supersedes an unclaimed old result
      terminalFailures := erase router.terminalFailures gestureId }
    let after := report started reference reported
    (after.1, after.2 ++ [.result .start requestId ⟨true, none⟩])

def disconnect (gesture : Gesture) : Gesture := { gesture with disconnected := true }

/-- A waiter that a disconnect of the owner still answers. -/
def PendingEnd.answerable (owner : ConnectedClient) (connected : ConnectedClient → Bool)
    (pending : PendingEnd) : Bool :=
  match pending.requester with
  | none => true
  | some requester => requester ≠ owner && connected requester

/-- One owned gesture of a client that disconnects. -/
def cancelOwned (owner : ConnectedClient) (connected : ConnectedClient → Bool)
    (reported : Nat → Option Outcome) (router : Router) (session : String × Nat) :
    Router × List Output :=
  let requests := (get? router.pendingEndRequests session.1).getD []
  let left := { router with
    gestures := router.gestures.modify session.2 disconnect
    sessions := erase router.sessions session.1
    pendingEndRequests := erase router.pendingEndRequests session.1
    terminalFailures := erase router.terminalFailures session.1 }
  let after := report left session.2 (reported session.2)
  (after.1, (requests.filter (PendingEnd.answerable owner connected)).map
    (PendingEnd.answer ⟨false, some "Gesture owner disconnected"⟩) ++ after.2)

/-- The sessions of a client, in the order in which they were started. -/
def ownedBy (router : Router) (owner : ConnectedClient) : List (String × Nat) :=
  router.sessions.filter fun session =>
    (router.gestures[session.2]?).bind Gesture.owner = some owner

def cancelOwnedBy (router : Router) (owner : ConnectedClient)
    (connected : ConnectedClient → Bool) (reported : Nat → Option Outcome) :
    Router × List Output :=
  Runs.run (cancelOwned owner connected reported) router (ownedBy router owner)

def move (router : Router) (requestId : Option String) (gestureId : String)
    (reported : Option Outcome) : Router × List Output :=
  if router.closed then (router, [])
  else
    let after := match get? router.sessions gestureId with
      | none => (router, [])
      | some reference => report router reference reported
    (after.1, after.2 ++ [.result .move requestId ⟨true, none⟩])

/-- The router's `end`. -/
def finishing (router : Router) (requestId : Option String) (gestureId : String)
    (requester : Option ConnectedClient) (reported : Option Outcome) : Router × List Output :=
  if router.closed then (router, [])
  else
    let ticket := router.ends
    let router := { router with ends := ticket + 1 }
    match get? router.sessions gestureId with
    | none =>
      -- a failure can arrive before the end frame; success is the default
      let outcome := (get? router.terminalFailures gestureId).getD ⟨true, none⟩
      ({ router with terminalFailures := erase router.terminalFailures gestureId },
        [.result (.finishing ticket) requestId outcome])
    | some reference =>
      let waiting := match requestId with
        | none => router
        | some requestId => { router with
            pendingEndRequests :=
              push router.pendingEndRequests gestureId ⟨requestId, requester, ticket⟩ }
      report waiting reference reported

def close (router : Router) (reported : Nat → Option Outcome) : Router × List Output :=
  if router.closed then (router, [])
  else
    let after := Runs.run (fun router session => report router session.2 (reported session.2))
      { router with closed := true } router.sessions
    ({ after.1 with sessions := [], pendingEndRequests := [], terminalFailures := [] },
      after.2 ++ (values after.1.pendingEndRequests).flatten.map
        (PendingEnd.answer ⟨false, some "Gesture stream closed"⟩))

def step (router : Router) : Event → Router × List Output
  | .start requestId gestureId owner ownerConnected reported =>
    start router requestId gestureId owner ownerConnected reported
  | .cancelOwnedBy owner connected reported => cancelOwnedBy router owner connected reported
  | .move requestId gestureId reported => move router requestId gestureId reported
  | .finishing requestId gestureId requester reported =>
    finishing router requestId gestureId requester reported
  | .terminated reference outcome => finish router reference outcome
  | .close reported => close router reported

def run (events : List Event) : Router × List Output := Runs.run step {} events

/-- The answers that an end request has got. -/
def answersTo (ticket : Nat) (outputs : List Output) : List (Option String × Outcome) :=
  outputs.filterMap fun output =>
    match output with
    | .result (.finishing other) requestId outcome =>
      if other = ticket then some (requestId, outcome) else none
    | _ => none

end AutoMobile.GestureRouter
