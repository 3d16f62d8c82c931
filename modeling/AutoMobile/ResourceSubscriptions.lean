import AutoMobile.Runs

/- The resource subscriptions of the daemon proxy over one connected client. A call
adds or removes its URI at once and queues an operation; the operation chooses
between subscribe and unsubscribe when its turn comes, and the caller goes on in a
later turn, after its operation has settled and before the next one begins. -/
namespace AutoMobile.ResourceSubscriptions

/-- What a JavaScript set keeps: its elements in order, and holes for deleted ones. -/
abbrev SetData := List (Option String)

def SetData.contains (entries : SetData) (uri : String) : Bool := List.contains entries (some uri)

def SetData.add (entries : SetData) (uri : String) : SetData :=
  if entries.contains uri then entries else entries ++ [some uri]

def SetData.delete (entries : SetData) (uri : String) : SetData :=
  entries.map fun entry => if entry = some uri then none else entry

/-- The element at or after a position, and the position behind it. -/
def SetData.next : SetData → Nat → Option (String × Nat)
  | [], _ => none
  | some uri :: _, 0 => some (uri, 1)
  | none :: rest, 0 => (next rest 0).map fun found => (found.1, found.2 + 1)
  | _ :: rest, position + 1 => (next rest position).map fun found => (found.1, found.2 + 1)

inductive Method | subscribe | unsubscribe
deriving DecidableEq, Repr

/-- `permanent` is the answer of `isPermanentResourceSubscriptionRejection`. -/
inductive Result
  | succeeded
  | failed (permanent : Bool)
deriving DecidableEq, Repr

/-- Who awaits an operation; a replay is known by its place in the set. -/
inductive Caller
  | subscriber (call : Nat)
  | unsubscriber (call : Nat)
  | replayer (position : Nat)
deriving DecidableEq, Repr

/-- A call of `syncResourceSubscription`, numbered in call order. -/
structure Operation where
  index : Nat
  uri : String
  caller : Caller
deriving DecidableEq, Repr

/-- Where the first operation of the queue is. -/
inductive Phase
  | waiting
  | running (method : Method)
  | settled (method : Method) (result : Result)
deriving DecidableEq, Repr

/-- A subscribeResource call that stands: it is made and has not been rejected, and
neither an unsubscribeResource call nor a replay rejected for good has ended it. -/
structure Standing where
  call : Nat
  uri : String
  resolved : Bool
deriving DecidableEq, Repr

/-- `daemon` lists the subscriptions that the daemon has for the client; `standing`
is a record of the calls and is read by no step. -/
structure State where
  resourceSubscriptions : SetData := []
  queue : List Operation := []
  phase : Phase := .waiting
  operations : Nat := 0
  calls : Nat := 0
  daemon : List String := []
  standing : List Standing := []
deriving DecidableEq, Repr

inductive Event
  | subscribeResource (uri : String)
  | unsubscribeResource (uri : String)
  | replayResourceSubscriptions
  | begin
  | settle (result : Result)
  | resume
deriving DecidableEq, Repr

/-- `issued` and `finished` are the two ends of an RPC; `dropped` is a URI that a
replay takes out after a rejection for good. -/
inductive Output
  | issued (index : Nat) (uri : String) (method : Method)
  | finished (index : Nat) (uri : String) (method : Method) (succeeded : Bool)
  | resolved (call : Nat)
  | rejected (call : Nat)
  | dropped (uri : String)
deriving DecidableEq, Repr

def syncResourceSubscription (state : State) (uri : String) (caller : Caller) : State :=
  { state with
    queue := state.queue ++ [⟨state.operations, uri, caller⟩]
    operations := state.operations + 1 }

def subscribeResource (state : State) (uri : String) : State :=
  syncResourceSubscription { state with
    resourceSubscriptions := state.resourceSubscriptions.add uri
    calls := state.calls + 1
    standing := state.standing ++ [⟨state.calls, uri, false⟩] } uri (.subscriber state.calls)

def unsubscribeResource (state : State) (uri : String) : State :=
  syncResourceSubscription { state with
    resourceSubscriptions := state.resourceSubscriptions.delete uri
    calls := state.calls + 1
    standing := state.standing.filter fun standing => standing.uri ≠ uri } uri
      (.unsubscriber state.calls)

/-- The loop of `replayResourceSubscriptions` from a place in the set to its next
await; the set is read as it is then. -/
def replayFrom (state : State) (position : Nat) : State :=
  match state.resourceSubscriptions.next position with
  | none => state
  | some (uri, after) => syncResourceSubscription state uri (.replayer after)

def methodFor (state : State) (uri : String) : Method :=
  if state.resourceSubscriptions.contains uri then .subscribe else .unsubscribe

def begin (state : State) : State × List Output :=
  match state.queue, state.phase with
  | operation :: _, .waiting =>
    let method := methodFor state operation.uri
    ({ state with phase := .running method }, [.issued operation.index operation.uri method])
  | _, _ => (state, [])

/-- A failed RPC leaves the daemon's subscription as it is. -/
def afterRpc (daemon : List String) (uri : String) (method : Method) : Result → List String
  | .failed _ => daemon
  | .succeeded =>
    match method with
    | .subscribe => uri :: daemon
    | .unsubscribe => daemon.filter fun other => other ≠ uri

def settle (state : State) (result : Result) : State × List Output :=
  match state.queue, state.phase with
  | operation :: _, .running method =>
    ({ state with
        phase := .settled method result
        daemon := afterRpc state.daemon operation.uri method result },
      [.finished operation.index operation.uri method (result = .succeeded)])
  | _, _ => (state, [])

def resolve (call : Nat) (standing : Standing) : Standing :=
  if standing.call = call then { standing with resolved := true } else standing

/-- The turn in which the caller of a settled operation goes on. -/
def resumeCaller (state : State) (operation : Operation) (result : Result) : State × List Output :=
  match operation.caller, result with
  | .subscriber call, .succeeded =>
    ({ state with standing := state.standing.map (resolve call) }, [.resolved call])
  | .subscriber call, .failed _ =>
    ({ state with
        resourceSubscriptions := state.resourceSubscriptions.delete operation.uri
        standing := state.standing.filter fun standing => standing.call ≠ call },
      [.rejected call])
  | .unsubscriber call, .succeeded => (state, [.resolved call])
  | .unsubscriber call, .failed _ => (state, [.rejected call])
  | .replayer position, .failed true =>
    (replayFrom { state with
        resourceSubscriptions := state.resourceSubscriptions.delete operation.uri
        standing := state.standing.filter fun standing =>
          !(standing.uri = operation.uri && standing.resolved) } position,
      [.dropped operation.uri])
  | .replayer position, _ => (replayFrom state position, [])

def resume (state : State) : State × List Output :=
  match state.queue, state.phase with
  | operation :: rest, .settled _ result =>
    resumeCaller { state with queue := rest, phase := .waiting } operation result
  | _, _ => (state, [])

def step (state : State) : Event → State × List Output
  | .subscribeResource uri => (subscribeResource state uri, [])
  | .unsubscribeResource uri => (unsubscribeResource state uri, [])
  | .replayResourceSubscriptions => (replayFrom state 0, [])
  | .begin => begin state
  | .settle result => settle state result
  | .resume => resume state

/-- The subscriptions before the client connected, and nothing at the daemon. -/
def connected (uris : List String) : State := { resourceSubscriptions := uris.foldl SetData.add [] }

def run (uris : List String) (events : List Event) : State × List Output :=
  Runs.run step (connected uris) events

/-- A caller that removes its URI takes it from no other call: a subscribeResource call
is rejected only when no other one of the URI stands, and a replay is rejected for good
only when each one of the URI that stands has resolved. -/
def undisturbed (state : State) : Event → Bool
  | .resume =>
    match state.queue, state.phase with
    | operation :: _, .settled _ (.failed permanent) =>
      match operation.caller with
      | .subscriber call => state.standing.all fun standing =>
        standing.uri ≠ operation.uri || standing.call = call
      | .replayer _ => !permanent || state.standing.all fun standing =>
        standing.uri ≠ operation.uri || standing.resolved
      | .unsubscriber _ => true
    | _, _ => true
  | _ => true

/-- Every block of the run leaves the URIs of other calls alone. -/
def Undisturbed (uris : List String) (events : List Event) : Prop :=
  Runs.Meets step (fun state event => undisturbed state event = true) (connected uris) events

inductive Rpc
  | issued (index : Nat)
  | finished (index : Nat)
deriving DecidableEq, Repr

/-- The RPCs of a run, each with its two ends. -/
def rpcs (outputs : List Output) : List Rpc :=
  outputs.filterMap fun output =>
    match output with
    | .issued index _ _ => some (.issued index)
    | .finished index _ _ _ => some (.finished index)
    | _ => none

/-- The first RPCs one after another. -/
def inTurn (count : Nat) : List Rpc :=
  (List.range count).flatMap fun index => [.issued index, .finished index]

/-- The last RPC of a URI that came to an end, and whether it succeeded. -/
def lastRpc (uri : String) (outputs : List Output) : Option (Method × Bool) :=
  (outputs.filterMap fun output =>
    match output with
    | .finished _ other method succeeded => if other = uri then some (method, succeeded) else none
    | _ => none).getLast?

end AutoMobile.ResourceSubscriptions
