import Mathlib.Data.List.Perm.Basic
import AutoMobile.Runs

/- `SdkEventBuffer`: events wait in a buffer, then in a queue of batches, until a worker hands them
to `onFlush`. Every section under the lock is one step, and so is every hand-over. -/
namespace AutoMobile.EventBuffer

open Runs

section Model

inductive BackPressureStrategy where
  | dropOldest
  | ignoreNewest
deriving DecidableEq

inductive DropReason where
  | shutdown
  | disabled
  | filtered
  | processorError
  | bufferOverflow
deriving DecidableEq

structure Settings where
  maxBufferSize : Nat
  maxPendingEvents : Nat
  backPressureStrategy : BackPressureStrategy
  bufferPositive : 0 < maxBufferSize
  pendingPositive : 0 < maxPendingEvents

/-- What the call of `add` numbered `call` has made of its event so far. -/
structure Tracked (Event : Type) where
  call : Nat
  event : Event
deriving DecidableEq

/-- A processor gives a replacement, drops the event, or throws. -/
inductive Processed (Event : Type) where
  | replaced (event : Event)
  | dropped
  | thrown

/-- How a call of `onFlush` ends: `unsent` is an `UnsentEventBatchesException`. -/
inductive Delivery (Event : Type) where
  | sent
  | unsent (batches : List (List Event))
  | failed

variable {Event : Type}

/-- With the fields of the buffer: the calls of `add` that have found it open (`entered`) and those
past the processors (`processed`); the drains of the executor and the direct flushes with the batch
each has in hand; what `onFlush` was given, in order, and what was counted as dropped; `accepted` is
what the buffer took, in order. -/
structure State (Event : Type) where
  buffer : List (Tracked Event) := []
  pendingBatches : List (List (Tracked Event)) := []
  isDeliveryScheduled : Bool := false
  isShutdown : Bool := false
  isEnabled : Bool := true
  given : Nat := 0
  entered : List (Tracked Event) := []
  processed : List (Tracked Event) := []
  drains : List (Option (List (Tracked Event))) := []
  flushes : List (List (Tracked Event)) := []
  handed : List (Tracked Event) := []
  dropped : List (Tracked Event × DropReason) := []
  flushErrors : Nat := 0
  accepted : List (Tracked Event) := []
  awaiting : Bool := false
  finished : Bool := false

def State.drop (state : State Event) (event : Tracked Event) (reason : DropReason) : State Event :=
  { state with dropped := state.dropped ++ [(event, reason)] }

/-- `PendingEventBackpressure.pendingEventCount`. -/
def pendingEventCount (state : State Event) : Nat :=
  state.buffer.length + state.pendingBatches.flatten.length

/-- `none` where `removeAt` throws. -/
def dropOldestPendingEvent (state : State Event) : Option (Tracked Event × State Event) :=
  match state.pendingBatches with
  | [] =>
    match state.buffer with
    | [] => none
    | oldest :: rest => some (oldest, { state with buffer := rest })
  | [] :: _ => none
  | (oldest :: rest) :: later =>
    some (oldest, { state with
      pendingBatches := if rest.isEmpty then later else rest :: later })

/-- The loop of `add`, and whether it goes on to the buffer; `none` where it throws. -/
def makeRoom (settings : Settings) (current : Tracked Event) :
    Nat → State Event → Option (State Event × Bool)
  | 0, state => some (state, true)
  | fuel + 1, state =>
    if pendingEventCount state < settings.maxPendingEvents then some (state, true)
    else
      match settings.backPressureStrategy with
      | .dropOldest =>
        match dropOldestPendingEvent state with
        | none => none
        | some (oldest, rest) => makeRoom settings current fuel (rest.drop oldest .bufferOverflow)
      | .ignoreNewest => some (state.drop current .bufferOverflow, false)

def enqueueDelivery (state : State Event) (events : List (Tracked Event)) : State Event :=
  { state with
    pendingBatches := state.pendingBatches ++ [events]
    isDeliveryScheduled := true
    drains := if state.isDeliveryScheduled then state.drains else state.drains ++ [none] }

/-- The buffer becomes a batch of the queue. -/
def enqueueBuffer (state : State Event) : State Event :=
  enqueueDelivery { state with buffer := [] } state.buffer

/-- The section of `add` under the lock. -/
def addLocked (settings : Settings) (state : State Event) (current : Tracked Event) :
    Option (State Event) :=
  if state.isShutdown then some (state.drop current .shutdown)
  else
    (makeRoom settings current (pendingEventCount state + 1) state).map fun (roomy, goesOn) =>
      if goesOn then
        let added := { roomy with
          buffer := roomy.buffer ++ [current]
          accepted := roomy.accepted ++ [current] }
        if settings.maxBufferSize ≤ added.buffer.length then enqueueBuffer added else added
      else roomy

/-- `processEvent`: the processors in order, up to one that drops the event or throws. -/
def processEvent (event : Event) : List (Event → Processed Event) → Except DropReason Event
  | [] => .ok event
  | processor :: rest =>
    match processor event with
    | .replaced current => processEvent current rest
    | .dropped => .error .filtered
    | .thrown => .error .processorError

/-- What `deliverBatch` counts under `FLUSH_ERROR`. -/
def Delivery.errors (delivery : Delivery Event) (events : List (Tracked Event)) : Nat :=
  match delivery with
  | .sent => 0
  | .unsent batches => batches.flatten.length
  | .failed => events.length

def deliverBatch (state : State Event) (events : List (Tracked Event))
    (delivery : Delivery Event) : State Event :=
  if events.isEmpty then state
  else
    { state with
      handed := state.handed ++ events
      flushErrors := state.flushErrors + delivery.errors events }

/-- One round of `drainDeliveries`: it takes a batch, or ends, or hands its batch over. -/
def drain (state : State Event) (index : Nat) (delivery : Delivery Event) : State Event :=
  match state.drains[index]? with
  | none => state
  | some none =>
    match state.pendingBatches with
    | [] => { state with isDeliveryScheduled := false, drains := state.drains.eraseIdx index }
    | events :: later =>
      { state with pendingBatches := later, drains := state.drains.set index (some events) }
  | some (some events) =>
    deliverBatch { state with drains := state.drains.set index none } events delivery

inductive Step (Event : Type) where
  | add (event : Event)
  | process (index : Nat) (processors : List (Event → Processed Event))
  | addLocked (index : Nat)
  | flush
  | deliverFlush (index : Nat) (delivery : Delivery Event)
  | enqueueFlush
  | drain (index : Nat) (delivery : Delivery Event)
  | setEnabled (enabled : Bool)
  | shutdown
  | awaitTermination

/-- A call of `shutdown` returned, with what was still pending. -/
structure Returned where
  pending : Nat
deriving DecidableEq

/-- One step of a thread; one that is not to be taken leaves the state as it is. -/
def step (settings : Settings) (state : State Event) : Step Event → State Event × List Returned
  | .add event =>
    let opened := { state with given := state.given + 1 }
    if state.isShutdown then (opened.drop ⟨state.given, event⟩ .shutdown, [])
    else ({ opened with entered := state.entered ++ [⟨state.given, event⟩] }, [])
  | .process index processors =>
    match state.entered[index]? with
    | none => (state, [])
    | some current =>
      let left := { state with entered := state.entered.eraseIdx index }
      if !state.isEnabled then (left.drop current .disabled, [])
      else
        match processEvent current.event processors with
        | .error reason => (left.drop current reason, [])
        | .ok event => ({ left with processed := left.processed ++ [⟨current.call, event⟩] }, [])
  | .addLocked index =>
    match state.processed[index]? with
    | none => (state, [])
    | some current =>
      let left := { state with processed := state.processed.eraseIdx index }
      ((addLocked settings left current).getD left, [])
  | .flush =>
    if state.buffer.isEmpty then (state, [])
    else ({ state with buffer := [], flushes := state.flushes ++ [state.buffer] }, [])
  | .deliverFlush index delivery =>
    match state.flushes[index]? with
    | none => (state, [])
    | some events =>
      (deliverBatch { state with flushes := state.flushes.eraseIdx index } events delivery, [])
  | .enqueueFlush =>
    if state.isShutdown || state.buffer.isEmpty then (state, []) else (enqueueBuffer state, [])
  | .drain index delivery => (drain state index delivery, [])
  | .setEnabled enabled => ({ state with isEnabled := enabled }, [])
  | .shutdown =>
    if state.isShutdown then (state, [⟨pendingEventCount state⟩])
    else
      let stopped := { state with isShutdown := true, awaiting := true }
      (if state.buffer.isEmpty then stopped else enqueueBuffer stopped, [])
  | .awaitTermination =>
    -- The executor has terminated once no drain is left.
    if state.awaiting && state.drains.isEmpty then
      ({ state with awaiting := false, finished := true }, [⟨pendingEventCount state⟩])
    else (state, [])

end Model

end AutoMobile.EventBuffer
