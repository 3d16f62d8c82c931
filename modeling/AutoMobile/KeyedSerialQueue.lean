import AutoMobile.InsertionMap
import AutoMobile.Runs

/- `runKeyedSerial`: the calls on one key run one after another, each behind the tail of the one
before it. A call's promises settle in steps of their own. -/
namespace AutoMobile.KeyedSerial

open InsertionMap

inductive Phase where
  | waiting
  | running
  | finished
  | gaveUp
deriving DecidableEq, Repr

/-- A call with its promises: `previous` is the call whose tail it is behind. -/
structure Call where
  executionKey : String
  idleCloseKey : Option String
  previous : Option Nat
  /-- Whether the call stops waiting at a deadline. -/
  bounded : Bool
  phase : Phase := .waiting
  tailSettled : Bool := false
  /-- Whether the `finally` of the tail has run. -/
  finalized : Bool := false
deriving DecidableEq, Repr

structure State where
  tails : InsertionMap String Nat := []
  idleCloseKeys : InsertionMap String (List String) := []
  calls : List Call := []
deriving DecidableEq, Repr

/-- What is told of a step, and first each call as it was made. -/
inductive Output where
  | called (executionKey : String) (idleCloseKey : Option String)
  | acquired (idleCloseKey : String)
  | started (call : Nat) (executionKey : String)
  | settled (call : Nat) (ok : Bool)
  | timedOut (call : Nat) (executionKey : String)
  | chainDrained (executionKey : String)
  | drained (executionKey idleCloseKey : String)
deriving DecidableEq, Repr

inductive Event where
  | call (executionKey : String) (idleCloseKey : Option String) (chainWait : Bool)
  | acquire (call : Nat)
  | giveUp (call : Nat)
  | finish (call : Nat) (ok : Bool)
  | settleTail (call : Nat)
  | finalize (call : Nat)
deriving DecidableEq, Repr

/-- A set keeps the order in which its members came. -/
def addTo (members : List String) (member : String) : List String :=
  if member ∈ members then members else members ++ [member]

/-- The synchronous part of a call: it registers the key to close, and becomes the tail. -/
def runKeyedSerial (state : State) (executionKey : String) (idleCloseKey : Option String)
    (chainWait : Bool) : State :=
  -- An empty key is none.
  let idleCloseKey := idleCloseKey.filter fun key => key ≠ ""
  let idleCloseKeys :=
    match idleCloseKey with
    | none => state.idleCloseKeys
    | some key =>
      put state.idleCloseKeys executionKey
        (addTo ((get? state.idleCloseKeys executionKey).getD []) key)
  let heldTail := get? state.tails executionKey
  let call : Call :=
    { executionKey, idleCloseKey, previous := heldTail, bounded := heldTail.isSome && chainWait }
  { tails := put state.tails executionKey state.calls.length
    idleCloseKeys
    calls := state.calls ++ [call] }

/-- Whether the tail that a call is behind has settled. -/
def previousSettled (state : State) (call : Call) : Bool :=
  call.previous.all fun previous => state.calls[previous]?.any Call.tailSettled

def update (state : State) (index : Nat) (call : Call) : State :=
  { state with calls := state.calls.set index call }

/-- The call whose tail settled leaves, if it is still the tail of its key. -/
def finalize (state : State) (index : Nat) (call : Call) : State × List Output :=
  let state := update state index { call with finalized := true }
  if get? state.tails call.executionKey = some index then
    ({ state with
        tails := erase state.tails call.executionKey
        idleCloseKeys := erase state.idleCloseKeys call.executionKey },
      .chainDrained call.executionKey :: ((get? state.idleCloseKeys call.executionKey).getD []).map
          (Output.drained call.executionKey))
  else (state, [])

/-- Whether a promise of the call can take the step. -/
def Enabled (state : State) : Event → Bool
  | .call _ _ _ => true
  | .acquire index => state.calls[index]?.any fun call =>
    call.phase = .waiting && previousSettled state call
  | .giveUp index => state.calls[index]?.any fun call => call.phase = .waiting && call.bounded
  | .finish index _ => state.calls[index]?.any fun call => call.phase = .running
  | .settleTail index => state.calls[index]?.any fun call =>
    (call.phase = .finished || call.phase = .gaveUp) && !call.tailSettled &&
      previousSettled state call
  | .finalize index => state.calls[index]?.any fun call => call.tailSettled && !call.finalized

def serve (state : State) (event : Event) : State × List Output :=
  if !Enabled state event then (state, [])
  else
    match event with
    | .call executionKey idleCloseKey chainWait =>
      (runKeyedSerial state executionKey idleCloseKey chainWait,
        [.called executionKey idleCloseKey])
    | .acquire index =>
      match state.calls[index]? with
      | none => (state, [])
      | some call =>
        (update state index { call with phase := .running },
          (call.idleCloseKey.map Output.acquired).toList ++ [.started index call.executionKey])
    | .giveUp index =>
      match state.calls[index]? with
      | none => (state, [])
      | some call =>
        (update state index { call with phase := .gaveUp }, [.timedOut index call.executionKey])
    | .finish index ok =>
      match state.calls[index]? with
      | none => (state, [])
      | some call => (update state index { call with phase := .finished }, [.settled index ok])
    | .settleTail index =>
      match state.calls[index]? with
      | none => (state, [])
      | some call => (update state index { call with tailSettled := true }, [])
    | .finalize index =>
      match state.calls[index]? with
      | none => (state, [])
      | some call => finalize state index call

end AutoMobile.KeyedSerial
