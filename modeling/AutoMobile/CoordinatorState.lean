import AutoMobile.Runs
import AutoMobile.RendezvousHistory

/- `CriticalSectionCoordinator`: barrier, mutex and delayed cleanup per key.
Every event below is one uninterrupted stretch of the event loop: a call from
outside, a timer callback, or the continuation of one awaited promise. -/
namespace AutoMobile.CriticalSection

open RendezvousHistory (Waiter Note)

/-- `Mutex` of the package `async-mutex`, driven by tickets. -/
structure MutexOps (M : Type) where
  new : M
  acquire : M → Nat → M
  release : M → Nat → M
  holder : M → Option Nat

/-- What the coordinator relies on: a held mutex stays with its holder until
that holder releases it. -/
structure MutexOps.Exclusive {M : Type} (ops : MutexOps M) : Prop where
  acquire_held : ∀ mutex ticket holder, ops.holder mutex = some holder →
    ops.holder (ops.acquire mutex ticket) = some holder
  release_other : ∀ mutex ticket holder, ops.holder mutex = some holder → holder ≠ ticket →
    ops.holder (ops.release mutex ticket) = some holder

/-- A first-come first-served mutex: the head of the queue holds it. -/
def fifoMutex : MutexOps (List Nat) where
  new := []
  acquire queue ticket := queue ++ [ticket]
  release queue ticket := if queue.head? = some ticket then queue.tail else queue
  holder queue := queue.head?

theorem fifoMutex_exclusive : fifoMutex.Exclusive where
  acquire_held := by
    intro queue ticket holder held
    cases queue with
    | nil => simp [fifoMutex] at held
    | cons head tail => simpa [fifoMutex] using held
  release_other := by
    intro queue ticket holder held other
    have kept : queue.head? ≠ some ticket := by
      intro same
      exact other (Option.some.inj (held.symm.trans same))
    simpa only [fifoMutex, kept, ↓reduceIte] using held

/-- Which of the two public calls waits at the barrier. -/
inductive Kind where
  | enterCriticalSection
  | awaitBarrier
deriving DecidableEq, Repr

/-- Where a call is. `arrived` and `mutex` are the objects its closures captured. -/
inductive Phase where
  | waiting (arrived : Nat)
  | lifted
  | queued (mutex : Nat)
  | abandoned (mutex : Nat)
  | inside (mutex : Nat)
  | left (mutex : Nat)
  | settled
deriving DecidableEq, Repr

structure Call (κ δ : Type) where
  key : κ
  deviceId : δ
  kind : Kind
  generation : Nat
  aborted : Bool
  phase : Phase
deriving DecidableEq, Repr

/-- The maps of the coordinator, and the sets, mutexes and calls they refer to.
A set or a mutex dropped from its map lives on in the closures that captured it. -/
structure Coordinator (κ δ M : Type) where
  locks : κ → Option Nat
  barrierCounts : κ → Option Nat
  expectedDeviceCounts : κ → Option Nat
  barrierResolvers : κ → Option (List (Waiter δ))
  cleanupTimers : κ → Option Nat
  keyGenerations : κ → Nat
  sets : Nat → List δ
  nextSet : Nat
  mutexes : Nat → M
  nextMutex : Nat
  calls : Nat → Option (Call κ δ)
  nextCall : Nat

inductive Event (κ δ : Type) where
  | registerExpectedDevices (key : κ) (deviceCount : Nat)
  | enterCriticalSection (key : κ) (deviceId : δ) (aborted : Bool)
  | awaitBarrier (key : κ) (deviceId : δ) (deviceCount : Nat) (aborted : Bool)
  | proceed (call : Nat)
  | acquired (call : Nat)
  | abort (call : Nat)
  | timeout (call : Nat)
  | release (call : Nat)
  | cleanup (key : κ)
  | forceCleanup (key : κ)
deriving DecidableEq, Repr

variable {κ δ M : Type} [DecidableEq κ] [DecidableEq δ]

def initial (ops : MutexOps M) : Coordinator κ δ M where
  locks _ := none
  barrierCounts _ := none
  expectedDeviceCounts _ := none
  barrierResolvers _ := none
  cleanupTimers _ := none
  keyGenerations _ := 0
  sets _ := []
  nextSet := 0
  mutexes _ := ops.new
  nextMutex := 0
  calls _ := none
  nextCall := 0

namespace Coordinator

variable (ops : MutexOps M) (st : Coordinator κ δ M)

/-- `this.barrierResolvers.get(key) || []`. -/
def waiters (key : κ) : List (Waiter δ) := (st.barrierResolvers key).getD []

def setCall (id : Nat) (call : Call κ δ) : Coordinator κ δ M :=
  { st with calls := Function.update st.calls id (some call) }

def setSet (id : Nat) (devices : List δ) : Coordinator κ δ M :=
  { st with sets := Function.update st.sets id devices }

def setMutex (id : Nat) (mutex : M) : Coordinator κ δ M :=
  { st with mutexes := Function.update st.mutexes id mutex }

/-- "Ensure lock exists". -/
def ensureLock (key : κ) : Coordinator κ δ M :=
  match st.locks key with
  | some _ => st
  | none =>
    { st with
      locks := Function.update st.locks key (some st.nextMutex)
      mutexes := Function.update st.mutexes st.nextMutex ops.new
      nextMutex := st.nextMutex + 1 }

/-- `barrierCounts` gets a new empty set for a key without one. -/
def ensureCounts (key : κ) : Coordinator κ δ M :=
  match st.barrierCounts key with
  | some _ => st
  | none =>
    { st with
      barrierCounts := Function.update st.barrierCounts key (some st.nextSet)
      sets := Function.update st.sets st.nextSet []
      nextSet := st.nextSet + 1 }

def ensureResolvers (key : κ) : Coordinator κ δ M :=
  match st.barrierResolvers key with
  | some _ => st
  | none => { st with barrierResolvers := Function.update st.barrierResolvers key (some []) }

def setExpected (key : κ) (deviceCount : Nat) : Coordinator κ δ M :=
  { st with
    expectedDeviceCounts := Function.update st.expectedDeviceCounts key (some deviceCount) }

def clearCleanup (key : κ) : Coordinator κ δ M :=
  { st with cleanupTimers := Function.update st.cleanupTimers key none }

/-- A count below one throws before anything is written. -/
def registerExpectedDevices (key : κ) (deviceCount : Nat) : Coordinator κ δ M :=
  if deviceCount < 1 then st
  else
    let st := (st.setExpected key deviceCount).ensureLock ops key
    ((st.ensureCounts key).ensureResolvers key).clearCleanup key

def bumpGeneration (key : κ) : Coordinator κ δ M :=
  { st with keyGenerations := Function.update st.keyGenerations key (st.keyGenerations key + 1) }

/-- The devices that have arrived in the running generation of a key. -/
def arrivedDevices (key : κ) : List δ :=
  match st.barrierCounts key with
  | some arrived => st.sets arrived
  | none => []

/-- The device joins the set of its key and its call waits; the first device of
a generation bumps the generation. -/
def arrive (key : κ) (deviceId : δ) (kind : Kind) : Coordinator κ δ M :=
  let arrived := (st.barrierCounts key).getD 0
  let st := if st.arrivedDevices key = [] then st.bumpGeneration key else st
  let call : Call κ δ :=
    { key, deviceId, kind, generation := st.keyGenerations key, aborted := false,
      phase := .waiting arrived }
  { (st.setSet arrived (st.sets arrived ++ [deviceId])).setCall st.nextCall call with
    nextCall := st.nextCall + 1 }

/-- The promises of these calls resolve. -/
def liftAll (members : List (Waiter δ)) : Coordinator κ δ M :=
  { st with
    calls := fun id =>
      if id ∈ members.map (·.call) then
        (st.calls id).map (fun call => { call with phase := .lifted })
      else st.calls id }

/-- All have arrived: everyone proceeds and the key is ready for reuse. -/
def lift (key : κ) (members : List (Waiter δ)) : Coordinator κ δ M :=
  let st := { st with barrierResolvers := Function.update st.barrierResolvers key (some []) }
  (st.liftAll members).setSet ((st.barrierCounts key).getD 0) []

def park (key : κ) (waiter : Waiter δ) : Coordinator κ δ M :=
  { st with
    barrierResolvers :=
      Function.update st.barrierResolvers key (some (st.waiters key ++ [waiter])) }

/-- `waitAtBarrier` up to its first suspension. An unregistered key and a device
that already arrived throw; the last expected device lifts the barrier. -/
def waitAtBarrier (key : κ) (deviceId : δ) (kind : Kind) : Coordinator κ δ M × List (κ × Note δ) :=
  match st.expectedDeviceCounts key with
  | none => (st, [])
  | some expectedCount =>
    let st := st.ensureCounts key
    if deviceId ∈ st.arrivedDevices key then (st, [])
    else
      let waiter : Waiter δ := ⟨st.nextCall, deviceId⟩
      let st := st.arrive key deviceId kind
      if (st.arrivedDevices key).length = expectedCount then
        let members := st.waiters key ++ [waiter]
        (st.lift key members, [(key, .arrived waiter), (key, .released members)])
      else (st.park key waiter, [(key, .arrived waiter)])

/-- `waiterRecord.reject`: the record leaves the resolvers of its key and its
device leaves the set the call arrived in. -/
def reject (id : Nat) : Coordinator κ δ M × List (κ × Note δ) :=
  match st.calls id with
  | none => (st, [])
  | some call =>
    match call.phase with
    | .waiting arrived =>
      let st := { st with
        barrierResolvers := Function.update st.barrierResolvers call.key
          ((st.barrierResolvers call.key).map
            (fun resolvers : List (Waiter δ) =>
              resolvers.filter (fun waiter => waiter.call ≠ id))) }
      let st := st.setSet arrived ((st.sets arrived).filter (· ≠ call.deviceId))
      (st.setCall id { call with phase := .settled }, [(call.key, .withdrawn ⟨id, call.deviceId⟩)])
    | _ => (st, [])

/-- One timer a key: a new schedule clears the earlier one. -/
def scheduleCleanup (key : κ) (generation : Nat) : Coordinator κ δ M :=
  { st with cleanupTimers := Function.update st.cleanupTimers key (some generation) }

/-- Everything but the generation counter of a key goes. -/
def deleteKey (key : κ) : Coordinator κ δ M :=
  { st with
    locks := Function.update st.locks key none
    barrierCounts := Function.update st.barrierCounts key none
    expectedDeviceCounts := Function.update st.expectedDeviceCounts key none
    barrierResolvers := Function.update st.barrierResolvers key none
    cleanupTimers := Function.update st.cleanupTimers key none }

/-- The callback of the cleanup timer, when the key has one. -/
def cleanup (key : κ) : Coordinator κ δ M :=
  match st.cleanupTimers key with
  | none => st
  | some generation =>
    if st.keyGenerations key ≠ generation then st.clearCleanup key
    else st.deleteKey key

/-- The waiters are rejected in order from a copy of the list. -/
def rejectAll : List (Waiter δ) → Coordinator κ δ M → Coordinator κ δ M × List (κ × Note δ)
  | [], st => (st, [])
  | waiter :: rest, st =>
    let first := st.reject waiter.call
    let later := rejectAll rest first.1
    (later.1, first.2 ++ later.2)

def forceCleanup (key : κ) : Coordinator κ δ M × List (κ × Note δ) :=
  let rejected := rejectAll (st.waiters key) st
  (rejected.1.deleteKey key, rejected.2)

/-- The continuation after the barrier: a critical section asks for the mutex of
its key, a plain barrier only schedules the cleanup. -/
def proceed (id : Nat) : Coordinator κ δ M :=
  match st.calls id with
  | none => st
  | some call =>
    if call.phase = .lifted then
      if call.aborted then st.setCall id { call with phase := .settled }
      else
        match call.kind with
        | .awaitBarrier =>
          (st.setCall id { call with phase := .settled }).scheduleCleanup call.key
            call.generation
        | .enterCriticalSection =>
          match st.locks call.key with
          | none => st.setCall id { call with phase := .settled }
          | some mutex =>
            (st.setMutex mutex (ops.acquire (st.mutexes mutex) id)).setCall id
              { call with phase := .queued mutex }
    else st

/-- The mutex was granted: the section is entered, unless its caller gave up
meanwhile, which only hands the mutex on. -/
def acquired (id : Nat) : Coordinator κ δ M :=
  match st.calls id with
  | none => st
  | some call =>
    match call.phase with
    | .queued mutex =>
      if ops.holder (st.mutexes mutex) = some id then
        st.setCall id { call with phase := .inside mutex }
      else st
    | .abandoned mutex =>
      if ops.holder (st.mutexes mutex) = some id then
        (st.setMutex mutex (ops.release (st.mutexes mutex) id)).setCall id
          { call with phase := .settled }
      else st
    | _ => st

/-- The abort signal of a call fires. -/
def abort (id : Nat) : Coordinator κ δ M × List (κ × Note δ) :=
  match st.calls id with
  | none => (st, [])
  | some call =>
    match call.phase with
    | .waiting _ => st.reject id
    | .queued mutex => (st.setCall id { call with aborted := true, phase := .abandoned mutex }, [])
    | _ => (st.setCall id { call with aborted := true }, [])

/-- The function `enterCriticalSection` returned is called, perhaps again. -/
def release (id : Nat) : Coordinator κ δ M :=
  match st.calls id with
  | none => st
  | some call =>
    match call.phase with
    | .inside mutex | .left mutex =>
      ((st.setMutex mutex (ops.release (st.mutexes mutex) id)).setCall id
        { call with phase := .left mutex }).scheduleCleanup call.key call.generation
    | _ => st

/-- One event, with the notes it adds to the barrier histories of the keys. -/
def step : Event κ δ → Coordinator κ δ M × List (κ × Note δ)
  | .registerExpectedDevices key deviceCount => (st.registerExpectedDevices ops key deviceCount, [])
  | .enterCriticalSection key deviceId aborted =>
    if aborted then (st, [])
    else (st.ensureLock ops key).waitAtBarrier key deviceId .enterCriticalSection
  | .awaitBarrier key deviceId deviceCount aborted =>
    if aborted ∨ deviceCount < 1 then (st, [])
    else (st.registerExpectedDevices ops key deviceCount).waitAtBarrier key deviceId .awaitBarrier
  | .proceed id => (st.proceed ops id, [])
  | .acquired id => (st.acquired ops id, [])
  | .abort id => st.abort id
  | .timeout id => st.reject id
  | .release id => (st.release ops id, [])
  | .cleanup key => (st.cleanup key, [])
  | .forceCleanup key => st.forceCleanup key

end Coordinator

/-- The count an event registers for a key, if it registers one. -/
def Event.registers : Event κ δ → Option (κ × Nat)
  | .registerExpectedDevices key deviceCount => some (key, deviceCount)
  | .awaitBarrier key _ deviceCount _ => some (key, deviceCount)
  | _ => none

/-- All registrations of `key` in a run name the same device count. -/
def Consistent (key : κ) (deviceCount : Nat) (events : List (Event κ δ)) : Prop :=
  ∀ event ∈ events, ∀ registered, event.registers = some registered →
    registered.1 = key → registered.2 = deviceCount

/-- The barrier history of one key in a run. -/
def historyOf (key : κ) (notes : List (κ × Note δ)) : List (Note δ) :=
  notes.filterMap (fun note => if note.1 = key then some note.2 else none)

abbrev runFrom (ops : MutexOps M) (events : List (Event κ δ)) :
    Coordinator κ δ M × List (κ × Note δ) :=
  Runs.run (Coordinator.step ops) (initial ops) events

end AutoMobile.CriticalSection
