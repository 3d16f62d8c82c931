import AutoMobile.CoordinationSchedule
import AutoMobile.PlanSteps

/- `BarrierResumeGuard`: where a failed multi-device plan may be resumed. -/
namespace AutoMobile.BarrierResume

open InsertionMap Plans
open CoordinationSchedule (codeUnits precedes)

structure Arrival where
  planIndex : Nat
  deviceCount : Option Nat
  device : Option String
  tool : String
deriving DecidableEq, Repr

/-- The arrivals of one barrier generation, which must be resumed as a unit. -/
structure GenerationSpan where
  lock : String
  firstIndex : Nat
  lastIndex : Nat
  arrivals : List Arrival
deriving DecidableEq, Repr

def readDeviceCount (step : PlanStep) : Option Nat :=
  match effectiveStepField step "deviceCount" with
  | some (.number count) => if 1 ≤ count then some count.toNat else none
  | _ => none

def readDevice (step : PlanStep) : Option String :=
  match effectiveStepField step "device" with
  | some (.text device) => if device = "" then none else some device
  | _ => none

/-- The lock of a coordination step, unless it is missing or empty. -/
def readLock (step : PlanStep) : Option String :=
  match effectiveStepField step "lock" with
  | some (.text lock) => if lock = "" then none else some lock
  | _ => none

/-- The single device count that the arrivals declare. -/
def consistentDeviceCount (arrivals : List Arrival) : Option Nat :=
  match ((arrivals.filterMap (·.deviceCount)).filter (1 ≤ ·)).dedup with
  | [count] => some count
  | _ => none

/-- The arrivals of each device, none when an arrival lacks its device. -/
def deviceTracks (arrivals : List Arrival) : Option (InsertionMap String (List Arrival)) :=
  arrivals.foldlM (fun tracks arrival => arrival.device.map fun device => push tracks device arrival)
    []

def singletonSpan (lock : String) (arrival : Arrival) : GenerationSpan :=
  ⟨lock, arrival.planIndex, arrival.planIndex, [arrival]⟩

/-- The span of a generation, which is never empty. -/
def spanForArrivals (lock : String) (arrivals : List Arrival) : GenerationSpan :=
  ⟨lock, (arrivals.map (·.planIndex)).min?.getD 0, (arrivals.map (·.planIndex)).max?.getD 0, arrivals⟩

def invalidBarrierRecoveryShape (lock reason : String) : String :=
  "Cannot safely recover barrier lock \"" ++ lock ++ "\": " ++ reason ++ ". " ++
    "The plan must pass barrier validation before it can be resumed."

/-- The next arrival of a device, and how many more of its arrivals come after it. -/
structure Candidate where
  device : String
  arrival : Arrival
  remainingAfter : Nat
deriving DecidableEq, Repr

def nextArrivals (tracks : InsertionMap String (List Arrival)) (consumed : InsertionMap String Nat) :
    List Candidate :=
  tracks.filterMap fun (device, track) =>
    let used := (get? consumed device).getD 0
    track[used]?.map fun arrival => ⟨device, arrival, track.length - used - 1⟩

/-- Most outstanding arrivals first, then plan order. -/
def before (one other : Candidate) : Prop :=
  other.remainingAfter < one.remainingAfter ∨
    one.remainingAfter = other.remainingAfter ∧ one.arrival.planIndex ≤ other.arrival.planIndex

instance : DecidableRel before := fun one other => by unfold before; infer_instance

def consume (consumed : InsertionMap String Nat) (generation : List Candidate) :
    InsertionMap String Nat :=
  generation.foldl
    (fun consumed candidate =>
      put consumed candidate.device ((get? consumed candidate.device).getD 0 + 1)) consumed

/-- Form so many generations, each from the busiest devices. -/
def formGenerations (lock : String) (count : Nat) (tracks : InsertionMap String (List Arrival)) :
    Nat → InsertionMap String Nat → Except String (List GenerationSpan)
  | 0, _ => .ok []
  | rounds + 1, consumed =>
    let candidates := (nextArrivals tracks consumed).insertionSort before
    if candidates.length < count then
      .error (invalidBarrierRecoveryShape lock ("only " ++ toString candidates.length ++
        " device tracks remain for deviceCount=" ++ toString count))
    else do
      let generation := candidates.take count
      let later ← formGenerations lock count tracks rounds (consume consumed generation)
      .ok (spanForArrivals lock (generation.map (·.arrival)) :: later)

def spansForLock (lock : String) (arrivals : List Arrival) : Except String (List GenerationSpan) :=
  if arrivals.isEmpty then .ok []
  else
    let incomplete (count : String) : String := invalidBarrierRecoveryShape lock
      (toString arrivals.length ++ " arrivals cannot form complete groups of " ++ count)
    match consistentDeviceCount arrivals, deviceTracks arrivals with
    | some 1, _ => .ok (arrivals.map (singletonSpan lock))
    | _, none => .error (invalidBarrierRecoveryShape lock "an arrival is missing its device label")
    | none, some _ => .error (incomplete "undefined")
    | some count, some tracks =>
      if arrivals.length % count ≠ 0 then .error (incomplete (toString count))
      else formGenerations lock count tracks (arrivals.length / count) []

/-- `tolerant`: the caller goes on without the spans of a lock that cannot be recovered. -/
def spansForLockOrSkip (tolerant : Bool) (lock : String) (arrivals : List Arrival) :
    Except String (List GenerationSpan) :=
  match spansForLock lock arrivals with
  | .ok spans => .ok spans
  | .error message => if tolerant then .ok [] else .error message

/-- The coordination steps of the wanted tools, with their locks. -/
def lockArrivals (plan : Plan) (wanted : String → Bool) : List (String × Arrival) :=
  plan.steps.zipIdx.filterMap fun (step, planIndex) =>
    if isCoordinationTool step.tool && wanted step.tool then
      (readLock step).map fun lock =>
        (lock, ⟨planIndex, readDeviceCount step, readDevice step, step.tool⟩)
    else none

def barrierSpans (tolerant : Bool) :
    InsertionMap String (List Arrival) → Except String (List GenerationSpan)
  | [] => .ok []
  | (lock, arrivals) :: rest => do
    let first ← spansForLockOrSkip tolerant lock arrivals
    let later ← barrierSpans tolerant rest
    .ok (first ++ later)

/-- A criticalSection lock is one rendezvous of all its steps. -/
def criticalSectionSpan (lock : String) (arrivals : List Arrival) : GenerationSpan :=
  ⟨lock, (arrivals.head?.map (·.planIndex)).getD 0, (arrivals.getLast?.map (·.planIndex)).getD 0,
    arrivals⟩

def collectGenerationSpans (plan : Plan) (tolerant : Bool := false) :
    Except String (List GenerationSpan) := do
  let barriers ← barrierSpans tolerant (pushAll [] (lockArrivals plan (· == "barrier")))
  let sections := (pushAll [] (lockArrivals plan (· != "barrier"))).filterMap fun (lock, arrivals) =>
    if arrivals.isEmpty then none else some (criticalSectionSpan lock arrivals)
  .ok (barriers ++ sections)

def lockArrivalsByLock (plan : Plan) : InsertionMap String (List Arrival) :=
  pushAll [] (lockArrivals plan fun _ => true)

/-- The lock and the device of a step whose order with other locks matters. -/
def trackedLock (byLock : InsertionMap String (List Arrival)) (step : PlanStep) :
    Option (String × String) :=
  match readLock step, readDevice step with
  | some lock, some device =>
    if consistentDeviceCount ((get? byLock lock).getD []) = some 1 then none
    else some (lock, device)
  | _, _ => none

/-- The locks each device still visits from `safe` on, repeats in a row collapsed. -/
def collectDeviceLockOrder (plan : Plan) (safe : Nat) : InsertionMap String (List String) :=
  (plan.steps.drop safe).foldl
    (fun orders step =>
      if isCoordinationTool step.tool then
        match trackedLock (lockArrivalsByLock plan) step with
        | none => orders
        | some (lock, device) =>
          let order := (get? orders device).getD []
          put orders device (if order.getLast? = some lock then order else order ++ [lock])
      else orders)
    []

structure Direction where
  forward : Bool
  device : String
deriving DecidableEq, Repr

/-- Whether another device went between the two locks the other way, and the
directions known afterwards. -/
def opposesEarlierDevice (directions : InsertionMap (String × String) Direction)
    (fromLock toLock device : String) : Bool × InsertionMap (String × String) Direction :=
  if fromLock = toLock then (false, directions)
  else
    let forward := !precedes (codeUnits toLock) (codeUnits fromLock)
    let pair := if forward then (fromLock, toLock) else (toLock, fromLock)
    match get? directions pair with
    | none => (false, put directions pair ⟨forward, device⟩)
    | some existing => (existing.forward != forward && existing.device != device, directions)

def anyOpposing : InsertionMap (String × String) Direction → List (String × String × String) → Bool
  | _, [] => false
  | directions, (device, fromLock, toLock) :: rest =>
    let (opposes, known) := opposesEarlierDevice directions fromLock toLock device
    if opposes then true else anyOpposing known rest

/-- The steps from one lock to the next of every device. -/
def hasOpposingLockPair (deviceLockOrder : InsertionMap String (List String)) : Bool :=
  anyOpposing [] (deviceLockOrder.flatMap fun (device, order) =>
    (order.zip order.tail).map fun (fromLock, toLock) => (device, fromLock, toLock))

def hasCrossLockCycle (plan : Plan) (safe : Nat) : Bool :=
  hasOpposingLockPair (collectDeviceLockOrder plan safe)

/-- The earliest first arrival among the generations that `safe` splits. -/
def earliestSplit (spans : List GenerationSpan) (safe : Nat) : Nat :=
  spans.foldl
    (fun earliest span =>
      if span.firstIndex < safe ∧ safe ≤ span.lastIndex ∧ span.firstIndex < earliest then
        span.firstIndex
      else earliest)
    safe

/-- Rewind until no generation is split. -/
def rewind (spans : List GenerationSpan) : Nat → Nat → Nat
  | 0, safe => safe
  | fuel + 1, safe =>
    let earliest := earliestSplit spans safe
    if earliest = safe then safe else rewind spans fuel earliest

def computeSafeBarrierResumeStep (plan : Plan) (startStep : Int) : Except String Int :=
  if startStep ≤ 0 then .ok startStep
  else
    match collectGenerationSpans plan with
    | .error message => .error message
    | .ok [] => .ok startStep
    | .ok spans =>
      let safe := rewind spans (startStep.toNat + 1) startStep.toNat
      if 0 < safe && hasCrossLockCycle plan safe then .ok 0 else .ok safe

end AutoMobile.BarrierResume
