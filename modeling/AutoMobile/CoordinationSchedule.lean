import AutoMobile.ParentForest
import Mathlib.Data.List.Sort

/- `CoordinationScheduleFeasibility`: search for an arrival order of a multi-device
plan in which every device track reaches its end. -/
namespace AutoMobile.CoordinationSchedule

open InsertionMap ParentForest

structure CoordinationEvent where
  tool : String
  lock : String
  deviceCount : Nat
  stepIndex : Nat
  /-- The runtime may not follow the model for this arrival. -/
  unmodeled : Bool := false
deriving DecidableEq, Repr

structure CoordinationTrack where
  device : String
  events : List CoordinationEvent
deriving DecidableEq, Repr

structure StalledDevice where
  device : String
  event : CoordinationEvent
  waitingWith : List String
deriving DecidableEq, Repr

structure CoordinationDeadlock where
  stalled : List StalledDevice
  finished : List String
  releasedGenerations : List String
deriving DecidableEq, Repr

def MAX_SCHEDULE_STATES : Nat := 10000

/-- A state is its own key: the text `stateKey` prints determines it. -/
structure ScheduleState where
  positions : List Nat
  arrived : List Bool
deriving DecidableEq, Repr

structure Successor where
  state : ScheduleState
  release : Option String := none
deriving DecidableEq, Repr

structure Visit where
  parent : Option ScheduleState := none
  release : Option String := none
deriving DecidableEq, Repr

structure DeadlockCandidate where
  state : ScheduleState
  progress : Nat
deriving DecidableEq, Repr

/-- UTF-16 code units, the order in which `.sort()` puts strings. -/
def codeUnits (text : String) : List Nat :=
  text.toList.flatMap fun char =>
    let point := char.toNat
    if point < 0x10000 then [point]
    else [0xD800 + (point - 0x10000) / 0x400, 0xDC00 + (point - 0x10000) % 0x400]

/-- Dictionary order of code units. -/
def precedes : List Nat → List Nat → Bool
  | [], _ => true
  | _ :: _, [] => false
  | one :: ones, other :: others => one < other || one == other && precedes ones others

def sorted (names : List String) : List String :=
  names.insertionSort fun one other => precedes (codeUnits one) (codeUnits other)

section Search

variable (tracks : List CoordinationTrack)

def initialState : ScheduleState where
  positions := tracks.map fun _ => 0
  arrived := tracks.map fun _ => false

def currentEvent (state : ScheduleState) (index : Nat) : Option CoordinationEvent :=
  match tracks[index]?, state.positions[index]? with
  | some track, some position => track.events[position]?
  | _, _ => none

def isComplete (state : ScheduleState) : Bool :=
  tracks.zipIdx.all fun (track, index) => track.events.length ≤ state.positions.getD index 0

def waitersAt (state : ScheduleState) (lock : String) : List Nat :=
  (List.range tracks.length).filter fun index =>
    state.arrived.getD index false && (currentEvent tracks state index).map (·.lock) == some lock

/-- The text of a released generation. -/
def releaseText (lock : String) (generation : List Nat) : String :=
  "\"" ++ lock ++ "\" \x7b" ++
    String.intercalate ", " (sorted (generation.filterMap fun m => tracks[m]?.map (·.device))) ++ "\x7d"

/-- `event` is the current event of the track. -/
def arrive (state : ScheduleState) (index : Nat) (event : CoordinationEvent) : Successor :=
  let generation := waitersAt tracks state event.lock ++ [index]
  if generation.length < event.deviceCount then
    { state := { state with arrived := state.arrived.set index true } }
  else
    { state :=
        { positions := state.positions.mapIdx fun member position =>
            if member ∈ generation then position + 1 else position
          arrived := state.arrived.mapIdx fun member blocked =>
            if member ∈ generation then false else blocked }
      release := some (releaseText tracks event.lock generation) }

def successorsOf (state : ScheduleState) : List Successor :=
  (List.range tracks.length).filterMap fun index =>
    if state.arrived.getD index false then none
    else (currentEvent tracks state index).map (arrive tracks state index)

def progressOf (state : ScheduleState) : Nat := state.positions.foldl (· + ·) 0

/-- The releases on the way to a state, last one first. No path is longer than the map. -/
def releasesBack (visited : InsertionMap ScheduleState Visit) :
    Nat → Option ScheduleState → List String
  | 0, _ => []
  | _, none => []
  | fuel + 1, some cursor =>
    match get? visited cursor with
    | none => []
    | some visit => visit.release.toList ++ releasesBack visited fuel visit.parent

def releasedGenerationsTo (visited : InsertionMap ScheduleState Visit) (key : ScheduleState) :
    List String :=
  (releasesBack visited visited.length (some key)).reverse

def describeStall (visited : InsertionMap ScheduleState Visit) (candidate : DeadlockCandidate) :
    CoordinationDeadlock :=
  let state := candidate.state
  { stalled := tracks.zipIdx.filterMap fun (track, index) =>
      (currentEvent tracks state index).map fun event =>
        { device := track.device
          event := event
          waitingWith := (waitersAt tracks state event.lock).filterMap fun waiter =>
            tracks[waiter]?.map (·.device) }
    finished := (tracks.zipIdx.filter fun (_, index) =>
      (currentEvent tracks state index).isNone).map fun (track, _) => track.device
    releasedGenerations := releasedGenerationsTo visited state }

/-- How the search of a component ends. Only a deadlock is reported. -/
inductive SearchOutcome where
  | complete
  | boundReached
  | deadlock (deadlock : CoordinationDeadlock)
  | nothingStalled
deriving DecidableEq, Repr

/-- Visit and push the successors that are new; `none` when the bound is hit. -/
def pushSuccessors (maxStates : Nat) (key : ScheduleState) :
    List Successor → InsertionMap ScheduleState Visit → List ScheduleState →
      Option (InsertionMap ScheduleState Visit × List ScheduleState)
  | [], visited, stack => some (visited, stack)
  | successor :: rest, visited, stack =>
    if has visited successor.state then pushSuccessors maxStates key rest visited stack
    else if maxStates ≤ visited.length then none
    else pushSuccessors maxStates key rest
      (put visited successor.state { parent := some key, release := successor.release })
      (successor.state :: stack)

/-- The deeper one of two stalls, the earlier one of equals. -/
def deeper (deepest : Option DeadlockCandidate) (state : ScheduleState) : DeadlockCandidate :=
  match deepest with
  | none => { state := state, progress := progressOf state }
  | some candidate =>
    if candidate.progress < progressOf state then
      { state := state, progress := progressOf state }
    else candidate

/-- The loop of `searchComponent`; the stack has its top first. -/
def searchLoop (maxStates : Nat) : Nat → InsertionMap ScheduleState Visit → List ScheduleState →
    Option DeadlockCandidate → Option SearchOutcome
  | 0, _, _, _ => none
  | _ + 1, visited, [], deepest =>
    match deepest with
    | none => some .nothingStalled
    | some candidate => some (.deadlock (describeStall tracks visited candidate))
  | fuel + 1, visited, state :: stack, deepest =>
    if isComplete tracks state then some .complete
    else
      let successors := successorsOf tracks state
      if successors.isEmpty then
        searchLoop maxStates fuel visited stack (some (deeper deepest state))
      else
        match pushSuccessors maxStates state successors visited stack with
        | none => some .boundReached
        | some (visited, stack) => searchLoop maxStates fuel visited stack deepest

/-- Every turn takes a visited state off the stack, and no more are visited than the bound allows. -/
def searchComponent (maxStates : Nat) : Option SearchOutcome :=
  searchLoop tracks maxStates (max maxStates 1 + 1) [(initialState tracks, {})]
    [initialState tracks] none

end Search

def deviceNode (device : String) : String := "device:" ++ device

def lockNode (lock : String) : String := "lock:" ++ lock

/-- Link a device with the locks of its events. -/
def linkTrack (parents : InsertionMap String String) (track : CoordinationTrack) :
    InsertionMap String String :=
  track.events.foldl
    (fun parents event =>
      unite (enter parents (lockNode event.lock)) (lockNode event.lock) (deviceNode track.device))
    (enter parents (deviceNode track.device))

def linkTracks (tracks : List CoordinationTrack) : InsertionMap String String :=
  tracks.foldl linkTrack []

/-- Two tracks are in one component when they share a lock, possibly through others. -/
def splitIndependentComponents (tracks : List CoordinationTrack) : List (List CoordinationTrack) :=
  values (grouped (fun track => findRoot (linkTracks tracks) (deviceNode track.device)) tracks)

def isUnmodeled (component : List CoordinationTrack) : Bool :=
  component.any fun track => track.events.any (·.unmodeled)

def componentDeadlock (maxStates : Nat) (component : List CoordinationTrack) :
    Option CoordinationDeadlock :=
  if isUnmodeled component then none
  else
    match searchComponent component maxStates with
    | some (.deadlock deadlock) => some deadlock
    | _ => none

/-- A representative deadlock of the first component that has no completing order. -/
def findUnavoidableCoordinationDeadlock (tracks : List CoordinationTrack)
    (maxStates : Nat := MAX_SCHEDULE_STATES) : Option CoordinationDeadlock :=
  (splitIndependentComponents tracks).findSome? (componentDeadlock maxStates)

end AutoMobile.CoordinationSchedule
