import AutoMobile.Runs

/- `SocketRequestAdmissionQueue`: one socket's requests, each in a lane or a barrier, and the promises
that run them. -/
namespace AutoMobile.SocketAdmission

/-- Why a request is rejected. -/
inductive Rejection where
  | aborted
  | timedOut (sameLaneWait : Bool)
  | failed
deriving DecidableEq, Repr

/-- A request in the queue; one that waits has a deadline. A request without a lane is a barrier. -/
structure PendingRequest where
  id : Nat
  lane : Option String
  deadlineMs : Option Int
  sameLaneWait : Bool
deriving DecidableEq, Repr

/-- A started request: its handler runs, or its promise is settled and about to be released. -/
structure Running where
  entry : PendingRequest
  handling : Bool
deriving DecidableEq, Repr

structure Queue where
  pending : List PendingRequest := []
  runningLanes : List String := []
  runningCount : Nat := 0
  barrierRunning : Bool := false
  /-- The promises of the started requests. -/
  running : List Running := []
  /-- The number of requests so far. -/
  requests : Nat := 0
deriving DecidableEq, Repr

inductive Output where
  | started (id : Nat) (lane : Option String)
  | handled (id : Nat)
  | resolved (id : Nat)
  | rejected (id : Nat) (reason : Rejection)
deriving DecidableEq, Repr

def hostInventory : String := "host:inventory"

/-- The time that the start of a request reads, by the request. -/
abbrev Clock := Nat → Int

def expired (clock : Clock) (entry : PendingRequest) : Bool :=
  entry.deadlineMs.any fun deadlineMs => deadlineMs ≤ clock entry.id

/-- Run the request, unless its deadline has come: then its promise is rejected and its place is
free at once. -/
def start (clock : Clock) (queue : Queue) (entry : PendingRequest) : Queue × List Output :=
  let counted :=
    { queue with
      runningCount := queue.runningCount + 1
      barrierRunning := queue.barrierRunning || entry.lane.isNone
      runningLanes :=
        match entry.lane with
        | none => queue.runningLanes
        | some lane =>
          if lane ≠ hostInventory then lane :: queue.runningLanes else queue.runningLanes }
  if expired clock entry then
    ({ counted with running := counted.running ++ [⟨entry, false⟩] },
      [.started entry.id entry.lane, .rejected entry.id (.timedOut entry.sameLaneWait)])
  else
    ({ counted with running := counted.running ++ [⟨entry, true⟩] },
      [.started entry.id entry.lane, .handled entry.id])

/-- The scan of `pump`: `skipped` are the entries before the index, `rest` those from it on. -/
def pumpFrom (clock : Clock) (skipped : List PendingRequest) (blockedLanes : List String) :
    List PendingRequest → Queue → Queue × List Output
  | [], queue => ({ queue with pending := skipped }, [])
  | entry :: rest, queue =>
    match entry.lane with
    | none =>
      if skipped = [] ∧ queue.runningCount = 0 then
        start clock { queue with pending := rest } entry
      else ({ queue with pending := skipped ++ entry :: rest }, [])
    | some lane =>
      if lane ∈ queue.runningLanes ∨ lane ∈ blockedLanes then
        pumpFrom clock (skipped ++ [entry]) (lane :: blockedLanes) rest queue
      else
        let first := start clock { queue with pending := skipped ++ rest } entry
        let later := pumpFrom clock skipped blockedLanes rest first.1
        (later.1, first.2 ++ later.2)

def pump (clock : Clock) (queue : Queue) : Queue × List Output :=
  if queue.barrierRunning then (queue, []) else pumpFrom clock [] [] queue.pending queue

/-- A request that still waits leaves the queue and is rejected. -/
def remove (clock : Clock) (queue : Queue) (id : Nat) (reason : PendingRequest → Rejection) :
    Queue × List Output :=
  match queue.pending.find? fun entry => entry.id = id with
  | none => (queue, [])
  | some entry =>
    let rest := pump clock
      { queue with pending := queue.pending.filter fun entry => entry.id ≠ id }
    (rest.1, .rejected id (reason entry) :: rest.2)

/-- The bound on a request's wait, and whether its signal was aborted before the call. -/
structure QueueWait where
  deadlineMs : Int
  aborted : Bool
deriving DecidableEq, Repr

/-- `run`, at the time that it reads for the deadline of the wait. -/
def run (clock : Clock) (nowMs : Int) (queue : Queue) (lane : Option String)
    (wait : Option QueueWait) : Queue × List Output :=
  let sameLaneWait := lane.any fun lane =>
    lane ∈ queue.runningLanes || queue.pending.any fun entry => entry.lane = some lane
  let id := queue.requests
  let entry : PendingRequest :=
    { id, lane, deadlineMs := wait.map QueueWait.deadlineMs, sameLaneWait }
  let queue := { queue with pending := queue.pending ++ [entry], requests := id + 1 }
  match wait with
  | none => pump clock queue
  | some wait =>
    if wait.aborted then remove clock queue id fun _ => .aborted
    else if wait.deadlineMs - nowMs ≤ 0 then
      remove clock queue id fun entry => .timedOut entry.sameLaneWait
    else pump clock queue

/-- The handler of a request is done, well or not. -/
def settle (queue : Queue) (id : Nat) (ok : Bool) : Queue × List Output :=
  if queue.running.any fun running => running.entry.id = id && running.handling then
    ({ queue with
        running := queue.running.map fun running =>
          if running.entry.id = id then { running with handling := false } else running },
      [if ok then .resolved id else .rejected id .failed])
  else (queue, [])

/-- The `finally` of a request whose promise is settled. -/
def release (clock : Clock) (queue : Queue) (id : Nat) : Queue × List Output :=
  match queue.running.find? fun running => running.entry.id = id && !running.handling with
  | none => (queue, [])
  | some done =>
    let queue :=
      { queue with
        runningCount := queue.runningCount - 1
        running := queue.running.filter fun running => running.entry.id ≠ id }
    match done.entry.lane with
    | none => pump clock { queue with barrierRunning := false }
    | some lane =>
      pump clock
        { queue with runningLanes := queue.runningLanes.filter fun running => running ≠ lane }

/-- A deadline or an abort concerns a request that waits with one. -/
inductive Event where
  | run (clock : Clock) (nowMs : Int) (lane : Option String) (wait : Option QueueWait)
  | abort (clock : Clock) (id : Nat)
  | deadline (clock : Clock) (id : Nat)
  | settle (id : Nat) (ok : Bool)
  | release (clock : Clock) (id : Nat)

def waits (queue : Queue) (id : Nat) : Bool :=
  queue.pending.any fun entry => entry.id = id && entry.deadlineMs.isSome

def serve (queue : Queue) : Event → Queue × List Output
  | .run clock nowMs lane wait => run clock nowMs queue lane wait
  | .abort clock id =>
    if waits queue id then remove clock queue id fun _ => .aborted else (queue, [])
  | .deadline clock id =>
    if waits queue id then remove clock queue id fun entry => .timedOut entry.sameLaneWait
    else (queue, [])
  | .settle id ok => settle queue id ok
  | .release clock id => release clock queue id

end AutoMobile.SocketAdmission
