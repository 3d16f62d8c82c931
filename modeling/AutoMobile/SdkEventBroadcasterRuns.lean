import AutoMobile.SdkEventBroadcaster

/- A whole acknowledged broadcast: its chunks report to one completion, in whatever order their
sends, results and timers come. -/
namespace AutoMobile.EventBroadcast

open List

section Completion

variable {ε : Type}

inductive CompletionCall where
  | onComplete (allDelivered : Bool)
  | onFinished (outcome : BatchDeliveryOutcome)
  | onAcknowledged
deriving DecidableEq

/-- `dropped` is what the drop counter was told, `undelivered` the calls of `onUndelivered` and
`calls` those of the other callbacks. -/
structure BatchCompletion (ε : Type) where
  remaining : Int
  allDelivered : Bool := true
  failedOutcome : BatchDeliveryOutcome := .UNDELIVERED
  dropped : Nat := 0
  undelivered : List (List ε × Option String) := []
  calls : List CompletionCall := []

def recordCompletion (completion : BatchCompletion ε) (outcome : BatchDeliveryOutcome) :
    BatchCompletion ε :=
  let delivered := outcome = .DELIVERED
  let allDelivered := completion.allDelivered && decide delivered
  let failedOutcome :=
    if ¬ delivered ∧ (completion.failedOutcome ≠ .INVALID_PAYLOAD ∨ outcome = .INVALID_PAYLOAD) then
      outcome
    else completion.failedOutcome
  let remaining := completion.remaining - 1
  { completion with
    remaining := remaining
    allDelivered := allDelivered
    failedOutcome := failedOutcome
    calls := completion.calls ++ if remaining = 0 then
        [.onComplete allDelivered, .onFinished (if allDelivered then .DELIVERED else failedOutcome)]
          ++ if allDelivered then [.onAcknowledged] else []
      else [] }

/-- `keeps`: an `onUndelivered` was supplied. -/
def completeChunk (keeps : Bool) (completion : BatchCompletion ε) (chunk : List ε)
    (chunkId : Option String) (outcome : BatchDeliveryOutcome) : BatchCompletion ε :=
  let completion :=
    if outcome = .INVALID_PAYLOAD then
      { completion with dropped := completion.dropped + chunk.length }
    else if outcome ≠ .DELIVERED then
      if keeps then
        { completion with undelivered := completion.undelivered ++ [(chunk, chunkId)] }
      else { completion with dropped := completion.dropped + chunk.length }
    else completion
  recordCompletion completion outcome

/-- `unsent` are the chunks that `sendChunk` has not been called for. -/
structure Broadcast (ε : Type) where
  unsent : List (List ε × Option String)
  chunks : List (ChunkDelivery ε)
  completion : BatchCompletion ε

inductive BroadcastStep where
  | sendChunk
  | chunk (index : Nat) (move : Move)

namespace Broadcast

variable (maxRetries : Int) (keeps : Bool)

def step (broadcast : Broadcast ε) : BroadcastStep → Broadcast ε
  | .sendChunk =>
    match broadcast.unsent with
    | [] => broadcast
    | (chunk, chunkId) :: unsent =>
      { broadcast with
        unsent := unsent
        chunks := broadcast.chunks ++ [{ chunk := chunk, chunkId := chunkId }] }
  | .chunk index move =>
    match broadcast.chunks[index]? with
    | none => broadcast
    | some delivery =>
      { broadcast with
        chunks := broadcast.chunks.set index (delivery.step maxRetries move).1
        completion :=
          match (delivery.step maxRetries move).2 with
          | none => broadcast.completion
          | some outcome =>
            completeChunk keeps broadcast.completion delivery.chunk delivery.chunkId outcome }

def run (broadcast : Broadcast ε) (steps : List BroadcastStep) : Broadcast ε :=
  steps.foldl (step maxRetries keeps) broadcast

/-- Every chunk has been sent and has reported. -/
def Settled (broadcast : Broadcast ε) : Prop :=
  broadcast.unsent = [] ∧ ∀ delivery ∈ broadcast.chunks, delivery.reports ≠ []

def allDelivered (broadcast : Broadcast ε) : Bool :=
  broadcast.chunks.all fun delivery => delivery.reports.all fun outcome => outcome = .DELIVERED

def unreported (broadcast : Broadcast ε) : Nat :=
  broadcast.unsent.length + broadcast.chunks.countP fun delivery => delivery.reports.isEmpty

/-- The completion counts the chunks that have not reported and speaks up when there are none. -/
structure Accounted (broadcast : Broadcast ε) : Prop where
  sound : ∀ delivery ∈ broadcast.chunks, delivery.Sound maxRetries
  remaining : broadcast.completion.remaining = broadcast.unreported
  delivered : broadcast.completion.allDelivered = broadcast.allDelivered
  silent : broadcast.unreported ≠ 0 → broadcast.completion.calls = []
  spoken : broadcast.unreported = 0 → ∃ outcome, broadcast.completion.calls =
      [.onComplete broadcast.allDelivered, .onFinished outcome] ++
        (if broadcast.allDelivered ∧ broadcast.chunks ≠ [] then [.onAcknowledged] else []) ∧
    (broadcast.allDelivered = true → outcome = .DELIVERED)

variable {maxRetries : Int} (keeps : Bool)

variable {broadcast : Broadcast ε} {front back : List (ChunkDelivery ε)}
  {before after : ChunkDelivery ε}

section

variable (accounted : broadcast.Accounted maxRetries)
include accounted

end

end Broadcast

end Completion

end AutoMobile.EventBroadcast
