import Mathlib.Data.List.Basic

/- `SdkEventBroadcaster`: how a batch is split into chunks, and how the acknowledged broadcast of
each chunk is resolved by its result, its timeout, a failure to send or the end of its retries. -/
namespace AutoMobile.EventBroadcast

open List

section Splitting

variable {ε : Type} (size : List ε → Nat) (maxBytes : Nat)

end Splitting

section Attempts

inductive BatchDeliveryOutcome where
  | DELIVERED
  | UNDELIVERED
  | REJECTED
  | LEGACY_UNDELIVERED
  | INVALID_PAYLOAD
deriving DecidableEq

/-- What a call of `schedule` comes to. -/
inductive Scheduling where
  | scheduled
  | refused
  | threw
deriving DecidableEq

/-- Where the call of `sendBatchIntent` stands. -/
inductive Phase where
  | scheduling
  | sending
  | retrying
  | returned
deriving DecidableEq

/-- `sent`: the sender was called. `timed`: the timeout was scheduled. `timer`: it has neither
run nor been cancelled. `hops` counts the submitted calls of `dispatchResult` that have not run. -/
structure BatchAttempt where
  attempt : Nat := 0
  phase : Phase := .scheduling
  resolution : Option (Option BatchDeliveryOutcome) := none
  dispatched : Bool := false
  sent : Bool := false
  timed : Bool := false
  timer : Bool := false
  hops : Nat := 0

/-- What the sender and the scheduler may call back. -/
inductive Callback where
  | result (resultCode : Int)
  | dispatch
  | timeout

def outcomeOf (resultCode : Int) : BatchDeliveryOutcome :=
  if resultCode = 1000 then .DELIVERED
  else if resultCode = 1002 then .INVALID_PAYLOAD
  else if resultCode = 1001 then .REJECTED
  else .UNDELIVERED

namespace BatchAttempt

def dispatchResult (state : BatchAttempt) : BatchAttempt × Option BatchDeliveryOutcome :=
  match state.resolution with
  | some (some outcome) =>
    if state.dispatched then (state, none)
    else ({ state with dispatched := true, timer := false }, some outcome)
  | _ => (state, none)

def acceptResult (state : BatchAttempt) (resultCode : Int) : BatchAttempt :=
  if state.resolution = none then
    { state with resolution := some (some (outcomeOf resultCode)), hops := state.hops + 1 }
  else state

def finish (state : BatchAttempt) (outcome : BatchDeliveryOutcome) :
    BatchAttempt × Option BatchDeliveryOutcome :=
  dispatchResult
    (if state.resolution = none then { state with resolution := some (some outcome) } else state)

/-- A timeout may still run while it is being cancelled. -/
def callback (state : BatchAttempt) : Callback → BatchAttempt × Option BatchDeliveryOutcome
  | .result resultCode => (if state.sent then state.acceptResult resultCode else state, none)
  | .dispatch =>
    if 0 < state.hops then { state with hops := state.hops - 1 }.dispatchResult else (state, none)
  | .timeout =>
    if state.timed then { state with timer := false }.finish .UNDELIVERED else (state, none)

/-- The `catch` of `sendBatchIntent`: the attempt is given up unless it is resolved. -/
def caught (state : BatchAttempt) : BatchAttempt :=
  if state.resolution = none then
    { state with resolution := some none, timer := false, phase := .retrying }
  else { state with phase := .returned }

/-- The sender has returned. -/
def afterSend (state : BatchAttempt) : BatchAttempt × Option BatchDeliveryOutcome :=
  if state.timed then ({ state with phase := .returned }, none)
  else { state with phase := .returned }.finish .UNDELIVERED

/-- An attempt that was given up stays so and reports nothing. -/
theorem callback_aborted {state : BatchAttempt} (resolved : state.resolution = some none)
    (called : Callback) :
    (state.callback called).1.resolution = some none ∧ (state.callback called).2 = none := by
  cases called with
  | result resultCode => grind -ring -linarith [callback, acceptResult]
  | dispatch => grind -ring -linarith [callback, dispatchResult]
  | timeout => grind -ring -linarith [callback, finish, dispatchResult]

end BatchAttempt

end Attempts

section Chunks

variable {ε : Type}

/-- A chunk with its latest attempt and the ones given up before. `reports` and `sends` record
the outcomes handed to `onResult` and the calls of the sender. -/
structure ChunkDelivery (ε : Type) where
  chunk : List ε
  chunkId : Option String
  live : BatchAttempt := {}
  aborted : List BatchAttempt := []
  retryTimer : Bool := false
  reports : List BatchDeliveryOutcome := []
  sends : Nat := 0

/-- `callback none` calls back the latest attempt, `callback (some index)` an earlier one. -/
inductive Move where
  | timeoutScheduled (answer : Scheduling)
  | sendReturned
  | sendThrew
  | retryScheduled (answer : Scheduling)
  | retryFired
  | callback (earlier : Option Nat) (called : Callback)

namespace ChunkDelivery

/-- The latest attempt has moved on and may report an outcome. -/
def moved (delivery : ChunkDelivery ε) (next : BatchAttempt × Option BatchDeliveryOutcome) :
    ChunkDelivery ε × Option BatchDeliveryOutcome :=
  ({ delivery with live := next.1, reports := delivery.reports ++ next.2.toList }, next.2)

/-- The call of `schedule` for the timeout, up to the call of the sender. -/
def scheduleTimeout (delivery : ChunkDelivery ε) : Scheduling → ChunkDelivery ε
  | .threw => { delivery with live := delivery.live.caught }
  | answer =>
    { delivery with
      live :=
        { delivery.live with
          phase := .sending, sent := true
          timed := answer = .scheduled, timer := answer = .scheduled }
      sends := delivery.sends + 1 }

def retry (maxRetries : Int) (delivery : ChunkDelivery ε) (answer : Scheduling) :
    ChunkDelivery ε × Option BatchDeliveryOutcome :=
  if delivery.live.attempt < maxRetries ∧ answer = .scheduled then
    ({ delivery with live := { delivery.live with phase := .returned }, retryTimer := true }, none)
  else delivery.moved ({ delivery.live with phase := .returned }, some .UNDELIVERED)

/-- One move of a chunk; a move that cannot happen changes nothing. -/
def step (maxRetries : Int) (delivery : ChunkDelivery ε) :
    Move → ChunkDelivery ε × Option BatchDeliveryOutcome
  | .timeoutScheduled answer =>
    if delivery.live.phase = .scheduling then (delivery.scheduleTimeout answer, none)
    else (delivery, none)
  | .sendReturned =>
    if delivery.live.phase = .sending then delivery.moved delivery.live.afterSend
    else (delivery, none)
  | .sendThrew =>
    if delivery.live.phase = .sending then ({ delivery with live := delivery.live.caught }, none)
    else (delivery, none)
  | .retryScheduled answer =>
    if delivery.live.phase = .retrying then delivery.retry maxRetries answer else (delivery, none)
  | .retryFired =>
    if delivery.retryTimer then
      ({ delivery with
         live := { attempt := delivery.live.attempt + 1 }
         aborted := delivery.aborted ++ [delivery.live]
         retryTimer := false }, none)
    else (delivery, none)
  | .callback none called => delivery.moved (delivery.live.callback called)
  | .callback (some index) called =>
    match delivery.aborted[index]? with
    | none => (delivery, none)
    | some state =>
      ({ delivery with
         aborted := delivery.aborted.set index (state.callback called).1
         reports := delivery.reports ++ (state.callback called).2.toList },
        (state.callback called).2)

/-- Some call of the chunk has not returned or may still come back. -/
def outstanding (delivery : ChunkDelivery ε) : Prop :=
  delivery.live.phase ≠ .returned ∨ delivery.live.timer = true ∨ 0 < delivery.live.hops ∨
    delivery.retryTimer = true

end ChunkDelivery

end Chunks

section Outcomes

variable {ε : Type} {maxRetries : Int}

namespace ChunkDelivery

/-- What holds of a chunk at all times: by what its latest attempt is resolved to, whether it has
reported and what will still come back. -/
structure Sound (maxRetries : Int) (delivery : ChunkDelivery ε) : Prop where
  unresolved : delivery.live.resolution = none →
    delivery.reports = [] ∧ delivery.live.dispatched = false ∧
      (delivery.live.timed = true → delivery.live.timer = true) ∧
      (delivery.live.phase = .scheduling →
        delivery.live.sent = false ∧ delivery.live.timed = false) ∧
      (delivery.live.phase = .returned → delivery.live.timed = true)
  claimed : ∀ outcome, delivery.live.resolution = some (some outcome) →
    delivery.live.phase ≠ .scheduling ∧
      (delivery.live.dispatched = true ∧ delivery.reports = [outcome] ∨
        delivery.live.dispatched = false ∧ delivery.reports = [] ∧ 0 < delivery.live.hops)
  aborted : delivery.live.resolution = some none →
    delivery.live.phase = .retrying ∧ delivery.reports = [] ∨ delivery.live.phase = .returned ∧
        (delivery.retryTimer = true ∧ delivery.reports = [] ∨ delivery.reports = [.UNDELIVERED])
  retrying : delivery.live.phase = .retrying ∨ delivery.retryTimer = true →
    delivery.live.resolution = some none
  retry : delivery.retryTimer = true →
    delivery.live.phase = .returned ∧ delivery.reports = [] ∧ delivery.live.attempt < maxRetries
  earlier : ∀ state ∈ delivery.aborted, state.resolution = some none
  attempts : delivery.live.attempt ≤ maxRetries.toNat
  sends : delivery.sends ≤ delivery.live.attempt + 1 ∧
    (delivery.live.phase = .scheduling → delivery.sends ≤ delivery.live.attempt)

variable {delivery : ChunkDelivery ε}

section

variable (sound : delivery.Sound maxRetries)
include sound

theorem scheduleTimeout_sound (phase : delivery.live.phase = .scheduling) (answer : Scheduling) :
    (delivery.scheduleTimeout answer).Sound maxRetries := by
  obtain ⟨unresolved, claimed, aborted, retrying, retry, earlier, attempts, sends⟩ := sound
  cases answer with
  | scheduled | refused => constructor <;> grind -ring -linarith [scheduleTimeout]
  | threw => constructor <;> grind -ring -linarith [scheduleTimeout, BatchAttempt.caught]

theorem afterSend_sound (phase : delivery.live.phase = .sending) :
    (delivery.moved delivery.live.afterSend).1.Sound maxRetries := by
  obtain ⟨unresolved, claimed, aborted, retrying, retry, earlier, attempts, sends⟩ := sound
  unfold BatchAttempt.afterSend
  cases timed : delivery.live.timed with
  | true => constructor <;> grind -ring -linarith [moved]
  | false =>
    cases resolved : delivery.live.resolution <;> constructor <;>
      grind -ring -linarith [moved, BatchAttempt.finish, BatchAttempt.dispatchResult]

theorem caught_sound (phase : delivery.live.phase = .sending) :
    { delivery with live := delivery.live.caught }.Sound maxRetries := by
  obtain ⟨unresolved, claimed, aborted, retrying, retry, earlier, attempts, sends⟩ := sound
  constructor <;> grind -ring -linarith [BatchAttempt.caught]

theorem retry_sound (phase : delivery.live.phase = .retrying) (answer : Scheduling) :
    (delivery.retry maxRetries answer).1.Sound maxRetries := by
  obtain ⟨unresolved, claimed, aborted, retrying, retry, earlier, attempts, sends⟩ := sound
  rw [ChunkDelivery.retry]
  split <;> constructor <;> grind -ring -linarith [moved]

theorem retryFired_sound (timer : delivery.retryTimer = true) : { delivery with
      live := { attempt := delivery.live.attempt + 1 }
      aborted := delivery.aborted ++ [delivery.live]
      retryTimer := false }.Sound maxRetries := by
  obtain ⟨unresolved, claimed, aborted, retrying, retry, earlier, attempts, sends⟩ := sound
  constructor <;> grind -ring -linarith

theorem callback_sound (called : Callback) :
    (delivery.moved (delivery.live.callback called)).1.Sound maxRetries := by
  obtain ⟨unresolved, claimed, aborted, retrying, retry, earlier, attempts, sends⟩ := sound
  cases called with
  | result resultCode =>
    constructor <;>
      grind -ring -linarith [moved, BatchAttempt.callback, BatchAttempt.acceptResult]
  | dispatch =>
    constructor <;>
      grind -ring -linarith [moved, BatchAttempt.callback, BatchAttempt.dispatchResult]
  | timeout =>
    constructor <;>
      grind -ring -linarith [moved, BatchAttempt.callback, BatchAttempt.finish,
        BatchAttempt.dispatchResult]

/-- A call that comes back to an earlier attempt finds it given up. -/
theorem earlier_sound {index : Nat} {state : BatchAttempt}
    (known : delivery.aborted[index]? = some state) (called : Callback) :
    { delivery with
      aborted := delivery.aborted.set index (state.callback called).1
      reports := delivery.reports ++ (state.callback called).2.toList }.Sound maxRetries := by
  obtain ⟨gone, silent⟩ :=
    BatchAttempt.callback_aborted (sound.earlier state (mem_of_getElem? known)) called
  rw [silent, Option.toList_none, append_nil]
  refine { sound with earlier := fun other member => ?_ }
  rcases mem_or_eq_of_mem_set member with before | rfl
  · exact sound.earlier other before
  · exact gone

/-- Every move keeps a chunk sound. -/
theorem step_sound (move : Move) : (delivery.step maxRetries move).1.Sound maxRetries := by
  cases move with
  | timeoutScheduled answer =>
    rw [step]
    split
    next phase => exact scheduleTimeout_sound sound phase answer
    next => exact sound
  | sendReturned =>
    rw [step]
    split
    next phase => exact afterSend_sound sound phase
    next => exact sound
  | sendThrew =>
    rw [step]
    split
    next phase => exact caught_sound sound phase
    next => exact sound
  | retryScheduled answer =>
    rw [step]
    split
    next phase => exact retry_sound sound phase answer
    next => exact sound
  | retryFired =>
    rw [step]
    split
    next timer => exact retryFired_sound sound timer
    next => exact sound
  | callback which called =>
    cases which with
    | none => exact callback_sound sound called
    | some index =>
      rw [step]
      split
      next => exact sound
      next known => exact earlier_sound sound known called

end

/-- What stays true of a chunk later on. -/
structure Leads (before after : ChunkDelivery ε) : Prop where
  settled : before.reports ≠ [] → after.sends = before.sends ∧ after.reports = before.reports
  resolved : ∀ outcome, before.live.resolution = some (some outcome) →
    after.live.resolution = some (some outcome)

theorem Leads.refl (delivery : ChunkDelivery ε) : Leads delivery delivery :=
  ⟨fun _ => ⟨rfl, rfl⟩, fun _ resolved => resolved⟩

theorem Leads.trans {first second third : ChunkDelivery ε} (front : Leads first second)
    (back : Leads second third) : Leads first third where
  settled reported := by
    obtain ⟨sends, reports⟩ := front.settled reported
    obtain ⟨more, same⟩ := back.settled (reports ▸ reported)
    exact ⟨more.trans sends, same.trans reports⟩
  resolved outcome claimed := back.resolved outcome (front.resolved outcome claimed)

end ChunkDelivery

end Outcomes

end AutoMobile.EventBroadcast
