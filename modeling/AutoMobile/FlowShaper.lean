import Mathlib.Algebra.Group.Nat.Units
import AutoMobile.InsertionMap
import AutoMobile.Runs

/- `FlowShaper`: one FIFO reservation timeline for each target and direction, and the verdicts that
its calls give. Every call holds the shaper's lock. -/
namespace AutoMobile.FlowShaping

open InsertionMap

inductive FlowDirection where
  | inbound
  | outbound
deriving DecidableEq, Repr

inductive FlowTransport where
  | stream
  | datagram
deriving DecidableEq, Repr

def nanosecondsPerSecond : Nat := 1000000000

/-- `UInt64.max`. -/
def timeMax : Nat := 2 ^ 64 - 1

/-- `FlowShaper.add`: saturating. -/
def add (first second : Nat) : Nat := min (first + second) timeMax

section Profile

/-- Delays of 0...2000 ms and rates of 1000...125000000 bytes/s, with some effect. -/
structure ShapingProfile where
  outboundDelayMilliseconds : Nat
  inboundDelayMilliseconds : Nat
  outboundBytesPerSecond : Option Nat
  inboundBytesPerSecond : Option Nat
  delays : outboundDelayMilliseconds ≤ 2000 ∧ inboundDelayMilliseconds ≤ 2000
  outboundRate : ∀ rate ∈ outboundBytesPerSecond, 1000 ≤ rate ∧ rate ≤ 125000000
  inboundRate : ∀ rate ∈ inboundBytesPerSecond, 1000 ≤ rate ∧ rate ≤ 125000000
  effective : 0 < outboundDelayMilliseconds ∨ 0 < inboundDelayMilliseconds ∨
    outboundBytesPerSecond.isSome ∨ inboundBytesPerSecond.isSome
deriving DecidableEq

def ShapingProfile.rate (profile : ShapingProfile) : FlowDirection → Option Nat
  | .outbound => profile.outboundBytesPerSecond
  | .inbound => profile.inboundBytesPerSecond

def ShapingProfile.delayNanoseconds (profile : ShapingProfile) : FlowDirection → Nat
  | .outbound => profile.outboundDelayMilliseconds * 1000000
  | .inbound => profile.inboundDelayMilliseconds * 1000000

def ShapingProfile.shapes (profile : ShapingProfile) (direction : FlowDirection) : Bool :=
  0 < profile.delayNanoseconds direction || (profile.rate direction).isSome

/-- The smallest delay that is not zero. -/
def ShapingProfile.quietGapNanoseconds (profile : ShapingProfile) : Nat :=
  let delays := [profile.outboundDelayMilliseconds, profile.inboundDelayMilliseconds]
  ((delays.filter fun delay => 0 < delay).min?.map fun delay => delay * 1000000).getD 0

def ShapingProfile.quantum (profile : ShapingProfile) (direction : FlowDirection) : Nat :=
  match profile.rate direction with
  | some rate => min 1048576 (max 1 (rate / 10))
  | none => 65536

end Profile

section Rules

structure ManagedSimulator where
  deviceSet : String
  udid : String
deriving DecidableEq, Repr

structure NetworkRuleTarget where
  simulator : ManagedSimulator
  bundleId : String
deriving DecidableEq, Repr

structure NetworkRuleTicket where
  target : NetworkRuleTarget
  owner : String
  ownerGeneration : Nat
  revision : Nat
deriving DecidableEq, Repr

structure ShapingRule where
  ticket : NetworkRuleTicket
  profile : ShapingProfile
deriving DecidableEq

/-- What `ShapingRuleSource.shapingRule` answers for each target. -/
structure RuleSource where
  shapingRule : NetworkRuleTarget → Option ShapingRule
  named : ∀ target rule, shapingRule target = some rule → rule.ticket.target = target

end Rules

section Flows

inductive FlowPause.Phase where
  | newFlow
  | data (direction : FlowDirection)
deriving DecidableEq, Repr

/-- A flow is named by its UUID. -/
structure FlowPause where
  flow : String
  id : Nat
  resumeAtNanoseconds : Nat
  phase : FlowPause.Phase
deriving DecidableEq, Repr

inductive NewFlowDecision where
  | allow
  | filter (inbound outbound : Bool) (peekBytes : Nat)
  | pause (pause : FlowPause)
  | drop
deriving DecidableEq, Repr

inductive DataDecision where
  | allow
  | pass (bytes peekBytes : Nat)
  | pause (pause : FlowPause)
  | drop
deriving DecidableEq, Repr

inductive ResumeDecision where
  | allow
  | filter (inbound outbound : Bool) (peekBytes : Nat)
  | pass (bytes peekBytes : Nat)
deriving DecidableEq, Repr

inductive ResumeOutcome where
  | settled (decision : ResumeDecision)
  | alreadySettled
  | notDue (resumeAtNanoseconds : Nat)
deriving DecidableEq, Repr

structure FlowSettlement where
  pause : FlowPause
  decision : ResumeDecision
deriving DecidableEq, Repr

structure Pending where
  pause : FlowPause
  ticket : NetworkRuleTicket
  bytes : Nat
  debtReleased : Bool := false
deriving DecidableEq, Repr

structure Flow where
  target : NetworkRuleTarget
  transport : FlowTransport
  lastActive : Nat
  inboundActivity : Option Nat := none
  outboundActivity : Option Nat := none
  pending : Option Pending := none
  allowing : Bool := false
deriving DecidableEq, Repr

def Flow.activity (flow : Flow) : FlowDirection → Option Nat
  | .inbound => flow.inboundActivity
  | .outbound => flow.outboundActivity

def Flow.record (flow : Flow) (direction : FlowDirection) (now : Nat) : Flow :=
  match direction with
  | .inbound => { flow with lastActive := now, inboundActivity := some now }
  | .outbound => { flow with lastActive := now, outboundActivity := some now }

end Flows

section Timelines

structure ShapingStatus where
  owner : String
  ownerGeneration : Nat
  revision : Nat
  outboundReleasedBytes : Nat := 0
  inboundReleasedBytes : Nat := 0
  outboundHeldBursts : Nat := 0
  inboundHeldBursts : Nat := 0
  overBudgetDrops : Nat := 0
  refusedFlows : Nat := 0
  callbacksWhilePaused : Nat := 0
  debtReleases : Nat := 0
deriving DecidableEq, Repr

/-- A counter that `increment` names. -/
inductive Counter where
  | releasedBytes (direction : FlowDirection)
  | heldBursts (direction : FlowDirection)
  | overBudgetDrops
  | refusedFlows
  | callbacksWhilePaused
  | debtReleases
deriving DecidableEq, Repr

def ShapingStatus.count (status : ShapingStatus) (amount : Nat) : Counter → ShapingStatus
  | .releasedBytes .outbound =>
    { status with outboundReleasedBytes := add status.outboundReleasedBytes amount }
  | .releasedBytes .inbound =>
    { status with inboundReleasedBytes := add status.inboundReleasedBytes amount }
  | .heldBursts .outbound =>
    { status with outboundHeldBursts := add status.outboundHeldBursts amount }
  | .heldBursts .inbound => { status with inboundHeldBursts := add status.inboundHeldBursts amount }
  | .overBudgetDrops => { status with overBudgetDrops := add status.overBudgetDrops amount }
  | .refusedFlows => { status with refusedFlows := add status.refusedFlows amount }
  | .callbacksWhilePaused =>
    { status with callbacksWhilePaused := add status.callbacksWhilePaused amount }
  | .debtReleases => { status with debtReleases := add status.debtReleases amount }

structure Timeline where
  rule : ShapingRule
  inboundNext : Nat := 0
  outboundNext : Nat := 0
  counters : ShapingStatus
deriving DecidableEq

def countersOf (rule : ShapingRule) : ShapingStatus :=
  { owner := rule.ticket.owner
    ownerGeneration := rule.ticket.ownerGeneration
    revision := rule.ticket.revision }

def ShapingStatus.sameRule (status : ShapingStatus) (rule : ShapingRule) : Bool :=
  status.owner = rule.ticket.owner && status.ownerGeneration = rule.ticket.ownerGeneration &&
    status.revision = rule.ticket.revision

/-- When the next reservation may start. -/
def Timeline.next (timeline : Timeline) : FlowDirection → Nat
  | .inbound => timeline.inboundNext
  | .outbound => timeline.outboundNext

def Timeline.setNext (timeline : Timeline) (direction : FlowDirection) (next : Nat) : Timeline :=
  match direction with
  | .inbound => { timeline with inboundNext := next }
  | .outbound => { timeline with outboundNext := next }

end Timelines

structure FlowShaper where
  lastNow : Nat := 0
  pauseID : Nat := 0
  flows : InsertionMap String Flow := []
  timelines : InsertionMap NetworkRuleTarget Timeline := []
  refused : InsertionMap NetworkRuleTarget ShapingStatus := []
  refusedOrder : List NetworkRuleTarget := []
  unknownCallbacks : Nat := 0
deriving DecidableEq

def maximumFlows : Nat := 256
def maximumTimelines : Nat := 64
def maximumDatagramPauseNanoseconds : Nat := 8000000000
def maximumStreamPauseNanoseconds : Nat := 30000000000
def idleEvictionNanoseconds : Nat := 60000000000
def maximumRefusedTargets : Nat := 64

section Helpers

def monotonicNow (shaper : FlowShaper) (clock : UInt64) : Nat := max shaper.lastNow clock.toNat

/-- `ceil(bytes * 1e9 / rate)`; what 64 bits do not hold saturates. -/
def duration (bytes rate : Nat) : Nat :=
  let product := bytes * nanosecondsPerSecond
  if product / 2 ^ 64 < rate then
    add (product / rate) (if product % rate = 0 then 0 else 1)
  else timeMax

def FlowShaper.increment (shaper : FlowShaper) (target : NetworkRuleTarget) (counter : Counter)
    (amount : Nat) : FlowShaper :=
  match get? shaper.timelines target with
  | some timeline =>
    { shaper with
      timelines := put shaper.timelines target
        { timeline with counters := timeline.counters.count amount counter } }
  | none => shaper

def FlowShaper.removeFlow (shaper : FlowShaper) (flow : String) : FlowShaper :=
  { shaper with flows := erase shaper.flows flow }

def FlowShaper.setFlow (shaper : FlowShaper) (flow : String) (tracked : Flow) : FlowShaper :=
  { shaper with flows := put shaper.flows flow tracked }

/-- Counts a drop and forgets the flow. -/
def FlowShaper.dropFlow (shaper : FlowShaper) (flow : String) (target : NetworkRuleTarget) :
    FlowShaper :=
  (shaper.increment target .overBudgetDrops 1).removeFlow flow

def pruneTimelines (shaper : FlowShaper) (source : RuleSource) : FlowShaper :=
  { shaper with
    timelines := shaper.timelines.filter fun entry => (source.shapingRule entry.1).isSome }

/-- A timeline for the rule, which keeps the budgets of the one before it; `none` at capacity. -/
def ensureTimeline (shaper : FlowShaper) (source : RuleSource) (rule : ShapingRule) :
    FlowShaper × Bool :=
  let target := rule.ticket.target
  let previous := get? shaper.timelines target
  if previous.any fun timeline => timeline.rule.ticket = rule.ticket then (shaper, true)
  else
    let pruned := if previous.isNone then pruneTimelines shaper source else shaper
    if previous.isNone && maximumTimelines ≤ pruned.timelines.length then (pruned, false)
    else
      let fresh : Timeline :=
        { rule := rule
          inboundNext := (previous.map Timeline.inboundNext).getD 0
          outboundNext := (previous.map Timeline.outboundNext).getD 0
          counters := countersOf rule }
      let refusedFlows :=
        match get? pruned.refused target with
        | some status => if status.sameRule rule then status.refusedFlows else 0
        | none => 0
      ({ pruned with
          refused := erase pruned.refused target
          refusedOrder := pruned.refusedOrder.filter fun other => other ≠ target
          timelines := put pruned.timelines target
            { fresh with counters := { fresh.counters with refusedFlows := refusedFlows } } }, true)

/-- A target past the history's bound loses its entry. -/
def boundRefused (refused : InsertionMap NetworkRuleTarget ShapingStatus) :
    List NetworkRuleTarget → InsertionMap NetworkRuleTarget ShapingStatus × List NetworkRuleTarget
  | [] => (refused, [])
  | oldest :: rest =>
    if maximumRefusedTargets < (oldest :: rest).length then
      boundRefused (erase refused oldest) rest
    else (refused, oldest :: rest)

def countRefusal (shaper : FlowShaper) (rule : ShapingRule) : FlowShaper :=
  let target := rule.ticket.target
  let value :=
    match get? shaper.refused target with
    | some status => if status.sameRule rule then status else countersOf rule
    | none => countersOf rule
  let order :=
    if (get? shaper.refused target).isNone then shaper.refusedOrder ++ [target]
    else shaper.refusedOrder
  let counted := put shaper.refused target { value with refusedFlows := add value.refusedFlows 1 }
  let bounded := boundRefused counted order
  { shaper with refused := bounded.1, refusedOrder := bounded.2 }

def grant (bytes : Nat) (transport : FlowTransport) (profile : ShapingProfile)
    (direction : FlowDirection) : Nat :=
  if transport = .stream && (profile.rate direction).isSome then
    min bytes (profile.quantum direction)
  else bytes

def filterPeek (profile : ShapingProfile) : Nat :=
  ((([FlowDirection.inbound, .outbound].filter profile.shapes).map profile.quantum).min?).getD 65536

def newFilter (profile : ShapingProfile) : NewFlowDecision :=
  .filter (profile.shapes .inbound) (profile.shapes .outbound) (filterPeek profile)

def resumedFilter (profile : ShapingProfile) : ResumeDecision :=
  .filter (profile.shapes .inbound) (profile.shapes .outbound) (filterPeek profile)

def makePause (shaper : FlowShaper) (flow : String) (phase : FlowPause.Phase) (release : Nat) :
    Option (FlowShaper × FlowPause) :=
  if shaper.pauseID < timeMax then
    some ({ shaper with pauseID := shaper.pauseID + 1 },
      { flow := flow, id := shaper.pauseID + 1, resumeAtNanoseconds := release, phase := phase })
  else none

def slotStart (shaper : FlowShaper) (target : NetworkRuleTarget) (direction : FlowDirection)
    (now : Nat) : Nat :=
  match get? shaper.timelines target with
  | some timeline =>
    if (timeline.rule.profile.rate direction).isSome then max now (timeline.next direction)
    else now
  | none => now

def charge (shaper : FlowShaper) (bytes : Nat) (target : NetworkRuleTarget)
    (direction : FlowDirection) (now : Nat) : FlowShaper :=
  match get? shaper.timelines target with
  | some timeline =>
    match timeline.rule.profile.rate direction with
    | some rate =>
      let next := add (slotStart shaper target direction now) (duration bytes rate)
      { shaper with timelines := put shaper.timelines target (timeline.setNext direction next) }
    | none => shaper
  | none => shaper

def countRelease (shaper : FlowShaper) (bytes : Nat) (target : NetworkRuleTarget)
    (direction : FlowDirection) : FlowShaper :=
  shaper.increment target (.releasedBytes direction) bytes

def chargeDebt (shaper : FlowShaper) (bytes : Nat) (target : NetworkRuleTarget)
    (direction : FlowDirection) (now : Nat) : FlowShaper :=
  countRelease ((charge shaper bytes target direction now).increment target .debtReleases 1) bytes
    target direction

end Helpers

section Calls

/-- The oldest activity goes first, then the UUID. -/
def goesBefore (first second : String × Flow) : Bool :=
  first.2.lastActive < second.2.lastActive ||
    (first.2.lastActive = second.2.lastActive && first.1 < second.1)

def firstToGo : List (String × Flow) → Option (String × Flow)
  | [] => none
  | entry :: rest =>
    match firstToGo rest with
    | none => some entry
    | some best => if goesBefore best entry then some best else some entry

def evictionCandidate (shaper : FlowShaper) (now : Nat) : Option (String × Flow) :=
  firstToGo (shaper.flows.filter fun entry =>
    entry.2.pending.isNone && idleEvictionNanoseconds ≤ now - entry.2.lastActive)

/-- Streams hold their connection for the sum of the directional delays. -/
def establishmentHold (transport : FlowTransport) (profile : ShapingProfile) : Nat :=
  match transport with
  | .stream => profile.delayNanoseconds .outbound + profile.delayNanoseconds .inbound
  | .datagram => 0

/-- `newFlow` of a flow that is not tracked, once there is room for it. -/
def admitFlow (shaper : FlowShaper) (flow : String) (target : NetworkRuleTarget)
    (transport : FlowTransport) (rule : ShapingRule) (now : Nat) : FlowShaper × NewFlowDecision :=
  let tracked : Flow := { target := target, transport := transport, lastActive := now }
  let hold := establishmentHold transport rule.profile
  if 0 < hold then
    if hold ≤ timeMax - now then
      match makePause shaper flow .newFlow (now + hold) with
      | some (paused, token) =>
        (paused.setFlow flow
          { tracked with pending := some { pause := token, ticket := rule.ticket, bytes := 0 } },
          .pause token)
      | none => (shaper.increment target .overBudgetDrops 1, .drop)
    else (shaper.increment target .overBudgetDrops 1, .drop)
  else (shaper.setFlow flow tracked, newFilter rule.profile)

def newFlow (shaper : FlowShaper) (flow : String) (target : NetworkRuleTarget)
    (transport : FlowTransport) (source : RuleSource) (now : Nat) : FlowShaper × NewFlowDecision :=
  match source.shapingRule target with
  | none =>
    match get? shaper.flows flow with
    | some tracked =>
      if tracked.pending.isNone then (shaper.removeFlow flow, .allow)
      else (shaper.setFlow flow { tracked with allowing := true }, .allow)
    | none => (shaper, .allow)
  | some rule =>
    match get? shaper.flows flow with
    | some existing =>
      if existing.allowing then (shaper, .allow)
      else
        match existing.pending with
        | some pending => (shaper, .pause pending.pause)
        | none => (shaper, newFilter rule.profile)
    | none =>
      match ensureTimeline shaper source rule with
      | (refusing, false) => (countRefusal refusing rule, .drop)
      | (ensured, true) =>
        if maximumFlows ≤ ensured.flows.length then
          match evictionCandidate ensured now with
          | none => (ensured.increment target .refusedFlows 1, .drop)
          | some candidate =>
            admitFlow (ensured.removeFlow candidate.1) flow target transport rule now
        else admitFlow ensured flow target transport rule now

def pauseLimit : FlowTransport → Nat
  | .datagram => maximumDatagramPauseNanoseconds
  | .stream => maximumStreamPauseNanoseconds

/-- How long a burst is held: on the first data of a direction, or after a quiet gap. -/
def burstHold (tracked : Flow) (profile : ShapingProfile) (direction : FlowDirection)
    (now : Nat) : Nat :=
  match tracked.activity direction with
  | none => profile.delayNanoseconds direction
  | some last =>
    if profile.quietGapNanoseconds ≤ now - last then profile.delayNanoseconds direction else 0

/-- Charges the slot, and counts the burst when it is held. -/
def chargeSlot (shaper : FlowShaper) (bytes : Nat) (target : NetworkRuleTarget)
    (direction : FlowDirection) (hold now : Nat) : FlowShaper :=
  let charged := charge shaper bytes target direction now
  if 0 < hold then charged.increment target (.heldBursts direction) 1 else charged

def reserveData (shaper : FlowShaper) (flow : String) (direction : FlowDirection) (bytes : Nat)
    (tracked : Flow) (rule : ShapingRule) (now : Nat) : FlowShaper × DataDecision :=
  let hold := burstHold tracked rule.profile direction now
  let slot := slotStart shaper tracked.target direction now
  let release := max (add now hold) slot
  if timeMax - now < hold || ((rule.profile.rate direction).isSome && slot = timeMax) ||
      pauseLimit tracked.transport < release - now then
    (shaper.dropFlow flow tracked.target, .drop)
  else if now < release then
    match makePause shaper flow (.data direction) release with
    | none => (shaper.dropFlow flow tracked.target, .drop)
    | some (paused, token) =>
      ((chargeSlot paused bytes tracked.target direction hold now).setFlow flow
        { tracked.record direction now with
          pending := some { pause := token, ticket := rule.ticket, bytes := bytes } },
        .pause token)
  else
    ((countRelease (chargeSlot shaper bytes tracked.target direction hold now) bytes
        tracked.target direction).setFlow flow (tracked.record direction now),
      .pass bytes (rule.profile.quantum direction))

/-- `data` once the flow is tracked and the timeline of its rule is there. -/
def filterData (shaper : FlowShaper) (flow : String) (direction : FlowDirection)
    (availableBytes : Int) (before : Flow) (rule : ShapingRule) (now : Nat) :
    FlowShaper × DataDecision :=
  let peek := rule.profile.quantum direction
  let tracked := { before with lastActive := now }
  let called :=
    if tracked.pending.isSome then shaper.increment tracked.target .callbacksWhilePaused 1
    else shaper
  if availableBytes ≤ 0 then (called.setFlow flow tracked, .pass 0 peek)
  else
    let bytes := grant availableBytes.toNat tracked.transport rule.profile direction
    if tracked.transport = .datagram &&
        (rule.profile.rate direction).any
          (fun rate => maximumDatagramPauseNanoseconds < duration bytes rate) then
      (called.dropFlow flow tracked.target, .drop)
    else
      match tracked.pending with
      | some pending =>
        if pending.debtReleased then (called.dropFlow flow tracked.target, .drop)
        else
          ((chargeDebt called bytes tracked.target direction now).setFlow flow
            { tracked.record direction now with
              pending := some { pending with debtReleased := true } },
            .pass bytes peek)
      | none => reserveData called flow direction bytes tracked rule now

def data (shaper : FlowShaper) (flow : String) (direction : FlowDirection) (availableBytes : Int)
    (source : RuleSource) (now : Nat) : FlowShaper × DataDecision :=
  match get? shaper.flows flow with
  | none => ({ shaper with unknownCallbacks := add shaper.unknownCallbacks 1 }, .allow)
  | some tracked =>
    if tracked.allowing then (shaper, .allow)
    else
      match source.shapingRule tracked.target with
      | none =>
        if tracked.pending.isNone then (shaper.removeFlow flow, .allow)
        else (shaper.setFlow flow { tracked with allowing := true }, .allow)
      | some rule =>
        match ensureTimeline shaper source rule with
        | (refusing, false) => ((countRefusal refusing rule).removeFlow flow, .drop)
        | (ensured, true) => filterData ensured flow direction availableBytes tracked rule now

/-- `resume` of a pause that settles under a rule whose timeline is there. -/
def settlePause (shaper : FlowShaper) (pause : FlowPause) (before : Flow) (pending : Pending)
    (rule : ShapingRule) (now : Nat) : FlowShaper × ResumeOutcome :=
  let tracked := { before with pending := none, lastActive := now }
  match pause.phase with
  | .newFlow => (shaper.setFlow pause.flow tracked, .settled (resumedFilter rule.profile))
  | .data direction =>
    let same := rule.ticket = pending.ticket
    let bytes :=
      if same then pending.bytes else grant pending.bytes tracked.transport rule.profile direction
    let counted :=
      if same then countRelease shaper bytes tracked.target direction
      else chargeDebt shaper bytes tracked.target direction now
    (counted.setFlow pause.flow (tracked.record direction now),
      .settled (.pass bytes (rule.profile.quantum direction)))

def resume (shaper : FlowShaper) (pause : FlowPause) (source : RuleSource) (now : Nat) :
    FlowShaper × ResumeOutcome :=
  match get? shaper.flows pause.flow with
  | none => (shaper, .alreadySettled)
  | some tracked =>
    match tracked.pending with
    | none => (shaper, .alreadySettled)
    | some pending =>
      if pending.pause ≠ pause then (shaper, .alreadySettled)
      else
        match source.shapingRule tracked.target with
        | none => (shaper.removeFlow pause.flow, .settled .allow)
        | some rule =>
          if tracked.allowing then (shaper.removeFlow pause.flow, .settled .allow)
          else if rule.ticket = pending.ticket ∧ now < pause.resumeAtNanoseconds then
            (shaper, .notDue pause.resumeAtNanoseconds)
          else
            match ensureTimeline shaper source rule with
            | (refusing, false) => (refusing.removeFlow pause.flow, .settled .allow)
            | (ensured, true) => settlePause ensured pause tracked pending rule now

def settlementOf (tracked : Flow) : Option FlowSettlement :=
  tracked.pending.map fun pending => { pause := pending.pause, decision := .allow }

def flowEnded (shaper : FlowShaper) (flow : String) : FlowShaper × Option FlowSettlement :=
  (shaper.removeFlow flow, (get? shaper.flows flow).bind settlementOf)

def isStale (source : RuleSource) (tracked : Flow) : Bool :=
  tracked.pending.isSome && (tracked.allowing || (source.shapingRule tracked.target).isNone)

def settleStale (shaper : FlowShaper) (source : RuleSource) : FlowShaper × List FlowSettlement :=
  let stale := shaper.flows.filter fun entry => isStale source entry.2
  let kept := { shaper with flows := shaper.flows.filter fun entry => !isStale source entry.2 }
  (pruneTimelines kept source, ((stale.filterMap fun entry => settlementOf entry.2).mergeSort
      fun first second => first.pause.id ≤ second.pause.id))

end Calls

section Machine

inductive Event where
  | newFlow (flow : String) (target : NetworkRuleTarget) (transport : FlowTransport)
  | data (flow : String) (direction : FlowDirection) (availableBytes : Int)
  | resume (pause : FlowPause)
  | flowEnded (flow : String)
  | settleStale
deriving DecidableEq, Repr

/-- A call and what it reads: the clock, and the rules in force. -/
structure Call where
  event : Event
  clock : UInt64
  source : RuleSource

inductive Output where
  | newFlow (flow : String) (decision : NewFlowDecision)
  | data (flow : String) (direction : FlowDirection) (availableBytes : Int)
      (decision : DataDecision)
  | resumed (pause : FlowPause) (outcome : ResumeOutcome)
  | ended (flow : String) (settlement : Option FlowSettlement)
  | stale (settlements : List FlowSettlement)
deriving DecidableEq

def FlowShaper.tick (shaper : FlowShaper) (clock : UInt64) : FlowShaper :=
  { shaper with lastNow := monotonicNow shaper clock }

def step (shaper : FlowShaper) (call : Call) : FlowShaper × List Output :=
  let now := monotonicNow shaper call.clock
  match call.event with
  | .newFlow flow target transport =>
    let (next, decision) := newFlow (shaper.tick call.clock) flow target transport call.source now
    (next, [.newFlow flow decision])
  | .data flow direction availableBytes =>
    let (next, decision) :=
      data (shaper.tick call.clock) flow direction availableBytes call.source now
    (next, [.data flow direction availableBytes decision])
  | .resume pause =>
    let (next, outcome) := resume (shaper.tick call.clock) pause call.source now
    (next, [.resumed pause outcome])
  | .flowEnded flow =>
    let (next, settlement) := flowEnded shaper flow
    (next, [.ended flow settlement])
  | .settleStale =>
    let (next, settlements) := settleStale shaper call.source
    (next, [.stale settlements])

end Machine

end AutoMobile.FlowShaping
