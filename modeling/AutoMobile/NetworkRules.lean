import Mathlib.Algebra.Order.Field.Rat
import AutoMobile.FlowShaper

/- `NetworkRuleStore`: leased rules, fenced by owner, generation and revision. Every call holds the
store's lock. -/
namespace AutoMobile.NetworkRules

open InsertionMap FlowShaping

section Requests

inductive ShapingComponent where
  | latency
  | downloadBandwidth
  | uploadBandwidth
  | packetLoss
deriving DecidableEq, Repr

/-- Round-trip milliseconds, kilobits per second, and a percentage; `none` where the double is not
finite. -/
structure ShapingRequest where
  delayMilliseconds : Nat := 0
  downloadKilobitsPerSecond : Nat := 0
  uploadKilobitsPerSecond : Nat := 0
  packetLossPercent : Option ℚ := some 0
deriving DecidableEq

inductive ShapingRejection where
  | outOfRange (component : ShapingComponent)
  | nothingToApply (unapplied : List ShapingComponent)
deriving DecidableEq

structure ShapingResolution where
  profile : ShapingProfile
  applied : List ShapingComponent
  unapplied : List ShapingComponent
deriving DecidableEq

/-- `ShapingProfile.init?`. -/
def shapingProfile (outboundDelayMilliseconds inboundDelayMilliseconds : Nat)
    (outboundBytesPerSecond inboundBytesPerSecond : Option Nat) : Option ShapingProfile :=
  if delays : outboundDelayMilliseconds ≤ 2000 ∧ inboundDelayMilliseconds ≤ 2000 then
    if outbound : ∀ rate ∈ outboundBytesPerSecond, 1000 ≤ rate ∧ rate ≤ 125000000 then
      if inbound : ∀ rate ∈ inboundBytesPerSecond, 1000 ≤ rate ∧ rate ≤ 125000000 then
        if effective : 0 < outboundDelayMilliseconds ∨ 0 < inboundDelayMilliseconds ∨
            outboundBytesPerSecond.isSome ∨ inboundBytesPerSecond.isSome then
          some { outboundDelayMilliseconds, inboundDelayMilliseconds, outboundBytesPerSecond,
                 inboundBytesPerSecond, delays, outboundRate := outbound, inboundRate := inbound,
                 effective }
        else none
      else none
    else none
  else none

def validKilobits (rate : Nat) : Bool := rate = 0 || (8 ≤ rate && rate ≤ 1000000)

def validLoss (percent : Option ℚ) : Bool := percent.any fun loss => 0 ≤ loss && loss ≤ 100

def appliedComponents (request : ShapingRequest) : List ShapingComponent :=
  (if 0 < request.delayMilliseconds then [.latency] else []) ++
    (if 0 < request.downloadKilobitsPerSecond then [.downloadBandwidth] else []) ++
    if 0 < request.uploadKilobitsPerSecond then [.uploadBandwidth] else []

def bytesPerSecond (kilobits : Nat) : Option Nat :=
  if kilobits = 0 then none else some (kilobits * 125)

/-- `ShapingProfile.resolve`. -/
def resolve (request : ShapingRequest) : Except ShapingRejection ShapingResolution :=
  if ¬ request.delayMilliseconds ≤ 4000 then .error (.outOfRange .latency)
  else if !validKilobits request.downloadKilobitsPerSecond then
    .error (.outOfRange .downloadBandwidth)
  else if !validKilobits request.uploadKilobitsPerSecond then .error (.outOfRange .uploadBandwidth)
  else if !validLoss request.packetLossPercent then .error (.outOfRange .packetLoss)
  else
    let unapplied : List ShapingComponent :=
      if request.packetLossPercent.any fun loss => 0 < loss then [.packetLoss] else []
    match shapingProfile ((request.delayMilliseconds + 1) / 2) (request.delayMilliseconds / 2)
        (bytesPerSecond request.uploadKilobitsPerSecond)
        (bytesPerSecond request.downloadKilobitsPerSecond) with
    | none => .error (.nothingToApply unapplied)
    | some profile => .ok ⟨profile, appliedComponents request, unapplied⟩

end Requests

section Commands

inductive NetworkRuleCondition where
  | offline
  | shaped (profile : ShapingProfile)
deriving DecidableEq

inductive NetworkRuleCommandCondition where
  | offline
  | shaped (request : ShapingRequest)
deriving DecidableEq

structure NetworkRuleOwnership where
  owner : String
  ownerGeneration : Nat
  revision : Nat
  named : owner ≠ "" ∧ owner.utf8ByteSize ≤ 128
  revised : 0 < revision
deriving DecidableEq

inductive NetworkRuleCommandKind where
  | apply
  | reset
  | renew
deriving DecidableEq, Repr

structure NetworkRuleCommand where
  kind : NetworkRuleCommandKind
  target : NetworkRuleTarget
  ownership : NetworkRuleOwnership
  condition : Option NetworkRuleCommandCondition := none
  leaseMilliseconds : Option Nat := none
deriving DecidableEq

inductive NetworkRuleOutcome where
  | applied
  | reset
  | renewed
  | staleGeneration
  | staleRevision
  | ownedByAnotherSession
  | notFound
  | invalidLease
  | invalidCommand
  | capacityExceeded
  | unsupportedCondition
  | invalidShaping
deriving DecidableEq, Repr

structure NetworkRuleResult where
  outcome : NetworkRuleOutcome
  installedRevision : Option Nat := none
  leaseRemainingMilliseconds : Option Nat := none
  shaping : Option ShapingResolution := none
  rejection : Option ShapingRejection := none
deriving DecidableEq

structure NetworkRuleStatus where
  target : NetworkRuleTarget
  owner : String
  ownerGeneration : Nat
  revision : Nat
  condition : NetworkRuleCondition
  leaseRemainingMilliseconds : Nat
  droppedFlows : Nat
  shaping : Option ShapingResolution
deriving DecidableEq

structure NetworkRuleEvaluationSnapshot where
  tickets : InsertionMap NetworkRuleTarget NetworkRuleTicket
  shapedTargets : List NetworkRuleTarget
deriving DecidableEq

end Commands

section Store

structure Rule where
  ownership : NetworkRuleOwnership
  condition : NetworkRuleCondition
  request : NetworkRuleCommandCondition
  shaping : Option ShapingResolution
  expiresAt : Nat
  droppedFlows : Nat
deriving DecidableEq

structure TombstoneKey where
  target : NetworkRuleTarget
  owner : String
deriving DecidableEq

/-- `byReset` is set when a reset, not expiry, removed the rule. -/
structure Tombstone where
  ownerGeneration : Nat
  revision : Nat
  byReset : Bool
deriving DecidableEq

structure NetworkRuleStore where
  supportsShaping : Bool := false
  rules : InsertionMap NetworkRuleTarget Rule := []
  tombstones : InsertionMap TombstoneKey Tombstone := []
  tombstoneOrder : List TombstoneKey := []
deriving DecidableEq

def minimumLeaseMilliseconds : Nat := 1000
def maximumLeaseMilliseconds : Nat := 60000
def maximumRules : Nat := 64
def maximumTombstones : Nat := 256

def ticketOf (target : NetworkRuleTarget) (ownership : NetworkRuleOwnership) : NetworkRuleTicket :=
  { target := target
    owner := ownership.owner
    ownerGeneration := ownership.ownerGeneration
    revision := ownership.revision }

def validLease (milliseconds : Option Nat) : Option Nat :=
  milliseconds.filter fun lease =>
    minimumLeaseMilliseconds ≤ lease && lease ≤ maximumLeaseMilliseconds

def installedRefusal (outcome : NetworkRuleOutcome) (rule : Rule) (now : Nat) :
    NetworkRuleResult :=
  { outcome := outcome
    installedRevision := some rule.ownership.revision
    leaseRemainingMilliseconds := some ((rule.expiresAt - now) / 1000000) }

/-- What a tombstone refuses, or answers to a duplicate reset. -/
def fenced (store : NetworkRuleStore) (target : NetworkRuleTarget)
    (ownership : NetworkRuleOwnership) (idempotentReset : Bool) : Option NetworkRuleResult :=
  match get? store.tombstones ⟨target, ownership.owner⟩ with
  | none => none
  | some tombstone =>
    if ownership.ownerGeneration < tombstone.ownerGeneration then
      some { outcome := .staleGeneration }
    else if ownership.ownerGeneration ≠ tombstone.ownerGeneration then none
    else if idempotentReset && tombstone.byReset && ownership.revision = tombstone.revision then
      some { outcome := .reset }
    else if ownership.revision ≤ tombstone.revision then some { outcome := .staleRevision }
    else none

/-- The oldest tombstones go past the bound. -/
def boundTombstones (tombstones : InsertionMap TombstoneKey Tombstone) :
    List TombstoneKey → InsertionMap TombstoneKey Tombstone × List TombstoneKey
  | [] => (tombstones, [])
  | oldest :: rest =>
    if maximumTombstones < (oldest :: rest).length then
      boundTombstones (erase tombstones oldest) rest
    else (tombstones, oldest :: rest)

/-- The tombstone is not older than the ownership. -/
def Tombstone.covers (tombstone : Tombstone) (ownership : NetworkRuleOwnership) : Bool :=
  ownership.ownerGeneration < tombstone.ownerGeneration ||
    (ownership.ownerGeneration = tombstone.ownerGeneration &&
      ownership.revision ≤ tombstone.revision)

def bury (store : NetworkRuleStore) (target : NetworkRuleTarget)
    (ownership : NetworkRuleOwnership) (byReset : Bool) : NetworkRuleStore :=
  let key : TombstoneKey := ⟨target, ownership.owner⟩
  let existing := get? store.tombstones key
  if existing.any fun tombstone => tombstone.covers ownership then store
  else
    let order := if existing.isNone then store.tombstoneOrder ++ [key] else store.tombstoneOrder
    let buried := put store.tombstones key
      { ownerGeneration := ownership.ownerGeneration
        revision := ownership.revision
        byReset := byReset }
    let bounded := boundTombstones buried order
    { store with tombstones := bounded.1, tombstoneOrder := bounded.2 }

/-- Removes the rule of a target, and buries its ownership. -/
def expire (store : NetworkRuleStore) (entry : NetworkRuleTarget × Rule) : NetworkRuleStore :=
  bury { store with rules := erase store.rules entry.1 } entry.1 entry.2.ownership false

def expired (store : NetworkRuleStore) (now : Nat) : List (NetworkRuleTarget × Rule) :=
  store.rules.filter fun entry => entry.2.expiresAt ≤ now

def sweep (store : NetworkRuleStore) (now : Nat) : NetworkRuleStore :=
  (expired store now).foldl expire store

def Rule.ticket (target : NetworkRuleTarget) (rule : Rule) : NetworkRuleTicket :=
  ticketOf target rule.ownership

end Store

section Operations

/-- `now + lease`, which traps past 64 bits. -/
def expiry (now leaseMilliseconds : Nat) : Option Nat :=
  let expiresAt := now + leaseMilliseconds * 1000000
  if expiresAt ≤ timeMax then some expiresAt else none

/-- What the rule of the target refuses. -/
def applyRefusal (store : NetworkRuleStore) (command : NetworkRuleCommand)
    (condition : NetworkRuleCommandCondition) (now : Nat) : Option NetworkRuleResult :=
  let ownership := command.ownership
  match get? store.rules command.target with
  | some existing =>
    if existing.ownership.owner ≠ ownership.owner then some { outcome := .ownedByAnotherSession }
    else if ownership.ownerGeneration < existing.ownership.ownerGeneration then
      some { outcome := .staleGeneration }
    else if ownership.ownerGeneration = existing.ownership.ownerGeneration ∧
        ownership.revision < existing.ownership.revision then
      some (installedRefusal .staleRevision existing now)
    else if existing.ownership = ownership ∧ existing.request ≠ condition then
      some { outcome := .invalidCommand }
    else none
  | none =>
    if maximumRules ≤ store.rules.length then some { outcome := .capacityExceeded } else none

/-- `none` where the lease's end traps. -/
def apply (store : NetworkRuleStore) (command : NetworkRuleCommand)
    (resolution : Option ShapingResolution) (now : Nat) :
    Option (NetworkRuleStore × NetworkRuleResult) :=
  match command.condition with
  | none => some (store, { outcome := .invalidCommand })
  | some condition =>
    match validLease command.leaseMilliseconds with
    | none => some (store, { outcome := .invalidLease })
    | some lease =>
      match fenced store command.target command.ownership false with
      | some refusal => some (store, refusal)
      | none =>
        match applyRefusal store command condition now with
        | some refusal => some (store, refusal)
        | none =>
          (expiry now lease).map fun expiresAt =>
            let dropped :=
              ((get? store.rules command.target).map fun existing =>
                if existing.ownership = command.ownership then existing.droppedFlows
                else 0).getD 0
            let rule : Rule :=
              { ownership := command.ownership
                condition :=
                  (resolution.map fun value =>
                    NetworkRuleCondition.shaped value.profile).getD .offline
                request := condition
                shaping := resolution
                expiresAt := expiresAt
                droppedFlows := dropped }
            ({ store with rules := put store.rules command.target rule },
              { outcome := .applied
                installedRevision := some command.ownership.revision
                leaseRemainingMilliseconds := some lease
                shaping := resolution })

/-- What the rule of the target refuses to a reset. -/
def resetRefusal (store : NetworkRuleStore) (target : NetworkRuleTarget)
    (ownership : NetworkRuleOwnership) : Option NetworkRuleResult :=
  match get? store.rules target with
  | some existing =>
    if existing.ownership.owner ≠ ownership.owner then some { outcome := .ownedByAnotherSession }
    else if ownership.ownerGeneration < existing.ownership.ownerGeneration then
      some { outcome := .staleGeneration }
    else if ownership.ownerGeneration = existing.ownership.ownerGeneration ∧
        ownership.revision ≤ existing.ownership.revision then
      some { outcome := .staleRevision, installedRevision := some existing.ownership.revision }
    else none
  | none => none

def reset (store : NetworkRuleStore) (target : NetworkRuleTarget)
    (ownership : NetworkRuleOwnership) : NetworkRuleStore × NetworkRuleResult :=
  match fenced store target ownership true with
  | some refusal => (store, refusal)
  | none =>
    match resetRefusal store target ownership with
    | some refusal => (store, refusal)
    | none =>
      (bury { store with rules := erase store.rules target } target ownership true,
        { outcome := .reset })

/-- `none` where the lease's end traps. -/
def renew (store : NetworkRuleStore) (command : NetworkRuleCommand) (now : Nat) :
    Option (NetworkRuleStore × NetworkRuleResult) :=
  match validLease command.leaseMilliseconds with
  | none => some (store, { outcome := .invalidLease })
  | some lease =>
    match get? store.rules command.target with
    | none => some (store, { outcome := .notFound })
    | some rule =>
      if rule.ownership.owner ≠ command.ownership.owner then
        some (store, { outcome := .notFound })
      else if command.ownership.ownerGeneration ≠ rule.ownership.ownerGeneration then
        some (store, { outcome := .staleGeneration })
      else if command.ownership.revision ≠ rule.ownership.revision then
        some (store, installedRefusal .staleRevision rule now)
      else
        (expiry now lease).map fun expiresAt =>
          ({ store with
              rules := put store.rules command.target { rule with expiresAt := expiresAt } },
            { outcome := .renewed
              installedRevision := some rule.ownership.revision
              leaseRemainingMilliseconds := some lease })

/-- What an apply resolves to, or is refused with before anything is swept. -/
def resolution (store : NetworkRuleStore) (command : NetworkRuleCommand) :
    Except NetworkRuleResult (Option ShapingResolution) :=
  match command.kind, command.condition with
  | .apply, some (.shaped request) =>
    if !store.supportsShaping then .error { outcome := .unsupportedCondition }
    else
      match resolve request with
      | .ok value => .ok (some value)
      | .error rejection => .error { outcome := .invalidShaping, rejection := some rejection }
  | _, _ => .ok none

def execute (store : NetworkRuleStore) (command : NetworkRuleCommand) (now : Nat) :
    Option (NetworkRuleStore × NetworkRuleResult) :=
  match resolution store command with
  | .error refusal => some (store, refusal)
  | .ok resolved =>
    let swept := sweep store now
    match command.kind with
    | .apply => apply swept command resolved now
    | .reset => some (reset swept command.target command.ownership)
    | .renew => renew swept command now

def statusOf (now : Nat) (entry : NetworkRuleTarget × Rule) : NetworkRuleStatus :=
  { target := entry.1
    owner := entry.2.ownership.owner
    ownerGeneration := entry.2.ownership.ownerGeneration
    revision := entry.2.ownership.revision
    condition := entry.2.condition
    leaseRemainingMilliseconds := (entry.2.expiresAt - now) / 1000000
    droppedFlows := entry.2.droppedFlows
    shaping := entry.2.shaping }

def statusBefore (first second : NetworkRuleStatus) : Bool :=
  first.target.simulator.udid < second.target.simulator.udid ||
    (first.target.simulator.udid = second.target.simulator.udid &&
      first.target.bundleId ≤ second.target.bundleId)

def activeRules (store : NetworkRuleStore) (now : Nat) :
    NetworkRuleStore × List NetworkRuleStatus :=
  let swept := sweep store now
  (swept, (swept.rules.map (statusOf now)).mergeSort statusBefore)

def evaluationSnapshot (store : NetworkRuleStore) (now : Nat) :
    NetworkRuleStore × Option NetworkRuleEvaluationSnapshot :=
  let swept := sweep store now
  if swept.rules.isEmpty then (swept, none)
  else
    (swept, some
      { tickets :=
          (swept.rules.filter fun entry => entry.2.condition = .offline).map fun entry =>
            (entry.1, entry.2.ticket entry.1)
        shapedTargets :=
          (swept.rules.filter fun entry => entry.2.shaping.isSome).map Prod.fst })

/-- The count of dropped flows wraps. -/
def commitDrop (store : NetworkRuleStore) (ticket : NetworkRuleTicket) (now : Nat) :
    NetworkRuleStore × Bool :=
  let swept := sweep store now
  match get? swept.rules ticket.target with
  | some rule =>
    if rule.condition = .offline ∧ rule.ticket ticket.target = ticket then
      ({ swept with
          rules := put swept.rules ticket.target
            { rule with droppedFlows := (rule.droppedFlows + 1) % 2 ^ 64 } }, true)
    else (swept, false)
  | none => (swept, false)

/-- Ends every rule, as expiry would. -/
def removeAll (store : NetworkRuleStore) : NetworkRuleStore :=
  { store.rules.foldl (fun buried entry => bury buried entry.1 entry.2.ownership false) store with
    rules := [] }

def shapingRule (store : NetworkRuleStore) (target : NetworkRuleTarget) (now : Nat) :
    NetworkRuleStore × Option ShapingRule :=
  let swept := sweep store now
  (swept, (get? swept.rules target).bind fun rule =>
    match rule.condition with
    | .shaped profile => some { ticket := rule.ticket target, profile := profile }
    | .offline => none)

end Operations

section Machine

inductive Request where
  | execute (command : NetworkRuleCommand)
  | activeRules
  | evaluationSnapshot
  | commitDrop (ticket : NetworkRuleTicket)
  | removeAll
  | shapingRule (target : NetworkRuleTarget)
deriving DecidableEq

/-- A call, and the clock's reading in it. -/
structure Call where
  now : Nat
  request : Request
deriving DecidableEq

inductive Reply where
  | result (result : NetworkRuleResult)
  | statuses (statuses : List NetworkRuleStatus)
  | snapshot (snapshot : Option NetworkRuleEvaluationSnapshot)
  | dropped (committed : Bool)
  | removed
  | rule (rule : Option ShapingRule)
deriving DecidableEq

/-- What a call replied; with it, the rules that ended as expired, and whether the command itself
changed the store. -/
structure Answer where
  call : Call
  reply : Reply
  ended : List (NetworkRuleTarget × Rule)
  changed : Bool
deriving DecidableEq

/-- `none` where the call traps. -/
def serve (store : NetworkRuleStore) (call : Call) : Option (NetworkRuleStore × Reply) :=
  match call.request with
  | .execute command => (execute store command call.now).map fun (next, result) =>
    (next, .result result)
  | .activeRules => let (next, statuses) := activeRules store call.now; some (next, .statuses statuses)
  | .evaluationSnapshot =>
    let (next, snapshot) := evaluationSnapshot store call.now
    some (next, .snapshot snapshot)
  | .commitDrop ticket =>
    let (next, committed) := commitDrop store ticket call.now
    some (next, .dropped committed)
  | .removeAll => some (removeAll store, .removed)
  | .shapingRule target =>
    let (next, rule) := shapingRule store target call.now
    some (next, .rule rule)

/-- The rules that a call ends as expired. -/
def endedBy (store : NetworkRuleStore) (call : Call) : List (NetworkRuleTarget × Rule) :=
  match call.request with
  | .removeAll => store.rules
  | .execute command =>
    match resolution store command with
    | .error _ => []
    | .ok _ => expired store call.now
  | _ => expired store call.now

/-- A process that has trapped serves no more calls. -/
def step : Option NetworkRuleStore → Call → Option NetworkRuleStore × List Answer
  | none, _ => (none, [])
  | some store, call =>
    match serve store call with
    | none => (none, [])
    | some (next, reply) =>
      (some next, [{ call := call
                     reply := reply
                     ended := endedBy store call
                     changed := next ≠ sweep store call.now }])

end Machine

end AutoMobile.NetworkRules
