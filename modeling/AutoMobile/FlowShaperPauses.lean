import AutoMobile.FlowShaperTimelines

/- What each call does to the outstanding pauses, and what it grants. -/
namespace AutoMobile.FlowShaping

open InsertionMap

variable {before middle after shaper : FlowShaper} {source : RuleSource} {rule : ShapingRule}
variable {direction : FlowDirection} {flow : String} {tracked : Flow} {bytes now : Nat}
variable {target : NetworkRuleTarget} {transport : FlowTransport}

section Grants

/-- A verdict that passes bytes, under the rule that was in force for the flow's target. It is a
debt when the flow was paused and the bytes are not those its pause held under the rule's ticket. -/
structure Grant where
  time : Nat
  flow : String
  transport : FlowTransport
  rule : ShapingRule
  direction : FlowDirection
  bytes : Nat
  debt : Bool
deriving DecidableEq

def DataDecision.passed : DataDecision → Nat
  | .pass bytes _ => bytes
  | _ => 0

def ResumeOutcome.passed : ResumeOutcome → Nat
  | .settled (.pass bytes _) => bytes
  | _ => 0

/-- The bytes that pass, beside what the shaper and the rules said before the call. -/
def passing (shaper : FlowShaper) (source : RuleSource) (flow : String) (direction : FlowDirection)
    (now bytes : Nat) (owes : Pending → ShapingRule → Bool) : Option Grant :=
  (get? shaper.flows flow).bind fun tracked =>
    (source.shapingRule tracked.target).map fun rule =>
      { time := now
        flow := flow
        transport := tracked.transport
        rule := rule
        direction := direction
        bytes := bytes
        debt := tracked.pending.any fun pending => owes pending rule }

/-- A pass of no bytes only sets the peek. -/
def dataGrant (shaper : FlowShaper) (flow : String) (direction : FlowDirection)
    (source : RuleSource) (now : Nat) (decision : DataDecision) : Option Grant :=
  if decision.passed = 0 then none
  else passing shaper source flow direction now decision.passed fun _ _ => true

def resumeGrant (shaper : FlowShaper) (pause : FlowPause) (source : RuleSource) (now : Nat)
    (outcome : ResumeOutcome) : Option Grant :=
  match pause.phase, outcome with
  | .data direction, .settled (.pass bytes _) =>
    passing shaper source pause.flow direction now bytes
      fun pending rule => rule.ticket ≠ pending.ticket
  | _, _ => none

theorem passing_eq {owes : Pending → ShapingRule → Bool}
    (found : get? shaper.flows flow = some tracked)
    (ruling : source.shapingRule tracked.target = some rule) :
    passing shaper source flow direction now bytes owes =
      some { time := now, flow := flow, transport := tracked.transport, rule := rule,
             direction := direction, bytes := bytes,
             debt := tracked.pending.any fun pending => owes pending rule } := by
  unfold passing
  rw [found, Option.bind_some, ruling]
  rfl

theorem resumeGrant_silent {pause : FlowPause} {outcome : ResumeOutcome}
    (silent : ∀ bytes peek, outcome ≠ .settled (.pass bytes peek)) :
    resumeGrant shaper pause source now outcome = none := by
  unfold resumeGrant
  split
  next bytes peek _ => exact absurd rfl (silent bytes peek)
  next => rfl

end Grants

section Carrying

/-- The same pause, but for whether a debt was released during it. -/
structure SamePause (first second : Pending) : Prop where
  pause : second.pause = first.pause
  ticket : second.ticket = first.ticket
  bytes : second.bytes = first.bytes

/-- The pending pause of a flow was there before. -/
def Carried (before : FlowShaper) (flow : String) (tracked : Flow) (pending : Pending) : Prop :=
  ∃ earlier held, get? before.flows flow = some earlier ∧ earlier.pending = some held ∧
    earlier.target = tracked.target ∧ earlier.transport = tracked.transport ∧
    SamePause held pending

/-- No new pause. -/
structure Carries (before after : FlowShaper) : Prop where
  ids : before.pauseID ≤ after.pauseID
  pendings : ∀ flow tracked pending, get? after.flows flow = some tracked →
    tracked.pending = some pending → Carried before flow tracked pending

/-- One new pause, of the flow, with the next id. -/
structure Pauses (flow : String) (target : NetworkRuleTarget) (transport : FlowTransport)
    (fresh : Pending) (before after : FlowShaper) : Prop where
  ids : after.pauseID = before.pauseID + 1
  token : fresh.pause.flow = flow ∧ fresh.pause.id = after.pauseID
  own : ∃ now, get? after.flows flow = some now ∧ now.pending = some fresh ∧
    now.target = target ∧ now.transport = transport
  pendings : ∀ other tracked pending, other ≠ flow → get? after.flows other = some tracked →
    tracked.pending = some pending → Carried before other tracked pending

theorem Carries.of_flows (ids : before.pauseID ≤ after.pauseID)
    (same : after.flows = before.flows) : Carries before after := by
  refine ⟨ids, fun flow tracked pending found paused => ?_⟩
  rw [same] at found
  exact ⟨tracked, pending, found, paused, rfl, rfl, ⟨rfl, rfl, rfl⟩⟩

theorem Carries.trans (first : Carries before middle) (second : Carries middle after) :
    Carries before after := by
  refine ⟨Nat.le_trans first.ids second.ids, fun flow tracked pending found paused => ?_⟩
  obtain ⟨later, held, there, holds, target, transport, same⟩ :=
    second.pendings flow tracked pending found paused
  obtain ⟨earlier, start, here, starts, target', transport', same'⟩ :=
    first.pendings flow later held there holds
  exact ⟨earlier, start, here, starts, target'.trans target, transport'.trans transport,
    ⟨same.pause.trans same'.pause, same.ticket.trans same'.ticket, same.bytes.trans same'.bytes⟩⟩

theorem Carries.removeFlow : Carries shaper (shaper.removeFlow flow) := by
  refine ⟨Nat.le_refl _, fun other tracked pending found paused => ?_⟩
  unfold FlowShaper.removeFlow at found
  replace found := (of_get?_erase found).2
  exact ⟨tracked, pending, found, paused, rfl, rfl, ⟨rfl, rfl, rfl⟩⟩

/-- A flow's record changes; its pause, if it still has one, was there. -/
theorem Carries.setFlow {next : Flow}
    (carried : ∀ pending, next.pending = some pending → Carried shaper flow next pending) :
    Carries shaper (shaper.setFlow flow next) := by
  refine ⟨Nat.le_refl _, fun other tracked pending found paused => ?_⟩
  unfold FlowShaper.setFlow at found
  rcases of_get?_put found with ⟨rfl, rfl⟩ | ⟨_, found⟩
  · exact carried pending paused
  · exact ⟨tracked, pending, found, paused, rfl, rfl, ⟨rfl, rfl, rfl⟩⟩

theorem Carries.increment (target : NetworkRuleTarget) (counter : Counter) (amount : Nat) :
    Carries shaper (shaper.increment target counter amount) :=
  Carries.of_flows (Nat.le_of_eq (increment_pauseID _ _).symm) (increment_flows _ _)

theorem Carries.dropFlow (target : NetworkRuleTarget) :
    Carries shaper (shaper.dropFlow flow target) :=
  (Carries.increment target .overBudgetDrops 1).trans Carries.removeFlow

theorem Carries.ensureTimeline : Carries shaper (ensureTimeline shaper source rule).1 :=
  Carries.of_flows (Nat.le_of_eq ensureTimeline_pauseID.symm) ensureTimeline_flows

/-- A pause that is set after steps that carry the others. -/
theorem Pauses.setFlow {next : Flow} {fresh : Pending} (others : ∀ other, other ≠ flow →
      ∀ tracked pending, get? middle.flows other = some tracked → tracked.pending = some pending →
      Carried before other tracked pending)
    (ids : middle.pauseID = before.pauseID + 1)
    (token : fresh.pause.flow = flow ∧ fresh.pause.id = middle.pauseID)
    (paused : next.pending = some fresh) (own : next.target = target)
    (carrier : next.transport = transport) :
    Pauses flow target transport fresh before (middle.setFlow flow next) := by
  refine ⟨ids, token, ⟨next, get?_put_self _ _ _, paused, own, carrier⟩, ?_⟩
  intro other found pending apart there holds
  unfold FlowShaper.setFlow at there
  rw [get?_put_of_ne _ apart.symm] at there
  exact others other apart found pending there holds

end Carrying

section Tokens

/-- Outstanding pauses name their flow and have ids of their own. -/
structure Tokens (shaper : FlowShaper) : Prop where
  owned : ∀ flow tracked pending, get? shaper.flows flow = some tracked →
    tracked.pending = some pending →
    pending.pause.flow = flow ∧ pending.pause.id ≤ shaper.pauseID
  distinct : ∀ flow other tracked held pending waiting, get? shaper.flows flow = some tracked →
    tracked.pending = some pending → get? shaper.flows other = some held →
    held.pending = some waiting → pending.pause.id = waiting.pause.id → flow = other

theorem Tokens.start : Tokens {} := by
  refine ⟨?_, ?_⟩
  · intro flow tracked pending found
    cases found
  · intro flow other tracked held pending waiting found
    cases found

theorem Tokens.carries (tokens : Tokens before) (carries : Carries before after) :
    Tokens after := by
  refine ⟨?_, ?_⟩
  · intro flow tracked pending found paused
    obtain ⟨earlier, held, there, holds, _, _, same⟩ :=
      carries.pendings flow tracked pending found paused
    obtain ⟨own, bound⟩ := tokens.owned flow earlier held there holds
    rw [same.pause]
    exact ⟨own, Nat.le_trans bound carries.ids⟩
  · intro flow other tracked held pending waiting found paused here waits equal
    obtain ⟨first, one, there, holds, _, _, same⟩ :=
      carries.pendings flow tracked pending found paused
    obtain ⟨second, two, place, keeps, _, _, alike⟩ :=
      carries.pendings other held waiting here waits
    rw [same.pause, alike.pause] at equal
    exact tokens.distinct flow other first second one two there holds place keeps equal

theorem Tokens.pauses {fresh : Pending} (tokens : Tokens before)
    (pauses : Pauses flow target transport fresh before after) : Tokens after := by
  obtain ⟨own, stored, paused, _, _⟩ := pauses.own
  have older : ∀ other held waiting, other ≠ flow → get? after.flows other = some held →
      held.pending = some waiting →
      waiting.pause.flow = other ∧ waiting.pause.id ≤ before.pauseID := by
    intro other held waiting apart here waits
    obtain ⟨earlier, start, there, holds, _, _, same⟩ :=
      pauses.pendings other held waiting apart here waits
    rw [same.pause]
    exact tokens.owned other earlier start there holds
  have current : ∀ held waiting, get? after.flows flow = some held →
      held.pending = some waiting → waiting = fresh := by
    intro held waiting here waits
    rw [stored] at here
    cases here
    rw [paused] at waits
    exact (Option.some.inj waits).symm
  have ids := pauses.ids
  have token := pauses.token
  refine ⟨?_, ?_⟩
  · intro other held waiting here waits
    by_cases same : other = flow
    · subst same
      rw [current held waiting here waits]
      exact ⟨token.1, Nat.le_of_eq token.2⟩
    · have old := older other held waiting same here waits
      exact ⟨old.1, by omega⟩
  · intro first second held kept one two here waits there keeps equal
    by_cases isFirst : first = flow
    · by_cases isSecond : second = flow
      · rw [isFirst, isSecond]
      · subst isFirst
        rw [current held one here waits] at equal
        have old := older second kept two isSecond there keeps
        omega
    · by_cases isSecond : second = flow
      · subst isSecond
        rw [current kept two there keeps] at equal
        have old := older first held one isFirst here waits
        omega
      · obtain ⟨earlier, start, origin, holds, _, _, same⟩ :=
          pauses.pendings first held one isFirst here waits
        obtain ⟨other, begin', place, stays, _, _, alike⟩ :=
          pauses.pendings second kept two isSecond there keeps
        rw [same.pause, alike.pause] at equal
        exact tokens.distinct first second earlier other start begin' origin holds place stays equal

end Tokens

section Cases

/-- How far the reservations of a target have come. -/
def budget (shaper : FlowShaper) (target : NetworkRuleTarget) (direction : FlowDirection) : Nat :=
  ((get? shaper.timelines target).map fun timeline => timeline.next direction).getD 0

/-- The rule's timeline has been charged for `bytes` that start at `slot`. -/
def Charged (before after : FlowShaper) (rule : ShapingRule) (direction : FlowDirection)
    (bytes now slot : Nat) : Prop :=
  ∃ timeline, get? after.timelines rule.ticket.target = some timeline ∧
    (timeline.rule = rule ∨ ∃ earlier, get? before.timelines rule.ticket.target = some earlier ∧
      earlier.rule.ticket = rule.ticket ∧ timeline.rule = earlier.rule) ∧
    ∀ rate, timeline.rule.profile.rate direction = some rate →
      slot = max now (budget before rule.ticket.target direction) ∧
        timeline.next direction = add slot (duration bytes rate)

/-- The bytes that a call of `data` may grant. -/
structure Sized (bytes : Nat) (transport : FlowTransport) (rule : ShapingRule)
    (direction : FlowDirection) (offered : Nat) : Prop where
  offered : bytes ≤ offered
  quantum : transport = .stream → (rule.profile.rate direction).isSome = true →
    bytes ≤ rule.profile.quantum direction

/-- `data` pauses the flow until the release of the slot it has taken. -/
structure Paused (before after : FlowShaper) (flow : String) (transport : FlowTransport)
    (rule : ShapingRule) (direction : FlowDirection) (offered now : Nat) (fresh : Pending)
    (slot : Nat) : Prop where
  pauses : Pauses flow rule.ticket.target transport fresh before after
  phase : fresh.pause.phase = .data direction
  ticket : fresh.ticket = rule.ticket
  sized : Sized fresh.bytes transport rule direction offered
  charged : Charged before after rule direction fresh.bytes now slot
  before : slot ≤ fresh.pause.resumeAtNanoseconds
  hold : fresh.pause.resumeAtNanoseconds ≤ slot + rule.profile.delayNanoseconds direction
  room : (rule.profile.rate direction).isSome = true → slot ≠ timeMax

/-- A grant of the flow under the rule. -/
structure Granted (grant : Grant) (flow : String) (transport : FlowTransport)
    (rule : ShapingRule) (direction : FlowDirection) (now : Nat) : Prop where
  time : grant.time = now
  flow : grant.flow = flow
  transport : grant.transport = transport
  rule : grant.rule = rule
  direction : grant.direction = direction

theorem grant_sized (offered : Nat) (transport : FlowTransport) (rule : ShapingRule)
    (direction : FlowDirection) :
    Sized (grant offered transport rule.profile direction) transport rule direction offered := by
  unfold grant
  refine ⟨?_, ?_⟩
  · split
    · exact Nat.min_le_left _ _
    · exact Nat.le_refl _
  · intro stream limited
    rw [stream, limited, if_pos (by decide)]
    exact Nat.min_le_right _ _

theorem grant_pos {offered : Nat} (positive : 0 < offered) (transport : FlowTransport)
    (profile : ShapingProfile) (direction : FlowDirection) :
    0 < grant offered transport profile direction := by
  unfold grant
  split
  · unfold ShapingProfile.quantum
    split <;> omega
  · exact positive

theorem burstHold_le (tracked : Flow) (profile : ShapingProfile) (direction : FlowDirection)
    (now : Nat) : burstHold tracked profile direction now ≤ profile.delayNanoseconds direction := by
  unfold burstHold
  split
  · exact Nat.le_refl _
  · split
    · exact Nat.le_refl _
    · exact Nat.zero_le _

variable {ensured : FlowShaper}

theorem chargeSlot_charged {target : NetworkRuleTarget} (named : rule.ticket.target = target)
    {timeline : Timeline} (found : get? ensured.timelines target = some timeline)
    (ruled : timeline.rule = rule ∨ ∃ earlier, get? before.timelines target = some earlier ∧
      earlier.rule.ticket = rule.ticket ∧ timeline.rule = earlier.rule)
    (budgets : timeline.next direction = budget before target direction) (hold : Nat) :
    Charged before (chargeSlot ensured bytes target direction hold now) rule direction bytes now
      (slotStart ensured target direction now) := by
  subst named
  have charged : ∀ rate, timeline.rule.profile.rate direction = some rate →
      slotStart ensured rule.ticket.target direction now =
        max now (budget before rule.ticket.target direction) := by
    intro rate limited
    unfold slotStart
    rw [found]
    dsimp only
    rw [limited, budgets]
    rfl
  have next : ∃ last, get? (charge ensured bytes rule.ticket.target direction now).timelines
        rule.ticket.target = some last ∧ last.rule = timeline.rule ∧
      ∀ rate, timeline.rule.profile.rate direction = some rate →
        last.next direction = add (slotStart ensured rule.ticket.target direction now)
          (duration bytes rate) := by
    refine ⟨_, by rw [get?_charge, found]; rfl, ?_, ?_⟩
    · dsimp only
      rw [if_pos rfl]
      split
      · exact Timeline.rule_setNext _ _ _
      · rfl
    · intro rate limited
      dsimp only
      rw [if_pos rfl, limited, charged rate limited]
      dsimp only
      rw [Timeline.next_setNext, if_pos rfl, budgets]
  obtain ⟨last, there, same, further⟩ := next
  have whole : ∃ final, get? (chargeSlot ensured bytes rule.ticket.target direction hold
        now).timelines rule.ticket.target = some final ∧ final.rule = last.rule ∧
      final.next direction = last.next direction := by
    unfold chargeSlot
    dsimp only
    split
    · refine ⟨_, by rw [get?_increment, there]; rfl, ?_, ?_⟩
      · dsimp only
        rw [if_pos rfl]
      · dsimp only
        rw [if_pos rfl]
        exact Timeline.next_counters _ _ _
    · exact ⟨last, there, rfl, rfl⟩
  obtain ⟨final, here, equal, level⟩ := whole
  refine ⟨final, here, ?_, ?_⟩
  · rw [equal, same]
    exact ruled
  · intro rate limited
    rw [equal, same] at limited
    exact ⟨charged rate limited, level.trans (further rate limited)⟩

/-- What `data` does to the pauses, and what its verdict grants: nothing, a debt, a new pause, or
bytes that pass at once in their own slot. -/
inductive DataCase (before after : FlowShaper) (flow : String) (transport : FlowTransport)
    (rule : ShapingRule) (direction : FlowDirection) (offered now : Nat) (decision : DataDecision) :
    Option Grant → Prop where
  | quiet (carries : Carries before after) (silent : decision.passed = 0) :
      DataCase before after flow transport rule direction offered now decision none
  | debt (grant : Grant) (carries : Carries before after) (owed : grant.debt = true)
      (granted : Granted grant flow transport rule direction now)
      (passed : decision.passed = grant.bytes)
      (sized : Sized grant.bytes transport rule direction offered) :
      DataCase before after flow transport rule direction offered now decision (some grant)
  | pause (fresh : Pending) (slot : Nat) (told : decision = .pause fresh.pause)
      (paused : Paused before after flow transport rule direction offered now fresh slot) :
      DataCase before after flow transport rule direction offered now decision none
  | pass (grant : Grant) (carries : Carries before after) (paid : grant.debt = false)
      (granted : Granted grant flow transport rule direction now)
      (passed : decision.passed = grant.bytes)
      (sized : Sized grant.bytes transport rule direction offered)
      (charged : Charged before after rule direction grant.bytes now now)
      (room : (rule.profile.rate direction).isSome = true → now ≠ timeMax) :
      DataCase before after flow transport rule direction offered now decision (some grant)

theorem record_pending (tracked : Flow) (direction : FlowDirection) (now : Nat) :
    (tracked.record direction now).pending = tracked.pending ∧
      (tracked.record direction now).target = tracked.target ∧
      (tracked.record direction now).transport = tracked.transport := by
  cases direction <;> exact ⟨rfl, rfl, rfl⟩

theorem now_le_slotStart (shaper : FlowShaper) (target : NetworkRuleTarget)
    (direction : FlowDirection) (now : Nat) : now ≤ slotStart shaper target direction now := by
  unfold slotStart
  split
  · split
    · exact Nat.le_max_left _ _
    · exact Nat.le_refl _
  · exact Nat.le_refl _

theorem reserveData_case {offered : Nat} {timeline : Timeline}
    (flows : ensured.flows = before.flows) (ids : ensured.pauseID = before.pauseID)
    (named : rule.ticket.target = tracked.target)
    (found : get? ensured.timelines tracked.target = some timeline) (ruled : timeline.rule = rule ∨
      ∃ earlier, get? before.timelines tracked.target = some earlier ∧
        earlier.rule.ticket = rule.ticket ∧ timeline.rule = earlier.rule)
    (budgets : timeline.next direction = budget before tracked.target direction)
    (unpaused : tracked.pending = none)
    (sized : Sized bytes tracked.transport rule direction offered)
    (grants : ∀ peek, dataGrant before flow direction source now (.pass bytes peek) =
      some { time := now, flow := flow, transport := tracked.transport, rule := rule,
             direction := direction, bytes := bytes, debt := tracked.pending.isSome }) :
    DataCase before (reserveData ensured flow direction bytes tracked rule now).1 flow
      tracked.transport rule direction offered now
      (reserveData ensured flow direction bytes tracked rule now).2
      (dataGrant before flow direction source now
        (reserveData ensured flow direction bytes tracked rule now).2) := by
  have same : Carries before ensured := Carries.of_flows (Nat.le_of_eq ids.symm) flows
  have bound := burstHold_le tracked rule.profile direction now
  obtain ⟨record, target, transport⟩ := record_pending tracked direction now
  rcases reserveData_cases ensured flow direction bytes tracked rule now with
    dropped | ⟨reservable, later, paused, token, made, equal⟩ | ⟨reservable, due, equal⟩
  · rw [dropped]
    exact .quiet (same.trans (Carries.dropFlow _)) rfl
  · rw [equal]
    obtain ⟨kept, built⟩ := makePause_eq made
    have held : get? paused.timelines tracked.target = some timeline := by rw [kept]; exact found
    have slot : slotStart paused tracked.target direction now =
        slotStart ensured tracked.target direction now := by rw [kept]; rfl
    have charged : Charged before _ rule direction bytes now _ :=
      chargeSlot_charged named held ruled budgets (burstHold tracked rule.profile direction now)
    rw [slot] at charged
    have started := now_le_slotStart ensured tracked.target direction now
    have whole : add now (burstHold tracked rule.profile direction now) ≤
        now + burstHold tracked rule.profile direction now := Nat.min_le_left _ _
    have deadline : token.resumeAtNanoseconds = releaseOf ensured tracked rule direction now := by
      rw [built]
    refine .pause ⟨token, rule.ticket, bytes, false⟩
      (slotStart ensured tracked.target direction now) rfl ⟨?_, by rw [built], rfl, sized, charged,
        ?_, ?_, reservable.slot⟩
    · apply Pauses.setFlow
      · intro other _ held' pending there holds
        rw [chargeSlot_flows, kept] at there
        exact same.pendings other held' pending there holds
      · rw [chargeSlot_pauseID, kept, ← ids]
      · rw [chargeSlot_pauseID, built, kept]
        exact ⟨rfl, rfl⟩
      · rfl
      · exact target.trans named.symm
      · exact transport
    · show _ ≤ token.resumeAtNanoseconds
      rw [deadline]
      exact Nat.le_max_right _ _
    · show token.resumeAtNanoseconds ≤ _
      rw [deadline]
      unfold releaseOf
      omega
  · rw [equal]
    have started := now_le_slotStart ensured tracked.target direction now
    have slot : slotStart ensured tracked.target direction now = now := by
      unfold releaseOf at due
      omega
    have charged : Charged before _ rule direction bytes now _ :=
      chargeSlot_charged named found ruled budgets (burstHold tracked rule.profile direction now)
    rw [slot] at charged
    have released : Charged before (countRelease (chargeSlot ensured bytes tracked.target direction
        (burstHold tracked rule.profile direction now) now) bytes tracked.target direction) rule
        direction bytes now now := by
      obtain ⟨last, there, origin, further⟩ := charged
      refine ⟨_, by rw [countRelease, get?_increment, there]; rfl, ?_, ?_⟩
      · dsimp only
        split <;> exact origin
      · intro rate limited
        dsimp only at limited ⊢
        split at limited
        next own =>
          rw [if_pos own, Timeline.next_counters]
          exact further rate limited
        next other =>
          rw [if_neg other]
          exact further rate limited
    dsimp only
    rw [grants, unpaused]
    refine .pass _ ?_ rfl ⟨rfl, rfl, rfl, rfl, rfl⟩ rfl sized released ?_
    · apply same.trans
      have flat : Carries ensured (countRelease (chargeSlot ensured bytes tracked.target direction
          (burstHold tracked rule.profile direction now) now) bytes tracked.target direction) :=
        Carries.of_flows (Nat.le_of_eq (by simp [countRelease])) (by simp [countRelease])
      apply flat.trans
      apply Carries.setFlow
      intro pending paused
      rw [record, unpaused] at paused
      cases paused
    · intro limited
      rw [← slot]
      exact reservable.slot limited

/-- The timeline of a rule that has been ensured, seen from before. -/
theorem ensured_timeline (named : rule.ticket.target = tracked.target)
    (same : ensureTimeline before source rule = (ensured, true)) :
    ∃ timeline, get? ensured.timelines tracked.target = some timeline ∧
      (timeline.rule = rule ∨ ∃ earlier, get? before.timelines tracked.target = some earlier ∧
        earlier.rule.ticket = rule.ticket ∧ timeline.rule = earlier.rule) ∧
      ∀ direction, timeline.next direction = budget before tracked.target direction := by
  rw [← named]
  have there : (ensureTimeline before source rule).2 = true := by rw [same]
  obtain ⟨timeline, found, ruled, budgets⟩ := get?_ensureTimeline there
  rw [same] at found
  refine ⟨timeline, found, ?_, budgets⟩
  rcases ruled with fresh | ⟨earlier, held, ticket, equal⟩
  · exact Or.inl fresh
  · exact Or.inr ⟨earlier, held, ticket, by rw [equal]⟩

theorem filterData_case {availableBytes : Int} (flows : ensured.flows = before.flows)
    (ids : ensured.pauseID = before.pauseID) (found : get? before.flows flow = some tracked)
    (ruling : source.shapingRule tracked.target = some rule)
    (same : ensureTimeline before source rule = (ensured, true)) :
    DataCase before (filterData ensured flow direction availableBytes tracked rule now).1 flow
      tracked.transport rule direction availableBytes.toNat now
      (filterData ensured flow direction availableBytes tracked rule now).2
      (dataGrant before flow direction source now
        (filterData ensured flow direction availableBytes tracked rule now).2) := by
  have named := source.named tracked.target rule ruling
  have carries : Carries before ensured := Carries.of_flows (Nat.le_of_eq ids.symm) flows
  have called : Carries before
      (if tracked.pending.isSome = true then
        ensured.increment tracked.target .callbacksWhilePaused 1 else ensured) := by
    split
    · exact carries.trans (Carries.increment _ _ _)
    · exact carries
  -- A pause that the flow keeps was there before: the record is the same but for its activity.
  have kept : ∀ {middle : FlowShaper} {next : Flow}, Carries before middle →
      next.target = tracked.target → next.transport = tracked.transport →
      (∀ pending, next.pending = some pending →
        ∃ held, tracked.pending = some held ∧ SamePause held pending) →
      Carries before (middle.setFlow flow next) := by
    intro middle next through target transport pauses
    refine ⟨through.ids, fun other record pending there paused => ?_⟩
    unfold FlowShaper.setFlow at there
    rcases of_get?_put there with ⟨own, rfl⟩ | ⟨_, there⟩
    · obtain ⟨held, holds, alike⟩ := pauses pending paused
      rw [← own]
      exact ⟨tracked, held, found, holds, target.symm, transport.symm, alike⟩
    · exact through.pendings other record pending there paused
  obtain ⟨record, recordTarget, recordTransport⟩ :=
    record_pending { tracked with lastActive := now } direction now
  unfold filterData
  dsimp only
  split
  · refine .quiet (kept called rfl rfl ?_) rfl
    intro pending paused
    exact ⟨pending, paused, ⟨rfl, rfl, rfl⟩⟩
  next positive =>
    have sized := grant_sized availableBytes.toNat tracked.transport rule direction
    have grants : ∀ peek, dataGrant before flow direction source now
        (.pass (grant availableBytes.toNat tracked.transport rule.profile direction) peek) =
          some { time := now, flow := flow, transport := tracked.transport, rule := rule,
                 direction := direction, bytes := grant availableBytes.toNat tracked.transport
                   rule.profile direction, debt := tracked.pending.isSome } := by
      intro peek
      have offered : 0 < availableBytes.toNat := by omega
      have some := grant_pos offered tracked.transport rule.profile direction
      unfold dataGrant DataDecision.passed
      rw [if_neg (Nat.ne_of_gt some), passing_eq found ruling]
      cases tracked.pending <;> rfl
    split
    · exact .quiet (called.trans (Carries.dropFlow _)) rfl
    next =>
      split
      next pending paused =>
        split
        · exact .quiet (called.trans (Carries.dropFlow _)) rfl
        · dsimp only
          rw [grants]
          refine .debt _ ?_ (by rw [show tracked.pending = some pending from paused]; rfl)
            ⟨rfl, rfl, rfl, rfl, rfl⟩ rfl sized
          have charged : ∀ middle : FlowShaper, Carries middle (chargeDebt middle
              (grant availableBytes.toNat tracked.transport rule.profile direction) tracked.target
              direction now) :=
            fun middle => Carries.of_flows (Nat.le_of_eq (chargeDebt_pauseID _ _).symm)
              (chargeDebt_flows _ _)
          refine kept (called.trans (charged _)) recordTarget recordTransport ?_
          intro other holds
          cases holds
          exact ⟨pending, paused, ⟨rfl, rfl, rfl⟩⟩
      next unpaused =>
        obtain ⟨timeline, there, ruled, budgets⟩ := ensured_timeline named same
        have idle : ¬ tracked.pending.isSome = true := by
          rw [show tracked.pending = none from unpaused]
          decide
        rw [if_neg idle]
        exact reserveData_case flows ids named there ruled (budgets direction) unpaused sized grants

theorem data_case (shaper : FlowShaper) (flow : String) (direction : FlowDirection)
    (availableBytes : Int) (source : RuleSource) (now : Nat) :
    (Carries shaper (data shaper flow direction availableBytes source now).1 ∧
        (data shaper flow direction availableBytes source now).2.passed = 0) ∨
      ∃ tracked rule, get? shaper.flows flow = some tracked ∧
        source.shapingRule tracked.target = some rule ∧
        DataCase shaper (data shaper flow direction availableBytes source now).1 flow
          tracked.transport rule direction availableBytes.toNat now
          (data shaper flow direction availableBytes source now).2
          (dataGrant shaper flow direction source now
            (data shaper flow direction availableBytes source now).2) := by
  unfold data
  split
  · exact Or.inl ⟨Carries.of_flows (Nat.le_refl _) rfl, rfl⟩
  next tracked found =>
    split
    · exact Or.inl ⟨Carries.of_flows (Nat.le_refl _) rfl, rfl⟩
    next =>
      split
      next =>
        split
        · exact Or.inl ⟨Carries.removeFlow, rfl⟩
        · refine Or.inl ⟨Carries.setFlow ?_, rfl⟩
          intro pending paused
          exact ⟨tracked, pending, found, paused, rfl, rfl, ⟨rfl, rfl, rfl⟩⟩
      next rule ruling =>
        have ensured : Carries shaper (ensureTimeline shaper source rule).1 :=
          Carries.ensureTimeline
        have flows : (ensureTimeline shaper source rule).1.flows = shaper.flows :=
          ensureTimeline_flows
        have ids : (ensureTimeline shaper source rule).1.pauseID = shaper.pauseID :=
          ensureTimeline_pauseID
        split
        next refusing same =>
          rw [same] at ensured
          have refused : Carries refusing (countRefusal refusing rule) :=
            Carries.of_flows (Nat.le_refl _) rfl
          exact Or.inl ⟨(ensured.trans refused).trans Carries.removeFlow, rfl⟩
        next kept same =>
          rw [same] at flows ids
          exact Or.inr ⟨tracked, rule, found, ruling, filterData_case flows ids found ruling same⟩

/-- What `resume` does to the pauses, and what its verdict grants: nothing, a debt under a newer
rule, or the bytes of the pause at its deadline. -/
inductive ResumeCase (before after : FlowShaper) (pause : FlowPause) (source : RuleSource)
    (now : Nat) (outcome : ResumeOutcome) : Option Grant → Prop where
  | quiet (carries : Carries before after) (silent : outcome.passed = 0) :
      ResumeCase before after pause source now outcome none
  | debt (grant : Grant) (tracked : Flow) (pending : Pending) (rule : ShapingRule)
      (direction : FlowDirection) (found : get? before.flows pause.flow = some tracked)
      (paused : tracked.pending = some pending) (token : pending.pause = pause)
      (phase : pause.phase = .data direction)
      (ruling : source.shapingRule tracked.target = some rule)
      (carries : Carries before after) (owed : grant.debt = true)
      (granted : Granted grant pause.flow tracked.transport rule direction now)
      (passed : outcome.passed = grant.bytes)
      (sized : Sized grant.bytes tracked.transport rule direction pending.bytes) :
      ResumeCase before after pause source now outcome (some grant)
  | release (grant : Grant) (tracked : Flow) (pending : Pending) (rule : ShapingRule)
      (direction : FlowDirection) (found : get? before.flows pause.flow = some tracked)
      (paused : tracked.pending = some pending) (token : pending.pause = pause)
      (phase : pause.phase = .data direction)
      (ruling : source.shapingRule tracked.target = some rule)
      (ticket : rule.ticket = pending.ticket) (due : pause.resumeAtNanoseconds ≤ now)
      (carries : Carries before after)
      (unpaused : ∀ next, get? after.flows pause.flow = some next → next.pending = none)
      (paid : grant.debt = false)
      (granted : Granted grant pause.flow tracked.transport rule direction now)
      (passed : outcome.passed = grant.bytes) (bytes : grant.bytes = pending.bytes) :
      ResumeCase before after pause source now outcome (some grant)

theorem settlePause_case {pause : FlowPause} {pending : Pending} (carries : Carries before ensured)
    (found : get? before.flows pause.flow = some tracked) (paused : tracked.pending = some pending)
    (token : pending.pause = pause) (ruling : source.shapingRule tracked.target = some rule)
    (due : ¬ (rule.ticket = pending.ticket ∧ now < pause.resumeAtNanoseconds)) :
    ResumeCase before (settlePause ensured pause tracked pending rule now).1 pause source now
      (settlePause ensured pause tracked pending rule now).2
      (resumeGrant before pause source now
        (settlePause ensured pause tracked pending rule now).2) := by
  have cleared : ∀ {middle : FlowShaper} {next : Flow}, Carries before middle →
      next.pending = none → Carries before (middle.setFlow pause.flow next) := by
    intro middle next through empty
    apply through.trans
    apply Carries.setFlow
    intro other holds
    rw [empty] at holds
    cases holds
  cases phase : pause.phase with
  | newFlow =>
    have settled : settlePause ensured pause tracked pending rule now =
        (ensured.setFlow pause.flow { tracked with pending := none, lastActive := now },
          .settled (resumedFilter rule.profile)) := by
      unfold settlePause
      rw [phase]
    rw [settled, resumeGrant_silent (by simp [resumedFilter])]
    exact .quiet (cleared carries rfl) rfl
  | data direction =>
    obtain ⟨record, _, _⟩ :=
      record_pending { tracked with pending := none, lastActive := now } direction now
    have grants : ∀ bytes peek, resumeGrant before pause source now (.settled (.pass bytes peek)) =
        some { time := now, flow := pause.flow, transport := tracked.transport, rule := rule,
               direction := direction, bytes := bytes,
               debt := decide (rule.ticket ≠ pending.ticket) } := by
      intro bytes peek
      unfold resumeGrant
      rw [phase]
      exact (passing_eq found ruling).trans (by rw [paused]; rfl)
    unfold settlePause
    rw [phase]
    dsimp only
    rw [grants]
    by_cases same : rule.ticket = pending.ticket
    · have reached : pause.resumeAtNanoseconds ≤ now := Nat.not_lt.mp fun early => due ⟨same, early⟩
      refine .release _ tracked pending rule direction found paused token phase ruling same
        reached (cleared ?_ record) ?_ (by simp [same]) ⟨rfl, rfl, rfl, rfl, rfl⟩ rfl
        (by simp [same])
      · rw [if_pos same]
        exact carries.trans (Carries.increment _ _ _)
      · intro next there
        rw [if_pos same] at there
        unfold FlowShaper.setFlow at there
        dsimp only at there
        rw [get?_put_self] at there
        cases there
        exact record
    · refine .debt _ tracked pending rule direction found paused token phase ruling
        (cleared ?_ record) (by simp [same]) ⟨rfl, rfl, rfl, rfl, rfl⟩ rfl ?_
      · rw [if_neg same]
        have charged : Carries ensured (chargeDebt ensured
            (if rule.ticket = pending.ticket then pending.bytes
              else grant pending.bytes tracked.transport rule.profile direction)
            tracked.target direction now) :=
          Carries.of_flows (Nat.le_of_eq (chargeDebt_pauseID _ _).symm) (chargeDebt_flows _ _)
        exact carries.trans charged
      · dsimp only
        rw [if_neg same]
        exact grant_sized pending.bytes tracked.transport rule direction

theorem resume_case (shaper : FlowShaper) (pause : FlowPause) (source : RuleSource) (now : Nat) :
    ResumeCase shaper (resume shaper pause source now).1 pause source now
      (resume shaper pause source now).2
      (resumeGrant shaper pause source now (resume shaper pause source now).2) := by
  have quiet : ∀ {next : FlowShaper} {outcome : ResumeOutcome}, Carries shaper next →
      resumeGrant shaper pause source now outcome = none → outcome.passed = 0 →
      ResumeCase shaper next pause source now outcome
        (resumeGrant shaper pause source now outcome) := by
    intro next outcome carries none silent
    rw [none]
    exact .quiet carries silent
  have still : Carries shaper shaper := Carries.of_flows (Nat.le_refl _) rfl
  unfold resume
  split
  · exact quiet still (resumeGrant_silent nofun) rfl
  next tracked found =>
    split
    · exact quiet still (resumeGrant_silent nofun) rfl
    next pending paused =>
      split
      · exact quiet still (resumeGrant_silent nofun) rfl
      next token =>
        split
        · exact quiet Carries.removeFlow (resumeGrant_silent nofun) rfl
        next rule ruling =>
          split
          · exact quiet Carries.removeFlow (resumeGrant_silent nofun) rfl
          next =>
            split
            · exact quiet still (resumeGrant_silent nofun) rfl
            next due =>
              have ensured : Carries shaper (ensureTimeline shaper source rule).1 :=
                Carries.ensureTimeline
              split
              next refusing same =>
                rw [same] at ensured
                exact quiet (ensured.trans Carries.removeFlow) (resumeGrant_silent nofun) rfl
              next kept same =>
                rw [same] at ensured
                exact settlePause_case ensured found paused (Decidable.not_not.mp token) ruling due

/-- `newFlow` pauses no data. -/
theorem newFlow_case (shaper : FlowShaper) (flow : String) (target : NetworkRuleTarget)
    (transport : FlowTransport) (source : RuleSource) (now : Nat) :
    Carries shaper (newFlow shaper flow target transport source now).1 ∨
      ∃ fresh, fresh.pause.phase = .newFlow ∧ fresh.bytes = 0 ∧
        Pauses flow target transport fresh shaper
          (newFlow shaper flow target transport source now).1 := by
  have still : Carries shaper shaper := Carries.of_flows (Nat.le_refl _) rfl
  have admitted : ∀ kept : FlowShaper, ∀ rule, Carries shaper kept → kept.pauseID = shaper.pauseID →
      Carries shaper (admitFlow kept flow target transport rule now).1 ∨
        ∃ fresh, fresh.pause.phase = .newFlow ∧ fresh.bytes = 0 ∧
          Pauses flow target transport fresh shaper
            (admitFlow kept flow target transport rule now).1 := by
    intro kept rule through ids
    rcases admitFlow_cases kept flow target transport rule now with
      refused | ⟨paused, token, made, same⟩ | same
    · rw [refused]
      exact Or.inl (through.trans (Carries.increment _ _ _))
    · rw [same]
      obtain ⟨built, fresh⟩ := makePause_eq made
      refine Or.inr ⟨⟨token, rule.ticket, 0, false⟩, by rw [fresh], rfl, ?_⟩
      apply Pauses.setFlow
      · intro other _ held pending there holds
        rw [built] at there
        exact through.pendings other held pending there holds
      · rw [built, ← ids]
      · rw [fresh, built]
        exact ⟨rfl, rfl⟩
      · rfl
      · rfl
      · rfl
    · rw [same]
      refine Or.inl (through.trans (Carries.setFlow ?_))
      intro pending holds
      cases holds
  unfold newFlow
  split
  next =>
    split
    next tracked found =>
      split
      · exact Or.inl Carries.removeFlow
      · refine Or.inl (Carries.setFlow ?_)
        intro pending paused
        exact ⟨tracked, pending, found, paused, rfl, rfl, ⟨rfl, rfl, rfl⟩⟩
    next => exact Or.inl still
  next rule _ =>
    have ensured : Carries shaper (ensureTimeline shaper source rule).1 := Carries.ensureTimeline
    have ids : (ensureTimeline shaper source rule).1.pauseID = shaper.pauseID :=
      ensureTimeline_pauseID
    split
    next =>
      split
      · exact Or.inl still
      · split
        · exact Or.inl still
        · exact Or.inl still
    next =>
      split
      next refusing same =>
        rw [same] at ensured
        have refused : Carries refusing (countRefusal refusing rule) :=
          Carries.of_flows (Nat.le_refl _) rfl
        exact Or.inl (ensured.trans refused)
      next kept same =>
        rw [same] at ensured ids
        split
        · split
          · exact Or.inl (ensured.trans (Carries.increment _ _ _))
          next candidate _ => exact admitted _ rule (ensured.trans Carries.removeFlow) ids
        · exact admitted kept rule ensured ids

end Cases

end AutoMobile.FlowShaping
