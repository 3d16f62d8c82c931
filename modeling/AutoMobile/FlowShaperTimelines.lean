import AutoMobile.FlowShaper

/- What each call does to the timelines and to the flows of a target: its own, and the others'. -/
namespace AutoMobile.FlowShaping

open InsertionMap

section Durations

/-- `ceil(bytes * 1e9 / rate)`. -/
def spans (bytes rate : Nat) : Nat :=
  bytes * nanosecondsPerSecond / rate + if bytes * nanosecondsPerSecond % rate = 0 then 0 else 1

theorem le_spans (bytes rate : Nat) (positive : 0 < rate) :
    bytes * nanosecondsPerSecond ≤ rate * spans bytes rate := by
  unfold spans
  have division := Nat.div_add_mod (bytes * nanosecondsPerSecond) rate
  have small := Nat.mod_lt (bytes * nanosecondsPerSecond) positive
  split
  · rw [Nat.add_zero]
    omega
  · rw [Nat.mul_add, Nat.mul_one]
    omega

theorem duration_eq (bytes rate : Nat) (positive : 0 < rate) :
    duration bytes rate = min (spans bytes rate) timeMax := by
  unfold duration
  dsimp only
  split
  · rfl
  next large =>
    have reached : rate * 2 ^ 64 ≤ bytes * nanosecondsPerSecond :=
      (Nat.le_div_iff_mul_le (by decide)).mp (Nat.not_lt.mp large)
    have whole : 2 ^ 64 ≤ bytes * nanosecondsPerSecond / rate :=
      (Nat.le_div_iff_mul_le positive).mpr (by rw [Nat.mul_comm]; exact reached)
    have past : timeMax ≤ spans bytes rate := by
      unfold spans timeMax
      omega
    exact (Nat.min_eq_right past).symm

theorem add_le_timeMax (first second : Nat) : add first second ≤ timeMax := Nat.min_le_right _ _

end Durations

variable {shaper after : FlowShaper} {source : RuleSource} {rule : ShapingRule}
variable {target other : NetworkRuleTarget} {direction : FlowDirection}

section Timelines

@[simp] theorem Timeline.next_counters (timeline : Timeline) (counters : ShapingStatus)
    (direction : FlowDirection) :
    Timeline.next { timeline with counters := counters } direction = timeline.next direction := by
  cases direction <;> rfl

theorem Timeline.next_setNext (timeline : Timeline) (direction side : FlowDirection) (next : Nat) :
    (timeline.setNext direction next).next side =
      if side = direction then next else timeline.next side := by
  cases direction <;> cases side <;> rfl

@[simp] theorem Timeline.rule_setNext (timeline : Timeline) (direction : FlowDirection)
    (next : Nat) : (timeline.setNext direction next).rule = timeline.rule := by
  cases direction <;> rfl

theorem get?_increment (shaper : FlowShaper) (target other : NetworkRuleTarget)
    (counter : Counter) (amount : Nat) :
    get? (shaper.increment target counter amount).timelines other =
      (get? shaper.timelines other).map fun timeline =>
        if target = other then
          { timeline with counters := timeline.counters.count amount counter }
        else timeline := by
  unfold FlowShaper.increment
  split
  next timeline found =>
    rw [get?_put]
    split
    next same =>
      subst same
      simp [found]
    next => simp
  next missing =>
    by_cases same : target = other
    · subst same
      simp [missing]
    · simp [same]

theorem get?_charge (shaper : FlowShaper) (bytes : Nat) (target other : NetworkRuleTarget)
    (direction : FlowDirection) (now : Nat) :
    get? (charge shaper bytes target direction now).timelines other =
      (get? shaper.timelines other).map fun timeline =>
        if target = other then
          match timeline.rule.profile.rate direction with
          | some rate =>
            timeline.setNext direction
              (add (max now (timeline.next direction)) (duration bytes rate))
          | none => timeline
        else timeline := by
  unfold charge
  split
  next timeline found =>
    split
    next rate limited =>
      rw [get?_put]
      split
      next same =>
        subst same
        simp [found, limited, slotStart]
      next => simp
    next unlimited =>
      by_cases same : target = other
      · subst same
        simp [found, unlimited]
      · simp [same]
  next missing =>
    by_cases same : target = other
    · subst same
      simp [missing]
    · simp [same]

theorem get?_prune (shaper : FlowShaper) (source : RuleSource) (other : NetworkRuleTarget) :
    get? (pruneTimelines shaper source).timelines other =
      if (source.shapingRule other).isSome then get? shaper.timelines other else none :=
  get?_filterKeys shaper.timelines (fun target => (source.shapingRule target).isSome) other

end Timelines

section Frames

@[simp] theorem increment_flows (counter : Counter) (amount : Nat) :
    (shaper.increment target counter amount).flows = shaper.flows := by
  unfold FlowShaper.increment
  split <;> rfl

@[simp] theorem increment_pauseID (counter : Counter) (amount : Nat) :
    (shaper.increment target counter amount).pauseID = shaper.pauseID := by
  unfold FlowShaper.increment
  split <;> rfl

@[simp] theorem charge_flows (bytes now : Nat) :
    (charge shaper bytes target direction now).flows = shaper.flows := by
  unfold charge
  split
  · split <;> rfl
  · rfl

@[simp] theorem charge_pauseID (bytes now : Nat) :
    (charge shaper bytes target direction now).pauseID = shaper.pauseID := by
  unfold charge
  split
  · split <;> rfl
  · rfl

@[simp] theorem chargeDebt_flows (bytes now : Nat) :
    (chargeDebt shaper bytes target direction now).flows = shaper.flows := by
  simp [chargeDebt, countRelease]

@[simp] theorem chargeDebt_pauseID (bytes now : Nat) :
    (chargeDebt shaper bytes target direction now).pauseID = shaper.pauseID := by
  simp [chargeDebt, countRelease]

@[simp] theorem ensureTimeline_flows :
    (ensureTimeline shaper source rule).1.flows = shaper.flows := by
  unfold ensureTimeline
  dsimp only
  split
  · rfl
  · repeat' split
    all_goals rfl

@[simp] theorem ensureTimeline_pauseID :
    (ensureTimeline shaper source rule).1.pauseID = shaper.pauseID := by
  unfold ensureTimeline
  dsimp only
  split
  · rfl
  · repeat' split
    all_goals rfl

/-- A target that has a rule keeps its timeline, when the timeline of another rule is ensured. -/
theorem get?_ensureTimeline_of_ne (apart : rule.ticket.target ≠ other)
    (ruled : (source.shapingRule other).isSome = true) :
    get? (ensureTimeline shaper source rule).1.timelines other = get? shaper.timelines other := by
  unfold ensureTimeline
  dsimp only
  split
  · rfl
  · cases (get? shaper.timelines rule.ticket.target).isNone with
    | true =>
      rw [if_pos rfl]
      split
      · rw [get?_prune, if_pos ruled]
      · dsimp only
        rw [get?_put_of_ne _ apart, get?_prune, if_pos ruled]
    | false =>
      rw [if_neg (show ¬ (false && _) = true by simp)]
      dsimp only
      rw [get?_put_of_ne _ apart, if_neg Bool.false_ne_true]

/-- The rule's own timeline: it is there for the rule's ticket, with the budgets of before. -/
theorem get?_ensureTimeline (ensured : (ensureTimeline shaper source rule).2 = true) :
    ∃ timeline, get? (ensureTimeline shaper source rule).1.timelines rule.ticket.target =
        some timeline ∧
      (timeline.rule = rule ∨ ∃ before, get? shaper.timelines rule.ticket.target = some before ∧
        before.rule.ticket = rule.ticket ∧ timeline = before) ∧
      ∀ direction, timeline.next direction = ((get? shaper.timelines rule.ticket.target).map
          fun before => before.next direction).getD 0 := by
  unfold ensureTimeline at ensured ⊢
  dsimp only at ensured ⊢
  cases previous : get? shaper.timelines rule.ticket.target with
  | none =>
    simp only [previous, Option.any_none, Bool.false_eq_true, if_false, Option.isNone_none,
      if_true, Bool.true_and] at ensured ⊢
    split at ensured
    · cases ensured
    next room =>
      rw [if_neg room]
      refine ⟨_, get?_put_self _ _ _, Or.inl rfl, ?_⟩
      intro direction
      cases direction <;> rfl
  | some before =>
    by_cases same : before.rule.ticket = rule.ticket
    · simp only [previous, Option.any_some, same, decide_true, if_true]
      exact ⟨before, rfl, Or.inr ⟨before, rfl, same, rfl⟩, fun _ => rfl⟩
    · simp only [Option.any_some, same, decide_false, Bool.false_eq_true, if_false,
        Option.isNone_some, Bool.false_and, Option.map_some, Option.getD_some]
      refine ⟨_, get?_put_self _ _ _, Or.inl rfl, ?_⟩
      intro direction
      cases direction <;> rfl

theorem get?_of_ensureTimeline {timeline : Timeline} (apart : rule.ticket.target ≠ other)
    (found : get? (ensureTimeline shaper source rule).1.timelines other = some timeline) :
    get? shaper.timelines other = some timeline := by
  have pruned : get? (pruneTimelines shaper source).timelines other = some timeline →
      get? shaper.timelines other = some timeline := by
    intro there
    rw [get?_prune] at there
    split at there
    · exact there
    · cases there
  unfold ensureTimeline at found
  dsimp only at found
  split at found
  · exact found
  · cases missing : (get? shaper.timelines rule.ticket.target).isNone with
    | true =>
      rw [missing, if_pos rfl] at found
      split at found
      · exact pruned found
      · dsimp only at found
        rw [get?_put_of_ne _ apart] at found
        exact pruned found
    | false =>
      rw [missing, if_neg (show ¬ (false && _) = true by simp)] at found
      dsimp only at found
      rw [get?_put_of_ne _ apart, if_neg Bool.false_ne_true] at found
      exact found

/-- A timeline that cannot be ensured was not there, and is not. -/
theorem get?_ensureTimeline_refused (refused : (ensureTimeline shaper source rule).2 = false) :
    get? shaper.timelines rule.ticket.target = none ∧
      (ensureTimeline shaper source rule).1 = pruneTimelines shaper source := by
  unfold ensureTimeline at refused ⊢
  dsimp only at refused ⊢
  cases previous : get? shaper.timelines rule.ticket.target with
  | none =>
    simp only [previous, Option.any_none, Bool.false_eq_true, if_false, Option.isNone_none,
      if_true, Bool.true_and] at refused ⊢
    split at refused
    next full =>
      rw [if_pos full]
      exact ⟨trivial, rfl⟩
    · cases refused
  | some before =>
    by_cases same : before.rule.ticket = rule.ticket
    · simp [previous, same] at refused
    · simp [previous, same] at refused

@[simp] theorem chargeSlot_flows (bytes now hold : Nat) :
    (chargeSlot shaper bytes target direction hold now).flows = shaper.flows := by
  unfold chargeSlot
  dsimp only
  split
  · rw [increment_flows, charge_flows]
  · rw [charge_flows]

@[simp] theorem chargeSlot_pauseID (bytes now hold : Nat) :
    (chargeSlot shaper bytes target direction hold now).pauseID = shaper.pauseID := by
  unfold chargeSlot
  dsimp only
  split
  · rw [increment_pauseID, charge_pauseID]
  · rw [charge_pauseID]

end Frames

section Changes

/-- One of the changes that the calls of a flow are made of, under its target's rule. -/
inductive Changed (source : RuleSource) (target : NetworkRuleTarget) (flow : String)
    (before : FlowShaper) : FlowShaper → Prop where
  | increment (counter : Counter) (amount : Nat) :
    Changed source target flow before (before.increment target counter amount)
  | charge (bytes : Nat) (direction : FlowDirection) (now : Nat) :
    Changed source target flow before (charge before bytes target direction now)
  | ensure (rule : ShapingRule) (ruling : source.shapingRule target = some rule) :
    Changed source target flow before (ensureTimeline before source rule).1
  | refuse (rule : ShapingRule) : Changed source target flow before (countRefusal before rule)
  | token : Changed source target flow before { before with pauseID := before.pauseID + 1 }
  | unknown (count : Nat) :
    Changed source target flow before { before with unknownCallbacks := count }
  | setFlow (tracked : Flow) : Changed source target flow before (before.setFlow flow tracked)
  | removeFlow : Changed source target flow before (before.removeFlow flow)

/-- Any number of changes, one after another. -/
abbrev Changes (source : RuleSource) (target : NetworkRuleTarget) (flow : String) :
    FlowShaper → FlowShaper → Prop :=
  Relation.ReflTransGen (Changed source target flow)

variable {flow : String} {bytes now : Nat} {tracked : Flow}

theorem Changes.dropFlow : Changes source target flow shaper (shaper.dropFlow flow target) :=
  .tail (.single (.increment _ _)) .removeFlow

theorem Changes.chargeDebt :
    Changes source target flow shaper (chargeDebt shaper bytes target direction now) :=
  .tail (.tail (.single (.charge _ _ _)) (.increment _ _)) (.increment _ _)

theorem Changes.chargeSlot (hold : Nat) :
    Changes source target flow shaper (chargeSlot shaper bytes target direction hold now) := by
  unfold FlowShaping.chargeSlot
  dsimp only
  split
  · exact .tail (.single (.charge _ _ _)) (.increment _ _)
  · exact .single (.charge _ _ _)

theorem makePause_eq {flow : String} {phase : FlowPause.Phase} {release : Nat}
    {paused : FlowShaper} {token : FlowPause}
    (made : makePause shaper flow phase release = some (paused, token)) :
    paused = { shaper with pauseID := shaper.pauseID + 1 } ∧
      token = ⟨flow, shaper.pauseID + 1, release, phase⟩ := by
  unfold makePause at made
  split at made
  · cases made
    exact ⟨rfl, rfl⟩
  · cases made

/-- When the slot and the hold of a reservation end. -/
def releaseOf (shaper : FlowShaper) (tracked : Flow) (rule : ShapingRule)
    (direction : FlowDirection) (now : Nat) : Nat :=
  max (add now (burstHold tracked rule.profile direction now))
    (slotStart shaper tracked.target direction now)

/-- The slot may be taken: neither the hold nor the timeline runs out of time. -/
structure Reservable (shaper : FlowShaper) (tracked : Flow) (rule : ShapingRule)
    (direction : FlowDirection) (now : Nat) : Prop where
  hold : burstHold tracked rule.profile direction now ≤ timeMax - now
  slot : (rule.profile.rate direction).isSome = true →
    slotStart shaper tracked.target direction now ≠ timeMax

/-- What a reservation does: it drops the flow, pauses it until its release, or passes at once. -/
theorem reserveData_cases (shaper : FlowShaper) (flow : String) (direction : FlowDirection)
    (bytes : Nat) (tracked : Flow) (rule : ShapingRule) (now : Nat) :
    reserveData shaper flow direction bytes tracked rule now =
        (shaper.dropFlow flow tracked.target, .drop) ∨
      (Reservable shaper tracked rule direction now ∧
        now < releaseOf shaper tracked rule direction now ∧
        ∃ paused token, makePause shaper flow (.data direction)
            (releaseOf shaper tracked rule direction now) = some (paused, token) ∧
          reserveData shaper flow direction bytes tracked rule now =
            ((FlowShaping.chargeSlot paused bytes tracked.target direction
                (burstHold tracked rule.profile direction now) now).setFlow flow
              { tracked.record direction now with
                pending := some { pause := token, ticket := rule.ticket, bytes := bytes } },
              .pause token)) ∨
      (Reservable shaper tracked rule direction now ∧
        releaseOf shaper tracked rule direction now ≤ now ∧
        reserveData shaper flow direction bytes tracked rule now =
          ((countRelease (FlowShaping.chargeSlot shaper bytes tracked.target direction
              (burstHold tracked rule.profile direction now) now) bytes tracked.target
              direction).setFlow flow (tracked.record direction now),
            .pass bytes (rule.profile.quantum direction))) := by
  unfold reserveData
  dsimp only
  split
  · exact Or.inl rfl
  next allowed =>
    simp only [Bool.or_eq_true, Bool.and_eq_true, decide_eq_true_eq, not_or, not_and,
      Nat.not_lt] at allowed
    have reservable : Reservable shaper tracked rule direction now := ⟨allowed.1.1, allowed.1.2⟩
    split
    next later =>
      cases made : makePause shaper flow (.data direction)
          (max (add now (burstHold tracked rule.profile direction now))
            (slotStart shaper tracked.target direction now)) with
      | none => exact Or.inl rfl
      | some both => exact Or.inr (Or.inl ⟨reservable, later, both.1, both.2, made, rfl⟩)
    next due => exact Or.inr (Or.inr ⟨reservable, Nat.not_lt.mp due, rfl⟩)

theorem Changes.reserveData : Changes source tracked.target flow shaper
      (reserveData shaper flow direction bytes tracked rule now).1 := by
  rcases reserveData_cases shaper flow direction bytes tracked rule now with
    dropped | ⟨_, _, paused, token, made, same⟩ | ⟨_, _, same⟩
  · rw [dropped]
    exact Changes.dropFlow
  · rw [same, (makePause_eq made).1]
    exact .tail (.trans (.single .token) (Changes.chargeSlot _)) (.setFlow _)
  · rw [same]
    exact .tail (.tail (Changes.chargeSlot _) (.increment _ _)) (.setFlow _)

theorem Changes.filterData (availableBytes : Int) : Changes source tracked.target flow shaper
      (filterData shaper flow direction availableBytes tracked rule now).1 := by
  unfold FlowShaping.filterData
  dsimp only
  have called : Changes source tracked.target flow shaper
      (if tracked.pending.isSome = true then
        shaper.increment tracked.target .callbacksWhilePaused 1 else shaper) := by
    split
    · exact .single (.increment _ _)
    · exact .refl
  split
  · exact called.tail (.setFlow _)
  next =>
    split
    · exact called.trans Changes.dropFlow
    next =>
      split
      next pending _ =>
        split
        · exact called.trans Changes.dropFlow
        · exact (called.trans Changes.chargeDebt).tail (.setFlow _)
      next => exact called.trans Changes.reserveData

/-- The flow is not tracked for another target. -/
def FlowShaper.only (shaper : FlowShaper) (flow : String) (target : NetworkRuleTarget) : Prop :=
  ∀ tracked, get? shaper.flows flow = some tracked → tracked.target = target

theorem exists_only (shaper : FlowShaper) (flow : String) : ∃ target, shaper.only flow target := by
  unfold FlowShaper.only
  cases get? shaper.flows flow with
  | none => exact ⟨⟨⟨"", ""⟩, ""⟩, by simp⟩
  | some tracked => exact ⟨tracked.target, by simp⟩

theorem Changes.data (own : shaper.only flow target) (availableBytes : Int) :
    Changes source target flow shaper
      (data shaper flow direction availableBytes source now).1 := by
  unfold FlowShaping.data
  split
  · exact .single (.unknown _)
  next tracked found =>
    obtain rfl := own tracked found
    split
    · exact .refl
    next =>
      split
      next =>
        split
        · exact .single .removeFlow
        · exact .single (.setFlow _)
      next rule ruling =>
        have ensured : Changes source _ flow shaper _ := .single (.ensure rule ruling)
        split
        next refusing same =>
          rw [same] at ensured
          exact (ensured.tail (.refuse _)).tail .removeFlow
        next kept same =>
          rw [same] at ensured
          exact ensured.trans (Changes.filterData availableBytes)

theorem Changes.settlePause {pause : FlowPause} {pending : Pending} :
    Changes source tracked.target pause.flow shaper
      (settlePause shaper pause tracked pending rule now).1 := by
  unfold FlowShaping.settlePause
  dsimp only
  split
  · exact .single (.setFlow _)
  next direction _ =>
    split
    · exact .tail (.single (.increment _ _)) (.setFlow _)
    · exact Changes.chargeDebt.tail (.setFlow _)

theorem Changes.resume {pause : FlowPause} (own : shaper.only pause.flow target) :
    Changes source target pause.flow shaper (resume shaper pause source now).1 := by
  unfold FlowShaping.resume
  split
  · exact .refl
  next tracked found =>
    obtain rfl := own tracked found
    split
    · exact .refl
    next pending _ =>
      split
      · exact .refl
      next =>
        split
        · exact .single .removeFlow
        next rule ruling =>
          have ensured : Changes source _ pause.flow shaper _ := .single (.ensure rule ruling)
          split
          · exact .single .removeFlow
          next =>
            split
            · exact .refl
            next =>
              split
              next refusing same =>
                rw [same] at ensured
                exact ensured.tail .removeFlow
              next kept same =>
                rw [same] at ensured
                exact ensured.trans Changes.settlePause

/-- Admission refuses the flow, pauses it while its connection is held, or filters it. -/
theorem admitFlow_cases (shaper : FlowShaper) (flow : String) (target : NetworkRuleTarget)
    (transport : FlowTransport) (rule : ShapingRule) (now : Nat) :
    admitFlow shaper flow target transport rule now =
        (shaper.increment target .overBudgetDrops 1, .drop) ∨
      (∃ paused token, makePause shaper flow .newFlow
          (now + establishmentHold transport rule.profile) = some (paused, token) ∧
        admitFlow shaper flow target transport rule now = (paused.setFlow flow
            { target := target, transport := transport, lastActive := now,
              pending := some { pause := token, ticket := rule.ticket, bytes := 0 } },
            .pause token)) ∨
      admitFlow shaper flow target transport rule now =
        (shaper.setFlow flow { target := target, transport := transport, lastActive := now },
          newFilter rule.profile) := by
  unfold admitFlow
  dsimp only
  split
  · split
    · cases made : makePause shaper flow .newFlow
          (now + establishmentHold transport rule.profile) with
      | none => exact Or.inl rfl
      | some both => exact Or.inr (Or.inl ⟨both.1, both.2, rfl, rfl⟩)
    · exact Or.inl rfl
  · exact Or.inr (Or.inr rfl)

theorem Changes.admitFlow {transport : FlowTransport} :
    Changes source target flow shaper (admitFlow shaper flow target transport rule now).1 := by
  rcases admitFlow_cases shaper flow target transport rule now with
    refused | ⟨paused, token, made, same⟩ | same
  · rw [refused]
    exact .single (.increment _ _)
  · rw [same, (makePause_eq made).1]
    exact .tail (.single .token) (.setFlow _)
  · rw [same]
    exact .single (.setFlow _)

/-- `newFlow` changes its own flow, after it has forgotten an idle one at the flow limit. -/
theorem newFlow_changes (shaper : FlowShaper) (flow : String) (target : NetworkRuleTarget)
    (transport : FlowTransport) (source : RuleSource) (now : Nat) :
    Changes source target flow shaper (newFlow shaper flow target transport source now).1 ∨
      ∃ kept candidate, Changes source target flow shaper kept ∧ kept.flows = shaper.flows ∧
        maximumFlows ≤ kept.flows.length ∧ evictionCandidate kept now = some candidate ∧
        Changes source target flow (kept.removeFlow candidate.1)
          (newFlow shaper flow target transport source now).1 := by
  unfold newFlow
  split
  next =>
    left
    split
    · split
      · exact .single .removeFlow
      · exact .single (.setFlow _)
    · exact .refl
  next rule ruling =>
    have ensured : Changes source target flow shaper _ := .single (.ensure rule ruling)
    have flows : (ensureTimeline shaper source rule).1.flows = shaper.flows := ensureTimeline_flows
    split
    next =>
      left
      split
      · exact .refl
      · split <;> exact .refl
    next =>
      split
      next refusing same =>
        rw [same] at ensured
        exact Or.inl (ensured.tail (.refuse _))
      next kept same =>
        rw [same] at ensured flows
        split
        next full =>
          split
          · exact Or.inl (ensured.tail (.increment _ _))
          next candidate chosen =>
            exact Or.inr ⟨kept, candidate, ensured, flows, full, chosen, Changes.admitFlow⟩
        · exact Or.inl (ensured.trans Changes.admitFlow)

end Changes

section Acts

/-- Every reservation timeline stays within 64 bits. -/
def Capped (shaper : FlowShaper) : Prop :=
  ∀ target timeline, get? shaper.timelines target = some timeline →
    ∀ direction, timeline.next direction ≤ timeMax

/-- What a call about `target` does to the timelines: a target with a rule keeps its timeline, and
no reservation timeline moves backwards; those of other targets stay as they are. -/
structure Acts (source : RuleSource) (target : NetworkRuleTarget) (before after : FlowShaper) :
    Prop where
  capped : Capped before → Capped after
  later : Capped before → ∀ other, (source.shapingRule other).isSome = true →
    ∀ timeline, get? before.timelines other = some timeline →
      ∃ next, get? after.timelines other = some next ∧
        ∀ direction, timeline.next direction ≤ next.next direction
  ruled : ∀ other next, get? after.timelines other = some next →
    source.shapingRule other = some next.rule ∨
      ∃ timeline, get? before.timelines other = some timeline ∧ next.rule = timeline.rule
  others : ∀ other, other ≠ target → (source.shapingRule other).isSome = true →
    get? after.timelines other = get? before.timelines other

variable {before middle : FlowShaper}

theorem Acts.of_timelines (same : after.timelines = before.timelines) :
    Acts source target before after := by
  refine ⟨?_, ?_, ?_, ?_⟩
  · intro capped other timeline found
    rw [same] at found
    exact capped other timeline found
  · intro _ other _ timeline found
    rw [same]
    exact ⟨timeline, found, fun _ => Nat.le_refl _⟩
  · intro other next found
    rw [same] at found
    exact Or.inr ⟨next, found, rfl⟩
  · intro other _ _
    rw [same]

theorem Acts.trans (first : Acts source target before middle)
    (second : Acts source target middle after) : Acts source target before after := by
  refine ⟨fun capped => second.capped (first.capped capped), ?_, ?_, ?_⟩
  · intro capped other ruled timeline found
    obtain ⟨next, there, further⟩ := first.later capped other ruled timeline found
    obtain ⟨last, here, beyond⟩ := second.later (first.capped capped) other ruled next there
    exact ⟨last, here, fun direction => Nat.le_trans (further direction) (beyond direction)⟩
  · intro other next found
    rcases second.ruled other next found with own | ⟨timeline, there, same⟩
    · exact Or.inl own
    · rcases first.ruled other timeline there with own | ⟨earlier, here, equal⟩
      · exact Or.inl (by rw [same]; exact own)
      · exact Or.inr ⟨earlier, here, same.trans equal⟩
  · intro other apart ruled
    rw [second.others other apart ruled, first.others other apart ruled]

theorem Acts.increment (counter : Counter) (amount : Nat) :
    Acts source target shaper (shaper.increment target counter amount) := by
  refine ⟨?_, ?_, ?_, ?_⟩
  · intro capped other next found direction
    rw [get?_increment] at found
    obtain ⟨timeline, there, same⟩ := Option.map_eq_some_iff.mp found
    have bound := capped other timeline there direction
    rw [← same]
    split
    · rw [Timeline.next_counters]
      exact bound
    · exact bound
  · intro _ other _ timeline found
    rw [get?_increment, found]
    refine ⟨_, rfl, fun direction => ?_⟩
    dsimp only
    split
    · exact Nat.le_of_eq (Timeline.next_counters _ _ _).symm
    · exact Nat.le_refl _
  · intro other next found
    rw [get?_increment] at found
    obtain ⟨timeline, there, same⟩ := Option.map_eq_some_iff.mp found
    refine Or.inr ⟨timeline, there, ?_⟩
    rw [← same]
    split <;> rfl
  · intro other apart _
    rw [get?_increment]
    simp [apart.symm]

theorem Acts.charge (bytes : Nat) (direction : FlowDirection) (now : Nat) :
    Acts source target shaper (charge shaper bytes target direction now) := by
  have grown : ∀ (timeline : Timeline) (side : FlowDirection) (rate : Nat),
      timeline.next side ≤ timeMax → timeline.next side ≤ (timeline.setNext direction
          (add (max now (timeline.next direction)) (duration bytes rate))).next side := by
    intro timeline side rate bound
    rw [Timeline.next_setNext]
    split
    next same =>
      subst same
      unfold add
      omega
    next => exact Nat.le_refl _
  refine ⟨?_, ?_, ?_, ?_⟩
  · intro capped other next found side
    rw [get?_charge] at found
    obtain ⟨timeline, there, same⟩ := Option.map_eq_some_iff.mp found
    have bound := capped other timeline there side
    rw [← same]
    split
    · split
      · rw [Timeline.next_setNext]
        split
        · exact add_le_timeMax _ _
        · exact bound
      · exact bound
    · exact bound
  · intro capped other _ timeline found
    rw [get?_charge, found]
    refine ⟨_, rfl, fun side => ?_⟩
    have bound := capped other timeline found side
    dsimp only
    split
    · split
      · exact grown timeline side _ bound
      · exact Nat.le_refl _
    · exact Nat.le_refl _
  · intro other next found
    rw [get?_charge] at found
    obtain ⟨timeline, there, same⟩ := Option.map_eq_some_iff.mp found
    refine Or.inr ⟨timeline, there, ?_⟩
    rw [← same]
    split
    · split
      · rw [Timeline.rule_setNext]
      · rfl
    · rfl
  · intro other apart _
    rw [get?_charge]
    simp [apart.symm]

theorem Acts.prune : Acts source target shaper (pruneTimelines shaper source) := by
  refine ⟨?_, ?_, ?_, ?_⟩
  · intro capped other timeline found
    rw [get?_prune] at found
    split at found
    · exact capped other timeline found
    · cases found
  · intro _ other ruled timeline found
    rw [get?_prune, if_pos ruled]
    exact ⟨timeline, found, fun _ => Nat.le_refl _⟩
  · intro other next found
    rw [get?_prune] at found
    split at found
    · exact Or.inr ⟨next, found, rfl⟩
    · cases found
  · intro other _ ruled
    rw [get?_prune, if_pos ruled]

theorem Acts.ensureTimeline (ruling : source.shapingRule target = some rule) :
    Acts source target shaper (ensureTimeline shaper source rule).1 := by
  obtain rfl := source.named target rule ruling
  cases ensured : (FlowShaping.ensureTimeline shaper source rule).2 with
  | false =>
    rw [(get?_ensureTimeline_refused ensured).2]
    exact Acts.prune
  | true =>
    obtain ⟨next, found, ruled, budgets⟩ := get?_ensureTimeline ensured
    have target_ne : ∀ {other}, other ≠ rule.ticket.target → rule.ticket.target ≠ other :=
      fun apart same => apart same.symm
    refine ⟨?_, ?_, ?_, ?_⟩
    · intro capped other timeline here direction
      by_cases own : other = rule.ticket.target
      · subst own
        rw [found] at here
        cases here
        rw [budgets]
        cases previous : get? shaper.timelines rule.ticket.target with
        | none => exact Nat.zero_le _
        | some before => exact capped _ before previous direction
      · exact capped other timeline (get?_of_ensureTimeline (target_ne own) here) direction
    · intro _ other has timeline there
      by_cases own : other = rule.ticket.target
      · subst own
        refine ⟨next, found, fun direction => ?_⟩
        rw [budgets, there]
        exact Nat.le_refl _
      · rw [get?_ensureTimeline_of_ne (target_ne own) has]
        exact ⟨timeline, there, fun _ => Nat.le_refl _⟩
    · intro other timeline here
      by_cases own : other = rule.ticket.target
      · subst own
        rw [found] at here
        cases here
        rcases ruled with fresh | ⟨before, there, _, same⟩
        · exact Or.inl (by rw [fresh]; exact ruling)
        · exact Or.inr ⟨before, there, by rw [same]⟩
      · exact Or.inr ⟨timeline, get?_of_ensureTimeline (target_ne own) here, rfl⟩
    · intro other apart has
      exact get?_ensureTimeline_of_ne (target_ne apart) has

theorem Acts.refl : Acts source target shaper shaper := Acts.of_timelines rfl

variable {flow : String} {now : Nat}

theorem Acts.of_changed (changed : Changed source target flow before after) :
    Acts source target before after := by
  cases changed with
  | increment counter amount => exact Acts.increment counter amount
  | charge bytes direction now => exact Acts.charge bytes direction now
  | ensure rule ruling => exact Acts.ensureTimeline ruling
  | refuse _ | token | unknown _ | setFlow _ | removeFlow => exact Acts.of_timelines rfl

theorem Acts.of_changes (changes : Changes source target flow before after) :
    Acts source target before after := by
  induction changes with
  | refl => exact Acts.refl
  | tail _ changed ih => exact ih.trans (Acts.of_changed changed)

theorem Acts.newFlow {transport : FlowTransport} :
    Acts source target shaper (newFlow shaper flow target transport source now).1 := by
  rcases newFlow_changes shaper flow target transport source now with
    own | ⟨kept, candidate, ensured, _, _, _, admitted⟩
  · exact Acts.of_changes own
  · have evicted : Acts source target kept (kept.removeFlow candidate.1) := Acts.of_timelines rfl
    exact ((Acts.of_changes ensured).trans evicted).trans (Acts.of_changes admitted)

/-- The target that a call is about. -/
def Event.about (shaper : FlowShaper) : Event → Option NetworkRuleTarget
  | .newFlow _ target _ => some target
  | .data flow _ _ | .flowEnded flow => (get? shaper.flows flow).map Flow.target
  | .resume pause => (get? shaper.flows pause.flow).map Flow.target
  | .settleStale => none

theorem only_tick {clock : UInt64}
    (own : ∀ other, (get? shaper.flows flow).map Flow.target = some other → other = target) :
    (shaper.tick clock).only flow target :=
  fun tracked found => own tracked.target (Option.map_eq_some_iff.mpr ⟨tracked, found, rfl⟩)

theorem Acts.step (call : Call) (own : ∀ other, call.event.about shaper = some other →
    other = target) : Acts call.source target shaper (step shaper call).1 := by
  obtain ⟨event, clock, source⟩ := call
  have ticked : Acts source target shaper (shaper.tick clock) := Acts.of_timelines rfl
  cases event with
  | newFlow flow named transport =>
    obtain rfl := own named rfl
    exact ticked.trans Acts.newFlow
  | data flow direction availableBytes =>
    exact ticked.trans (Acts.of_changes (Changes.data (only_tick own) availableBytes))
  | resume pause => exact ticked.trans (Acts.of_changes (Changes.resume (only_tick own)))
  | flowEnded flow => exact Acts.of_timelines rfl
  | settleStale =>
    have kept : Acts source target shaper
        { shaper with flows := shaper.flows.filter fun entry => !isStale source entry.2 } :=
      Acts.of_timelines rfl
    exact kept.trans Acts.prune

end Acts

section Flows

/-- Only the flow's own record changes. -/
structure Others (flow : String) (before after : FlowShaper) : Prop where
  kept : ∀ other, other ≠ flow → get? after.flows other = get? before.flows other
  distinct : (keys before.flows).Nodup → (keys after.flows).Nodup

variable {before middle : FlowShaper} {flow : String} {bytes now : Nat} {tracked : Flow}

theorem Others.of_flows (same : after.flows = before.flows) : Others flow before after :=
  ⟨fun other _ => by rw [same], fun distinct => by rw [same]; exact distinct⟩

theorem Others.trans (first : Others flow before middle) (second : Others flow middle after) :
    Others flow before after :=
  ⟨fun other apart => (second.kept other apart).trans (first.kept other apart),
    fun distinct => second.distinct (first.distinct distinct)⟩

theorem Others.setFlow : Others flow shaper (shaper.setFlow flow tracked) :=
  ⟨fun _ apart => get?_put_of_ne _ apart.symm _, fun distinct => nodup_keys_put distinct _ _⟩

theorem Others.removeFlow : Others flow shaper (shaper.removeFlow flow) := by
  refine ⟨fun other apart => ?_, fun distinct => nodup_keys_erase distinct _⟩
  unfold FlowShaper.removeFlow
  rw [get?_erase, if_neg apart.symm]

theorem Others.of_changes (changes : Changes source target flow before after) :
    Others flow before after := by
  induction changes with
  | refl => exact Others.of_flows rfl
  | tail _ changed ih =>
    apply ih.trans
    cases changed with
    | increment => exact Others.of_flows (increment_flows _ _)
    | charge => exact Others.of_flows (charge_flows _ _)
    | ensure => exact Others.of_flows ensureTimeline_flows
    | refuse _ | token | unknown _ => exact Others.of_flows rfl
    | setFlow => exact Others.setFlow
    | removeFlow => exact Others.removeFlow

/-- A flow that is not paused, and has been idle for long enough to go at the flow limit. -/
def Idle (tracked : Flow) (now : Nat) : Prop :=
  tracked.pending = none ∧ idleEvictionNanoseconds ≤ now - tracked.lastActive

theorem mem_of_firstToGo {entries : List (String × Flow)} {candidate : String × Flow}
    (chosen : firstToGo entries = some candidate) : candidate ∈ entries := by
  induction entries generalizing candidate with
  | nil => cases chosen
  | cons entry rest ih =>
    unfold firstToGo at chosen
    cases best : firstToGo rest with
    | none =>
      rw [best] at chosen
      cases chosen
      exact List.mem_cons_self
    | some other =>
      rw [best] at chosen
      dsimp only at chosen
      split at chosen
      · cases chosen
        exact List.mem_cons_of_mem _ (ih best)
      · cases chosen
        exact List.mem_cons_self

theorem evictionCandidate_idle {candidate : String × Flow}
    (chosen : evictionCandidate shaper now = some candidate) :
    candidate ∈ shaper.flows ∧ Idle candidate.2 now := by
  obtain ⟨there, passes⟩ := List.mem_filter.mp (mem_of_firstToGo chosen)
  simp only [Bool.and_eq_true, Option.isNone_iff_eq_none, decide_eq_true_eq] at passes
  exact ⟨there, passes⟩

/-- At the flow limit, `newFlow` of another flow may forget an idle one. -/
def Evicted (before after : FlowShaper) (flow : String) (now : Nat) : Prop :=
  maximumFlows ≤ before.flows.length ∧ get? after.flows flow = none ∧
    ∃ tracked, get? before.flows flow = some tracked ∧ Idle tracked now

theorem newFlow_flows {transport : FlowTransport} (distinct : (keys shaper.flows).Nodup) :
    (keys (newFlow shaper flow target transport source now).1.flows).Nodup ∧ ∀ other, other ≠ flow →
        get? (newFlow shaper flow target transport source now).1.flows other =
            get? shaper.flows other ∨
          Evicted shaper (newFlow shaper flow target transport source now).1 other now := by
  rcases newFlow_changes shaper flow target transport source now with
    own | ⟨kept, candidate, _, flows, full, chosen, admitted⟩
  · have others := Others.of_changes own
    exact ⟨others.distinct distinct, fun other apart => Or.inl (others.kept other apart)⟩
  · have others := Others.of_changes admitted
    obtain ⟨member, idle⟩ := evictionCandidate_idle chosen
    rw [flows] at member full
    have erased : (kept.removeFlow candidate.1).flows = erase shaper.flows candidate.1 := by
      unfold FlowShaper.removeFlow
      rw [flows]
    refine ⟨others.distinct (by rw [erased]; exact nodup_keys_erase distinct _), ?_⟩
    intro other apart
    have lookup := others.kept other apart
    rw [erased, get?_erase] at lookup
    by_cases gone : candidate.1 = other
    · rw [if_pos gone] at lookup
      right
      subst gone
      exact ⟨full, lookup, candidate.2, get?_of_mem distinct member, idle⟩
    · rw [if_neg gone] at lookup
      exact Or.inl lookup

/-- The flow is tracked for the target. -/
def FlowShaper.tracks (shaper : FlowShaper) (flow : String) (target : NetworkRuleTarget) : Prop :=
  ∃ tracked, get? shaper.flows flow = some tracked ∧ tracked.target = target

/-- The call is about the target, or about a flow that is tracked for it. -/
def Event.concerns (shaper : FlowShaper) (target : NetworkRuleTarget) : Event → Prop
  | .newFlow flow named _ => named = target ∨ shaper.tracks flow target
  | .data flow _ _ | .flowEnded flow => shaper.tracks flow target
  | .resume pause => shaper.tracks pause.flow target
  | .settleStale => True

/-- A call about other targets leaves the timeline and the flows of a target that has a rule, but
for a flow that is evicted. -/
theorem step_elsewhere (distinct : (keys shaper.flows).Nodup) (call : Call)
    (elsewhere : ¬ call.event.concerns shaper target)
    (ruled : (call.source.shapingRule target).isSome = true) :
    get? (step shaper call).1.timelines target = get? shaper.timelines target ∧
      ∀ flow tracked, get? shaper.flows flow = some tracked → tracked.target = target →
        get? (step shaper call).1.flows flow = some tracked ∨
          Evicted shaper (step shaper call).1 flow (monotonicNow shaper call.clock) := by
  obtain ⟨event, clock, source⟩ := call
  have single : ∀ (flow : String), ¬ shaper.tracks flow target →
      ∀ {next : FlowShaper}, Others flow shaper next →
      ∀ other tracked, get? shaper.flows other = some tracked → tracked.target = target →
        get? next.flows other = some tracked := by
    intro flow untracked next others other tracked found named
    have apart : other ≠ flow := by
      rintro rfl
      exact untracked ⟨tracked, found, named⟩
    rw [others.kept other apart]
    exact found
  have own : ∀ {named : NetworkRuleTarget}, named ≠ target →
      ∀ {next : FlowShaper}, Acts source named (shaper.tick clock) next →
      get? next.timelines target = get? shaper.timelines target :=
    fun apart _ acts => acts.others target (fun same => apart same.symm) ruled
  cases event with
  | newFlow flow named transport =>
    have apart : ¬ named = target ∧ ¬ shaper.tracks flow target := not_or.mp elsewhere
    refine ⟨own apart.1 Acts.newFlow, ?_⟩
    intro other tracked found belongs
    have unlike : other ≠ flow := by
      rintro rfl
      exact apart.2 ⟨tracked, found, belongs⟩
    have ticked : (keys (shaper.tick clock).flows).Nodup := distinct
    rcases (newFlow_flows ticked).2 other unlike with same | evicted
    · exact Or.inl (same.trans found)
    · exact Or.inr evicted
  | data flow direction availableBytes =>
    have ticked : Others flow shaper (shaper.tick clock) := Others.of_flows rfl
    obtain ⟨named, only⟩ := exists_only (shaper.tick clock) flow
    refine ⟨?_, fun other tracked found belongs => Or.inl (single flow elsewhere
      (ticked.trans (Others.of_changes (Changes.data only availableBytes))) other tracked found
      belongs)⟩
    cases found : get? shaper.flows flow with
    | none =>
      unfold FlowShaping.step FlowShaping.data
      dsimp only [FlowShaper.tick]
      rw [found]
    | some tracked =>
      obtain rfl := only tracked found
      exact own (fun same => elsewhere ⟨tracked, found, same⟩)
        (Acts.of_changes (Changes.data only availableBytes))
  | resume pause =>
    have ticked : Others pause.flow shaper (shaper.tick clock) := Others.of_flows rfl
    obtain ⟨named, only⟩ := exists_only (shaper.tick clock) pause.flow
    refine ⟨?_, fun other tracked found belongs => Or.inl (single pause.flow elsewhere
      (ticked.trans (Others.of_changes (Changes.resume only))) other tracked found belongs)⟩
    cases found : get? shaper.flows pause.flow with
    | none =>
      unfold FlowShaping.step FlowShaping.resume
      dsimp only [FlowShaper.tick]
      rw [found]
    | some tracked =>
      obtain rfl := only tracked found
      exact own (fun same => elsewhere ⟨tracked, found, same⟩)
        (Acts.of_changes (Changes.resume only))
  | flowEnded flow =>
    exact ⟨rfl, fun other tracked found belongs => Or.inl
      (single flow elsewhere Others.removeFlow other tracked found belongs)⟩
  | settleStale => exact absurd trivial elsewhere

end Flows

section Clock
variable {shaper before : FlowShaper} {source : RuleSource} {target : NetworkRuleTarget}
variable {flow : String} {now : Nat}

theorem Changed.lastNow (changed : Changed source target flow before after) :
    after.lastNow = before.lastNow := by
  cases changed with
  | increment =>
    unfold FlowShaper.increment
    split <;> rfl
  | charge =>
    unfold FlowShaping.charge
    split
    · split <;> rfl
    · rfl
  | ensure rule ruling =>
    unfold ensureTimeline
    dsimp only
    repeat' split
    all_goals rfl
  | refuse _ | token | unknown _ | setFlow _ | removeFlow => rfl

theorem Changes.lastNow (changes : Changes source target flow before after) :
    after.lastNow = before.lastNow := by
  induction changes with
  | refl => rfl
  | tail _ changed ih => exact changed.lastNow.trans ih

theorem newFlow_lastNow (flow : String) (transport : FlowTransport) :
    (newFlow shaper flow target transport source now).1.lastNow = shaper.lastNow := by
  rcases newFlow_changes shaper flow target transport source now with
    own | ⟨kept, candidate, ensured, _, _, _, admitted⟩
  · exact own.lastNow
  · exact admitted.lastNow.trans ensured.lastNow

end Clock

end AutoMobile.FlowShaping
