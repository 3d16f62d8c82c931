import AutoMobile.FlowShaperWindows

/- What a target's grants depend on, and that calls about other targets leave it alone; then what
the shaper's bounds come to, and where the documented ones fail. -/
namespace AutoMobile.FlowShaping

open InsertionMap Runs

variable {shaper one two : FlowShaper} {source : RuleSource} {rule : ShapingRule}
variable {target : NetworkRuleTarget} {direction : FlowDirection} {flow : String} {tracked : Flow}
variable {timeline : Timeline} {now : Nat}

section Locality

/-- The two shapers start the target's slots at the same times. -/
def SameSlots (target : NetworkRuleTarget) (one two : FlowShaper) : Prop :=
  ∀ direction now, slotStart one target direction now = slotStart two target direction now

theorem ensureTimeline_held (found : get? shaper.timelines rule.ticket.target = some timeline) :
    (ensureTimeline shaper source rule).2 = true := by
  cases ensured : (ensureTimeline shaper source rule).2 with
  | true => rfl
  | false =>
    rw [(get?_ensureTimeline_refused ensured).1] at found
    cases found

/-- A slot starts where the timeline that was there says, under the rule that is in force. -/
theorem slotStart_ensureTimeline
    (found : get? shaper.timelines rule.ticket.target = some timeline) (now : Nat) :
    slotStart (ensureTimeline shaper source rule).1 rule.ticket.target direction now =
      if ((if timeline.rule.ticket = rule.ticket then timeline.rule else rule).profile.rate
          direction).isSome then max now (timeline.next direction)
      else now := by
  unfold ensureTimeline
  dsimp only
  by_cases same : timeline.rule.ticket = rule.ticket
  · simp [found, same, slotStart]
  · rw [found]
    simp only [Option.any_some, same, decide_false, Bool.false_eq_true, if_false,
      Option.isNone_some, Bool.false_and, Option.map_some, Option.getD_some]
    unfold slotStart
    dsimp only
    rw [get?_put_self]
    cases direction <;> rfl

theorem ensureTimeline_sameSlots (found : get? one.timelines rule.ticket.target = some timeline)
    (same : get? two.timelines rule.ticket.target = some timeline) :
    SameSlots rule.ticket.target (ensureTimeline one source rule).1
      (ensureTimeline two source rule).1 := by
  intro direction now
  rw [slotStart_ensureTimeline found, slotStart_ensureTimeline same]

/-- What a reservation passes at once, when its slot starts at `slot`. -/
def passedAt (slot : Nat) (direction : FlowDirection) (bytes : Nat) (tracked : Flow)
    (rule : ShapingRule) (now : Nat) : Nat :=
  let hold := burstHold tracked rule.profile direction now
  let release := max (add now hold) slot
  if timeMax - now < hold || ((rule.profile.rate direction).isSome && slot = timeMax) ||
      pauseLimit tracked.transport < release - now || now < release then 0
  else bytes

theorem reserveData_passed (bytes : Nat) :
    (reserveData shaper flow direction bytes tracked rule now).2.passed =
      passedAt (slotStart shaper tracked.target direction now) direction bytes tracked rule now := by
  unfold reserveData passedAt
  dsimp only
  split
  next refused =>
    rw [refused, Bool.true_or]
    rfl
  next allowed =>
    rw [Bool.not_eq_true _ |>.mp allowed, Bool.false_or]
    split
    next later =>
      rw [decide_eq_true later]
      cases makePause shaper flow (.data direction) (max (add now
        (burstHold tracked rule.profile direction now)) (slotStart shaper tracked.target direction
          now)) <;> rfl
    next due =>
      rw [decide_eq_false due]
      rfl

theorem filterData_passed (slots : SameSlots tracked.target one two) (availableBytes : Int) :
    (filterData one flow direction availableBytes tracked rule now).2.passed =
      (filterData two flow direction availableBytes tracked rule now).2.passed := by
  unfold filterData
  dsimp only
  split
  · rfl
  next =>
    split
    · rfl
    next =>
      split
      next pending _ => split <;> rfl
      next unpaused =>
        have idle : ¬ tracked.pending.isSome = true := by
          rw [show tracked.pending = none from unpaused]
          decide
        rw [if_neg idle, if_neg idle, reserveData_passed, reserveData_passed]
        have same := slots direction now
        dsimp only
        rw [same]

/-- What a data callback passes depends on the flow's record, its target's timeline and rule, and
the clamped time. -/
theorem data_passed (mine : get? one.flows flow = some tracked)
    (flows : get? two.flows flow = some tracked)
    (found : get? one.timelines tracked.target = some timeline)
    (timelines : get? two.timelines tracked.target = some timeline) (availableBytes : Int) :
    (data one flow direction availableBytes source now).2.passed =
      (data two flow direction availableBytes source now).2.passed := by
  unfold data
  rw [mine, flows]
  dsimp only
  split
  · rfl
  next =>
    split
    next => split <;> rfl
    next rule ruling =>
      have named := source.named tracked.target rule ruling
      rw [← named] at found timelines
      have slots : SameSlots rule.ticket.target (ensureTimeline one source rule).1
          (ensureTimeline two source rule).1 := ensureTimeline_sameSlots found timelines
      rw [named] at slots
      have first : ensureTimeline one source rule = ((ensureTimeline one source rule).1, true) :=
        Prod.ext rfl (ensureTimeline_held found)
      have second : ensureTimeline two source rule = ((ensureTimeline two source rule).1, true) :=
        Prod.ext rfl (ensureTimeline_held timelines)
      rw [first, second]
      exact filterData_passed slots availableBytes

theorem resume_outcome {pause : FlowPause} (mine : get? one.flows pause.flow = some tracked)
    (flows : get? two.flows pause.flow = some tracked)
    (found : get? one.timelines tracked.target = some timeline)
    (timelines : get? two.timelines tracked.target = some timeline) :
    (resume one pause source now).2 = (resume two pause source now).2 := by
  unfold resume
  rw [mine, flows]
  dsimp only
  split
  · rfl
  next pending _ =>
    split
    · rfl
    next =>
      split
      · rfl
      next rule ruling =>
        have named := source.named tracked.target rule ruling
        rw [← named] at found timelines
        have first : ensureTimeline one source rule = ((ensureTimeline one source rule).1, true) :=
          Prod.ext rfl (ensureTimeline_held found)
        have second : ensureTimeline two source rule = ((ensureTimeline two source rule).1, true) :=
          Prod.ext rfl (ensureTimeline_held timelines)
        split
        · rfl
        next =>
          split
          · rfl
          next =>
            rw [first, second]
            dsimp only
            unfold settlePause
            split <;> rfl

end Locality

section Isolation

variable {calls others : List Call}

/-- The call is about other targets, finds a rule for this one, and does not evict the flow. -/
structure Elsewhere (target : NetworkRuleTarget) (flow : String) (shaper : FlowShaper)
    (call : Call) : Prop where
  apart : ¬ call.event.concerns shaper target
  ruled : (call.source.shapingRule target).isSome = true
  spared : ¬ Evicted shaper (step shaper call).1 flow (monotonicNow shaper call.clock)

/-- The call is a data callback or a resume of the flow. -/
def Event.of (flow : String) : Event → Prop
  | .data own _ _ => own = flow
  | .resume pause => pause.flow = flow
  | _ => False

/-- Calls about other targets leave the timeline of a target, and the flows that they do not
evict. -/
theorem elsewhere_run (sane : Sane shaper) (mine : get? shaper.flows flow = some tracked)
    (meets : Meets step (Elsewhere tracked.target flow) shaper others) :
    get? (run step shaper others).1.flows flow = some tracked ∧
      get? (run step shaper others).1.timelines tracked.target =
        get? shaper.timelines tracked.target := by
  induction others generalizing shaper with
  | nil => exact ⟨mine, rfl⟩
  | cons call rest ih =>
    obtain ⟨first, later⟩ := meets
    obtain ⟨timelines, flows⟩ := step_elsewhere sane.distinct call first.apart first.ruled
    have kept : get? (step shaper call).1.flows flow = some tracked := by
      rcases flows flow tracked mine rfl with same | evicted
      · exact same
      · exact absurd evicted first.spared
    obtain ⟨still, same⟩ := ih (Sane.step sane call) kept later
    exact ⟨still, same.trans timelines⟩

/-- What a call of a flow grants is the same before and after calls about other targets, at the same
clamped time. -/
theorem grants_elsewhere (sane : Sane shaper) (mine : get? shaper.flows flow = some tracked)
    (found : get? shaper.timelines tracked.target = some timeline)
    (meets : Meets step (Elsewhere tracked.target flow) shaper others) (own : Call)
    (ours : own.event.of flow)
    (time : monotonicNow (run step shaper others).1 own.clock = monotonicNow shaper own.clock) :
    grantsOf (run step shaper others).1 own = grantsOf shaper own := by
  obtain ⟨flows, timelines⟩ := elsewhere_run sane mine meets
  rw [found] at timelines
  obtain ⟨event, clock, source⟩ := own
  cases event with
  | newFlow flow target transport => exact ours.elim
  | data own direction availableBytes =>
    obtain rfl : own = flow := ours
    have later : get? ((run step shaper others).1.tick clock).flows own = some tracked := flows
    have before : get? (shaper.tick clock).flows own = some tracked := mine
    have passed (now : Nat) :
        (data ((run step shaper others).1.tick clock) own direction availableBytes source
            now).2.passed =
          (data (shaper.tick clock) own direction availableBytes source now).2.passed :=
      data_passed later before timelines found availableBytes
    rw [grantsOf_data, grantsOf_data]
    dsimp only at time
    rw [time]
    unfold dataGrant passing
    rw [passed, later, before]
  | resume pause =>
    obtain rfl : pause.flow = flow := ours
    have later : get? ((run step shaper others).1.tick clock).flows pause.flow = some tracked :=
      flows
    have before : get? (shaper.tick clock).flows pause.flow = some tracked := mine
    have outcome (now : Nat) :
        (resume ((run step shaper others).1.tick clock) pause source now).2 =
          (resume (shaper.tick clock) pause source now).2 :=
      resume_outcome later before timelines found
    rw [grantsOf_resume, grantsOf_resume]
    dsimp only at time
    rw [time]
    unfold resumeGrant passing
    rw [outcome, later, before]
  | flowEnded flow => exact ours.elim
  | settleStale => exact ours.elim

end Isolation

section Bounds

/-- The shaper's bounds, over every run: the window bound of a rule that lasts, timelines that only
move forwards, grants within what was offered and the quantum, and targets that do not meet. -/
theorem shaping_keeps_bounds :
    (∀ (calls : List Call) (rule : ShapingRule) (direction : FlowDirection) (rate low length : Nat),
      rule.profile.rate direction = some rate → Lasting rule calls →
      Meets step OnTime {} calls →
      let window := windowOf rule direction low length (grantsFrom {} calls)
      sumOf window * nanosecondsPerSecond ≤
        rate * (length + rule.profile.delayNanoseconds direction) +
          (1 + debtsOf window) * largestOf window * nanosecondsPerSecond) ∧
    (∀ (before during : List Call) (target : NetworkRuleTarget) (timeline : Timeline),
      (∀ call ∈ during, (call.source.shapingRule target).isSome = true) →
      get? (run step {} before).1.timelines target = some timeline →
      ∃ later, get? (run step {} (before ++ during)).1.timelines target = some later ∧
        ∀ direction, timeline.next direction ≤ later.next direction) ∧
    (∀ (calls : List Call) (past rest : List Output) (output : Output),
      (run step {} calls).2 = past ++ output :: rest → Offered past output) ∧
    (∀ calls : List Call, OneProfile calls → ∀ grant ∈ grantsFrom {} calls, grant.WithinQuantum) ∧
    (∀ (before others : List Call) (own : Call) (flow : String) (tracked : Flow)
      (timeline : Timeline),
      get? (run step {} before).1.flows flow = some tracked →
      get? (run step {} before).1.timelines tracked.target = some timeline →
      Meets step (Elsewhere tracked.target flow) (run step {} before).1 others →
      own.event.of flow →
      monotonicNow (run step {} (before ++ others)).1 own.clock =
        monotonicNow (run step {} before).1 own.clock →
      grantsOf (run step {} (before ++ others)).1 own = grantsOf (run step {} before).1 own) := by
  refine ⟨?_, ?_, fun _ _ _ _ told => offered_run told, fun _ single => quantum_run single, ?_⟩
  · intro calls rule direction rate low length limited lasting onTime
    exact window_bound limited lasting onTime low length
  · intro before during target timeline ruled found
    rw [run_append]
    exact later_run (sane_run before) ruled found
  · intro before others own flow tracked timeline mine found meets ours time
    rw [run_append] at time ⊢
    exact grants_elsewhere (sane_run before) mine found meets own ours time

def app : NetworkRuleTarget := ⟨⟨"set", "phone"⟩, "app"⟩
def game : NetworkRuleTarget := ⟨⟨"set", "phone"⟩, "game"⟩

/-- 1000 bytes a second upwards, and no limit downwards. -/
def slowProfile : ShapingProfile :=
  ⟨0, 0, some 1000, none, by decide, by decide, by decide, by decide⟩

def fastProfile : ShapingProfile :=
  ⟨0, 0, some 125000000, none, by decide, by decide, by decide, by decide⟩

def ruleOf (profile : ShapingProfile) (target : NetworkRuleTarget) : ShapingRule :=
  ⟨⟨target, "owner", 0, 1⟩, profile⟩

/-- The targets have the profile, and the others have no rule. -/
def ruledBy (profile : ShapingProfile) (targets : List NetworkRuleTarget) : RuleSource where
  shapingRule target := if target ∈ targets then some (ruleOf profile target) else none
  named := by
    intro target rule found
    split at found
    · cases found
      rfl
    · cases found

def bothRuled : RuleSource := ruledBy slowProfile [app, game]

def callAt (milliseconds : Nat) (source : RuleSource) (event : Event) : Call :=
  ⟨event, UInt64.ofNat (milliseconds * 1000000), source⟩

/-- Three datagrams are reserved for `app`, which then loses its rule, and so its timeline. -/
def ruleGone : List Call :=
  [callAt 0 bothRuled (.newFlow "a" app .datagram), callAt 0 bothRuled (.newFlow "b" app .datagram),
   callAt 0 bothRuled (.newFlow "c" app .datagram), callAt 0 bothRuled (.newFlow "d" app .datagram),
   callAt 0 bothRuled (.data "a" .outbound 1000), callAt 0 bothRuled (.data "b" .outbound 1000),
   callAt 0 bothRuled (.data "c" .outbound 1000),
   callAt 0 (ruledBy slowProfile [game]) (.newFlow "e" game .datagram)]

/-- The rule is back: its timeline starts afresh, beside the slots that were reserved. -/
def ruleBack : List Call :=
  [callAt 1000 bothRuled (.resume ⟨"b", 1, 1000000000, .data .outbound⟩),
   callAt 1000 bothRuled (.data "a" .outbound 1000),
   callAt 1000 bothRuled (.data "d" .outbound 1000),
   callAt 2000 bothRuled (.resume ⟨"c", 2, 2000000000, .data .outbound⟩),
   callAt 2000 bothRuled (.resume ⟨"d", 3, 2000000000, .data .outbound⟩)]

/-- The ticket is found with another profile first, which the timeline keeps. -/
def profileBefore : List Call := [callAt 0 (ruledBy fastProfile [app]) (.newFlow "a" app .datagram)]

def profileAfter : List Call :=
  [callAt 1 (ruledBy slowProfile [app]) (.data "a" .outbound 1000),
   callAt 2 (ruledBy slowProfile [app]) (.data "a" .outbound 1000),
   callAt 3 (ruledBy slowProfile [app]) (.data "a" .outbound 1000)]

def oneDatagram : List Call :=
  [callAt 0 bothRuled (.newFlow "a" app .datagram), callAt 0 bothRuled (.data "a" .outbound 1000)]

def laterElsewhere : Call := callAt 1000 bothRuled (.newFlow "e" game .datagram)

def streamInbound : List Call :=
  [callAt 0 bothRuled (.newFlow "a" app .stream), callAt 0 bothRuled (.data "a" .inbound 100000)]

instance (shaper : FlowShaper) (call : Call) : Decidable (OnTime shaper call) :=
  inferInstanceAs (Decidable (∀ pause ∈ call.event.resumed?, _))

theorem shaping_keeps_bounds_held :
    let calls := oneDatagram ++ [callAt 0 bothRuled (.data "a" .outbound 1000),
      callAt 1000 bothRuled (.resume ⟨"a", 1, 1000000000, .data .outbound⟩)]
    let window := windowOf (ruleOf slowProfile app) .outbound 0 1000000000 (grantsFrom {} calls)
    (sumOf window * nanosecondsPerSecond ≤ 1000 * (1000000000 + 0) +
      (1 + debtsOf window) * largestOf window * nanosecondsPerSecond) ∧
    sumOf window = 2000 := by
  intro calls window
  have every : ∀ call ∈ calls,
      call.source.shapingRule app = some (ruleOf slowProfile app) := by decide
  refine ⟨shaping_keeps_bounds.1 calls (ruleOf slowProfile app) .outbound 1000 0 1000000000 rfl
    ⟨?_, ?_⟩ (by decide), by decide +kernel⟩
  · intro call member other found _
    rw [show call.source.shapingRule (ruleOf slowProfile app).ticket.target = _ from
      every call member] at found
    exact (Option.some.inj found).symm
  · intro front call back split _
    have member : call ∈ calls := by
      rw [split]
      simp
    rw [show call.source.shapingRule (ruleOf slowProfile app).ticket.target = _ from
      every call member]
    rfl

/-- A resume is called exactly at the pause's deadline. -/
def Exactly (shaper : FlowShaper) (call : Call) : Prop :=
  ∀ pause ∈ call.event.resumed?, monotonicNow shaper call.clock = pause.resumeAtNanoseconds

instance (shaper : FlowShaper) (call : Call) : Decidable (Exactly shaper call) :=
  inferInstanceAs (Decidable (∀ pause ∈ call.event.resumed?, _))

/-- What the window's calls grant passes the bound of `app` under the slow profile. -/
def ExceedsBound (before window : List Call) (low length : Nat) : Prop :=
  let grants := windowOf (ruleOf slowProfile app) .outbound low length
    (grantsFrom {} (before ++ window))
  1000 * length + (1 + debtsOf grants) * largestOf grants * nanosecondsPerSecond <
    sumOf grants * nanosecondsPerSecond

instance (before window : List Call) (low length : Nat) :
    Decidable (ExceedsBound before window low length) :=
  inferInstanceAs (Decidable (_ < _))

/-- A rule that comes back under its ticket, and a ticket that has had another profile, pass the
bound of a window in which neither changes; a later reading for another target advances the clamped
clock, and with it the grants of the first; an unlimited stream passes more than the quantum. -/
theorem documented_bounds_fail : (Meets step Exactly {} (ruleGone ++ ruleBack) ∧
      (∀ call ∈ ruleBack, call.source.shapingRule app = some (ruleOf slowProfile app)) ∧
      ExceedsBound ruleGone ruleBack 1000000000 1000000000) ∧
    ((∀ call ∈ profileAfter, call.source.shapingRule app = some (ruleOf slowProfile app)) ∧
      ExceedsBound profileBefore profileAfter 1000000 2000000) ∧
    (get? (run step {} (oneDatagram ++ [laterElsewhere])).1.timelines app =
        get? (run step {} oneDatagram).1.timelines app ∧
      grantsOf (run step {} (oneDatagram ++ [laterElsewhere])).1
          (callAt 0 bothRuled (.data "a" .outbound 1000)) ≠
        grantsOf (run step {} oneDatagram).1 (callAt 0 bothRuled (.data "a" .outbound 1000))) ∧
    ∃ grant ∈ grantsFrom {} streamInbound, grant.transport = .stream ∧
      grant.rule.profile.quantum grant.direction < grant.bytes := by
  decide +kernel

end Bounds

end AutoMobile.FlowShaping
