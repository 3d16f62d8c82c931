import AutoMobile.FlowShaperPauses
import AutoMobile.ReservedSlots

/- The bound of the grants under one rule over a window: a ledger of the slots that the rule's ticket
has reserved accounts for every release that is not a debt. -/
namespace AutoMobile.FlowShaping

open List hiding keys
open InsertionMap ReservedSlots

section Steps

variable {shaper before after : FlowShaper}

def Output.passed : Output → Nat
  | .data _ _ _ decision => decision.passed
  | .resumed _ outcome => outcome.passed
  | _ => 0

/-- What a verdict grants, given in the state before the call. -/
def grantOf (shaper : FlowShaper) (call : Call) : Output → Option Grant
  | .data flow direction _ decision =>
    dataGrant shaper flow direction call.source (monotonicNow shaper call.clock) decision
  | .resumed pause outcome =>
    resumeGrant shaper pause call.source (monotonicNow shaper call.clock) outcome
  | _ => none

def grantsOf (shaper : FlowShaper) (call : Call) : List Grant :=
  (step shaper call).2.filterMap (grantOf shaper call)

/-- The grants of the verdicts of a run, in order. -/
def grantsFrom : FlowShaper → List Call → List Grant
  | _, [] => []
  | shaper, call :: calls => grantsOf shaper call ++ grantsFrom (step shaper call).1 calls

theorem grantsFrom_snoc (front : List Call) (call : Call) :
    grantsFrom shaper (front ++ [call]) =
      grantsFrom shaper front ++ grantsOf (Runs.run step shaper front).1 call := by
  induction front generalizing shaper with
  | nil => exact append_nil _
  | cons first rest ih =>
    rw [cons_append, grantsFrom, grantsFrom, ih, append_assoc]
    rfl

/-- What every call keeps: tokens of their own, one record a flow, and times within 64 bits. -/
structure Sane (shaper : FlowShaper) : Prop where
  tokens : Tokens shaper
  distinct : (keys shaper.flows).Nodup
  capped : Capped shaper
  clock : shaper.lastNow ≤ timeMax

theorem Sane.start : Sane {} := by
  refine ⟨Tokens.start, nodup_keys_nil, ?_, Nat.zero_le _⟩
  intro target timeline found
  cases found

theorem monotonicNow_le (sane : Sane shaper) (clock : UInt64) :
    monotonicNow shaper clock ≤ timeMax := by
  have small := clock.toNat_lt
  have reached := sane.clock
  unfold monotonicNow timeMax at *
  omega

theorem Sane.tick (sane : Sane shaper) (clock : UInt64) : Sane (shaper.tick clock) :=
  ⟨⟨sane.tokens.owned, sane.tokens.distinct⟩, sane.distinct, sane.capped,
    monotonicNow_le sane clock⟩

/-- What a call does to the pauses, and what its verdict grants. -/
inductive StepCase (before after : FlowShaper) (call : Call) (now : Nat) (outputs : List Output) :
    List Grant → Prop where
  | quiet (carries : Carries before after) (silent : ∀ output ∈ outputs, output.passed = 0) :
      StepCase before after call now outputs []
  | hold (flow : String) (target : NetworkRuleTarget) (transport : FlowTransport)
      (fresh : Pending) (phase : fresh.pause.phase = .newFlow)
      (pauses : Pauses flow target transport fresh before after)
      (silent : ∀ output ∈ outputs, output.passed = 0) :
      StepCase before after call now outputs []
  | data (flow : String) (direction : FlowDirection) (availableBytes : Int) (tracked : Flow)
      (rule : ShapingRule) (decision : DataDecision) (given : Option Grant)
      (told : outputs = [.data flow direction availableBytes decision])
      (found : get? before.flows flow = some tracked)
      (ruling : call.source.shapingRule tracked.target = some rule)
      (happened : DataCase before after flow tracked.transport rule direction
        availableBytes.toNat now decision given) :
      StepCase before after call now outputs given.toList
  | resume (pause : FlowPause) (outcome : ResumeOutcome) (given : Option Grant)
      (event : call.event = .resume pause) (told : outputs = [.resumed pause outcome])
      (happened : ResumeCase before after pause call.source now outcome given) :
      StepCase before after call now outputs given.toList

theorem settleStale_carries (source : RuleSource) (distinct : (keys shaper.flows).Nodup) :
    Carries shaper (settleStale shaper source).1 := by
  refine ⟨Nat.le_refl _, fun flow tracked pending found paused => ?_⟩
  have filtered : get? (shaper.flows.filter fun entry => !isStale source entry.2) flow =
      some tracked := found
  rw [get?_filter distinct, Option.filter_eq_some_iff] at filtered
  exact ⟨tracked, pending, filtered.1, paused, rfl, rfl, ⟨rfl, rfl, rfl⟩⟩

variable (flow : String) (direction : FlowDirection) (availableBytes : Int) (pause : FlowPause)
  (clock : UInt64) (source : RuleSource)

theorem step_data :
    step shaper ⟨.data flow direction availableBytes, clock, source⟩ =
      let called := data (shaper.tick clock) flow direction availableBytes source
        (monotonicNow shaper clock)
      (called.1, [.data flow direction availableBytes called.2]) := rfl

theorem step_resume : step shaper ⟨.resume pause, clock, source⟩ =
      let called := resume (shaper.tick clock) pause source (monotonicNow shaper clock)
      (called.1, [.resumed pause called.2]) := rfl

theorem grantsOf_data :
    grantsOf shaper ⟨.data flow direction availableBytes, clock, source⟩ =
      (dataGrant (shaper.tick clock) flow direction source (monotonicNow shaper clock)
        (data (shaper.tick clock) flow direction availableBytes source
          (monotonicNow shaper clock)).2).toList := filterMap_cons

theorem grantsOf_resume : grantsOf shaper ⟨.resume pause, clock, source⟩ =
      (resumeGrant (shaper.tick clock) pause source (monotonicNow shaper clock)
        (resume (shaper.tick clock) pause source (monotonicNow shaper clock)).2).toList :=
  filterMap_cons

theorem step_case (distinct : (keys shaper.flows).Nodup) (call : Call) :
    StepCase (shaper.tick call.clock) (step shaper call).1 call (monotonicNow shaper call.clock)
      (step shaper call).2 (grantsOf shaper call) := by
  obtain ⟨event, clock, source⟩ := call
  have unticked : ∀ {next : FlowShaper}, Carries shaper next → Carries (shaper.tick clock) next :=
    fun carries => ⟨carries.ids, carries.pendings⟩
  cases event with
  | newFlow flow target transport =>
    have silent : ∀ output ∈ (step shaper ⟨.newFlow flow target transport, clock, source⟩).2,
        output.passed = 0 := fun output member => by rw [mem_singleton.mp member]; rfl
    rcases newFlow_case (shaper.tick clock) flow target transport source
        (monotonicNow shaper clock) with carries | ⟨fresh, phase, _, pauses⟩
    · exact .quiet carries silent
    · exact .hold flow target transport fresh phase pauses silent
  | data flow direction availableBytes =>
    rw [grantsOf_data, step_data]
    rcases data_case (shaper.tick clock) flow direction availableBytes source
        (monotonicNow shaper clock) with ⟨carries, silent⟩ | ⟨tracked, rule, found, ruling, done⟩
    · rw [dataGrant, if_pos silent]
      refine .quiet carries fun output member => ?_
      rw [mem_singleton.mp member]
      exact silent
    · exact .data flow direction availableBytes tracked rule _ _ rfl found ruling done
  | resume pause =>
    rw [grantsOf_resume, step_resume]
    exact .resume pause _ _ rfl rfl
      (resume_case (shaper.tick clock) pause source (monotonicNow shaper clock))
  | flowEnded flow =>
    exact .quiet (unticked Carries.removeFlow) fun output member => by
      rw [mem_singleton.mp member]; rfl
  | settleStale =>
    exact .quiet (unticked (settleStale_carries source distinct)) fun output member => by
      rw [mem_singleton.mp member]; rfl

end Steps

section Entries

/-- A slot that was reserved: the pause that waits for its release, or when it was released. A flow
that is dropped leaves its entry waiting. -/
structure Entry where
  slot : Nat
  bytes : Nat
  waiting : Option Nat := none
  released : Option Nat := none
deriving DecidableEq

/-- The release that an entry accounts for. -/
def Entry.release? (entry : Entry) : Option (Nat × Nat) :=
  entry.released.map fun time => (time, entry.bytes)

def Entry.settle (id time : Nat) (entry : Entry) : Entry :=
  if entry.waiting = some id then { entry with waiting := none, released := some time } else entry

@[simp] theorem Entry.slot_settle (id time : Nat) (entry : Entry) :
    (entry.settle id time).slot = entry.slot := by
  unfold Entry.settle
  split <;> rfl

@[simp] theorem Entry.bytes_settle (id time : Nat) (entry : Entry) :
    (entry.settle id time).bytes = entry.bytes := by
  unfold Entry.settle
  split <;> rfl

theorem map_settle_of_not_mem {id : Nat} (time : Nat) {entries : List Entry}
    (absent : id ∉ entries.filterMap Entry.waiting) :
    entries.map (Entry.settle id time) = entries := by
  conv_rhs => rw [← map_id entries]
  apply map_congr_left
  intro entry member
  unfold Entry.settle
  rw [if_neg]
  · rfl
  intro waits
  exact absent (mem_filterMap.mpr ⟨entry, member, waits⟩)

/-- Only the entry that waits for the pause is settled. -/
theorem map_settle {id : Nat} (time : Nat) {entries : List Entry} {entry : Entry}
    (distinct : (entries.filterMap Entry.waiting).Nodup) (member : entry ∈ entries)
    (waiting : entry.waiting = some id) :
    ∃ front back, entries = front ++ entry :: back ∧ entries.map (Entry.settle id time) =
        front ++ { entry with waiting := none, released := some time } :: back := by
  obtain ⟨front, back, rfl⟩ := append_of_mem member
  simp only [filterMap_append, filterMap_cons, waiting] at distinct
  have apart := nodup_append.mp distinct
  have beforehand : id ∉ front.filterMap Entry.waiting := by
    intro there
    exact apart.2.2 id there id mem_cons_self rfl
  have afterwards : id ∉ back.filterMap Entry.waiting := (nodup_cons.mp apart.2.1).1
  refine ⟨front, back, rfl, ?_⟩
  rw [map_append, map_cons, map_settle_of_not_mem time beforehand,
    map_settle_of_not_mem time afterwards]
  have settled : entry.settle id time = { entry with waiting := none, released := some time } := by
    unfold Entry.settle
    rw [if_pos waiting]
  rw [settled]

end Entries

section Ledgers

variable (rule : ShapingRule) (direction : FlowDirection) (rate : Nat)
variable {shaper before after : FlowShaper} {entries : List Entry}

/-- The pause holds data of the direction under the rule's ticket. -/
structure Awaits (tracked : Flow) (pending : Pending) : Prop where
  target : tracked.target = rule.ticket.target
  ticket : pending.ticket = rule.ticket
  phase : pending.pause.phase = .data direction

/-- The entry's slot starts at most the delay before the time. -/
def Entry.near (entry : Entry) (time : Nat) : Prop :=
  entry.slot ≤ time ∧ time ≤ entry.slot + rule.profile.delayNanoseconds direction

/-- The entry that an outstanding pause waits for. -/
structure Waits (pending : Pending) (entry : Entry) : Prop where
  waiting : entry.waiting = some pending.pause.id
  released : entry.released = none
  bytes : entry.bytes = pending.bytes
  near : entry.near rule direction pending.pause.resumeAtNanoseconds

/-- Every slot that the rule's ticket has reserved, in order: they do not overlap, the timeline is
past them, and each outstanding pause is released near its slot. -/
structure Ledger (shaper : FlowShaper) (entries : List Entry) : Prop where
  kept : ∀ timeline, get? shaper.timelines rule.ticket.target = some timeline →
    timeline.rule.ticket = rule.ticket → timeline.rule = rule
  reserved : ∀ entry ∈ entries, min (entry.slot + spans entry.bytes rate) timeMax ≤
    budget shaper rule.ticket.target direction
  separated : Separated Entry.slot (fun entry => spans entry.bytes rate) entries
  waiting : ∀ flow tracked pending, get? shaper.flows flow = some tracked →
    tracked.pending = some pending → Awaits rule direction tracked pending →
    ∃ entry ∈ entries, Waits rule direction pending entry
  distinct : (entries.filterMap Entry.waiting).Nodup
  bounded : ∀ id ∈ entries.filterMap Entry.waiting, id ≤ shaper.pauseID
  timely : ∀ entry ∈ entries, ∀ time ∈ entry.released, entry.near rule direction time

variable {rule direction rate}

theorem Ledger.tick (ledger : Ledger rule direction rate shaper entries) (clock : UInt64) :
    Ledger rule direction rate (shaper.tick clock) entries :=
  ⟨ledger.kept, ledger.reserved, ledger.separated, ledger.waiting, ledger.distinct,
    ledger.bounded, ledger.timely⟩

/-- Nothing has been reserved under a ticket that is not there. -/
theorem Ledger.start : Ledger rule direction rate {} [] := by
  refine ⟨?_, ?_, List.Pairwise.nil, ?_, nodup_nil, ?_, ?_⟩
  · intro timeline found
    cases found
  · intro entry member
    cases member
  · intro flow tracked pending found
    cases found
  · intro id member
    cases member
  · intro entry member
    cases member

/-- While its target has a rule, a target's reservations only come further. -/
theorem budget_le {source : RuleSource} {target other : NetworkRuleTarget} (capped : Capped before)
    (acts : Acts source target before after)
    (ruled : (source.shapingRule other).isSome = true) :
    budget before other direction ≤ budget after other direction := by
  unfold budget
  cases found : get? before.timelines other with
  | none => exact Nat.zero_le _
  | some timeline =>
    obtain ⟨next, there, further⟩ := acts.later capped other ruled timeline found
    rw [there]
    exact further direction

/-- The call finds the rule as it was, and finds some rule if slots have been reserved. -/
structure Steady (rule : ShapingRule) (entries : List Entry) (source : RuleSource) : Prop where
  same : ∀ other, source.shapingRule rule.ticket.target = some other →
    other.ticket = rule.ticket → other = rule
  ruled : entries ≠ [] → (source.shapingRule rule.ticket.target).isSome = true

theorem kept_of_acts {target : NetworkRuleTarget} {source : RuleSource}
    (ledger : Ledger rule direction rate before entries) (steady : Steady rule entries source)
    (acts : Acts source target before after) (timeline : Timeline)
    (found : get? after.timelines rule.ticket.target = some timeline)
    (ticket : timeline.rule.ticket = rule.ticket) : timeline.rule = rule := by
  rcases acts.ruled _ timeline found with own | ⟨earlier, there, equal⟩
  · exact steady.same _ own ticket
  · rw [equal] at ticket ⊢
    exact ledger.kept earlier there ticket

variable {source : RuleSource} {target : NetworkRuleTarget} {flow : String} {tracked : Flow}
variable {pending : Pending}

theorem Ledger.carried (ledger : Ledger rule direction rate before entries)
    (carried : Carried before flow tracked pending) (awaits : Awaits rule direction tracked pending) :
    ∃ entry ∈ entries, Waits rule direction pending entry := by
  obtain ⟨earlier, held, found, holds, target, _, same⟩ := carried
  have awaited : Awaits rule direction earlier held := by
    refine ⟨target.trans awaits.target, ?_, ?_⟩
    · rw [← same.ticket]
      exact awaits.ticket
    · rw [← same.pause]
      exact awaits.phase
  obtain ⟨entry, member, waits⟩ := ledger.waiting flow earlier held found holds awaited
  refine ⟨entry, member, ?_, waits.released, ?_, ?_⟩
  · rw [same.pause]
    exact waits.waiting
  · rw [same.bytes]
    exact waits.bytes
  · rw [same.pause]
    exact waits.near

/-- A call that reserves nothing and releases nothing. -/
theorem Ledger.stay (ledger : Ledger rule direction rate before entries) (capped : Capped before)
    (steady : Steady rule entries source) (acts : Acts source target before after)
    (ids : before.pauseID ≤ after.pauseID)
    (older : ∀ flow tracked pending, get? after.flows flow = some tracked →
      tracked.pending = some pending → Awaits rule direction tracked pending →
      Carried before flow tracked pending) :
    Ledger rule direction rate after entries := by
  refine ⟨kept_of_acts ledger steady acts, ?_, ledger.separated, ?_, ledger.distinct, ?_,
    ledger.timely⟩
  · intro entry member
    have ruled := steady.ruled (ne_nil_of_mem member)
    exact Nat.le_trans (ledger.reserved entry member) (budget_le capped acts ruled)
  · intro flow tracked pending found paused awaits
    exact ledger.carried (older flow tracked pending found paused awaits) awaits
  · intro id member
    exact Nat.le_trans (ledger.bounded id member) ids

variable {now slot : Nat}

/-- The rule's own timeline is charged under the rule. -/
theorem charged_slot {bytes : Nat} (ledger : Ledger rule direction rate before entries)
    (limited : rule.profile.rate direction = some rate) (positive : 0 < rate)
    (charged : Charged before after rule direction bytes now slot) :
    slot = max now (budget before rule.ticket.target direction) ∧
      budget after rule.ticket.target direction = min (slot + spans bytes rate) timeMax := by
  obtain ⟨timeline, found, origin, further⟩ := charged
  have own : timeline.rule = rule := by
    rcases origin with same | ⟨earlier, there, ticket, equal⟩
    · exact same
    · rw [equal]
      exact ledger.kept earlier there ticket
  rw [own] at further
  obtain ⟨start, next⟩ := further rate limited
  refine ⟨start, ?_⟩
  unfold budget
  rw [found]
  show timeline.next direction = _
  rw [next, duration_eq bytes rate positive]
  unfold add
  omega

theorem budget_le_timeMax (capped : Capped shaper) : budget shaper target direction ≤ timeMax := by
  unfold budget
  cases found : get? shaper.timelines target with
  | none => exact Nat.zero_le _
  | some timeline => exact capped target timeline found direction

/-- A slot that starts before the end of time starts where the reservations before it have ended. -/
theorem ended_le {ended level top : Nat} (reached : min ended top ≤ level)
    (start : slot = max now level) (time : now ≤ top) (capped : level ≤ top) (room : slot ≠ top) :
    ended ≤ slot := by
  omega

theorem min_le_later {ended level top : Nat} (reached : min ended top ≤ level)
    (start : slot = max now level) (span : Nat) : min ended top ≤ min (slot + span) top := by
  omega

/-- A call that reserves a slot: for a pause, or for bytes that pass at once. -/
theorem Ledger.append {entry : Entry} (ledger : Ledger rule direction rate before entries)
    (capped : Capped before) (time : now ≤ timeMax) (steady : Steady rule entries source)
    (acts : Acts source target before after) (limited : rule.profile.rate direction = some rate)
    (positive : 0 < rate) (charged : Charged before after rule direction entry.bytes now entry.slot)
    (room : entry.slot ≠ timeMax) (ids : before.pauseID ≤ after.pauseID)
    (fresh : ∀ id, entry.waiting = some id → before.pauseID < id ∧ id ≤ after.pauseID)
    (older : ∀ flow tracked pending, get? after.flows flow = some tracked →
      tracked.pending = some pending → Awaits rule direction tracked pending →
      Waits rule direction pending entry ∨ Carried before flow tracked pending)
    (timely : ∀ time ∈ entry.released, entry.near rule direction time) :
    Ledger rule direction rate after (entries ++ [entry]) := by
  obtain ⟨start, further⟩ := charged_slot ledger limited positive charged
  have level : budget before rule.ticket.target direction ≤ timeMax := budget_le_timeMax capped
  refine ⟨kept_of_acts ledger steady acts, ?_, ?_, ?_, ?_, ?_, ?_⟩
  · intro other member
    rw [further]
    rcases mem_append.mp member with old | new
    · exact min_le_later (ledger.reserved other old) start _
    · rw [mem_singleton.mp new]
  · refine pairwise_append.mpr ⟨ledger.separated, pairwise_singleton _ _, ?_⟩
    intro other old last new
    rw [mem_singleton.mp new]
    exact ended_le (ledger.reserved other old) start time level room
  · intro flow tracked pending found paused awaits
    rcases older flow tracked pending found paused awaits with waits | carried
    · exact ⟨entry, mem_append_right _ mem_cons_self, waits⟩
    · obtain ⟨other, member, waits⟩ := ledger.carried carried awaits
      exact ⟨other, mem_append_left _ member, waits⟩
  · rw [filterMap_append]
    refine nodup_append.mpr ⟨ledger.distinct, ?_, ?_⟩
    · cases waiting : entry.waiting <;> simp [waiting]
    · intro id old last new equal
      obtain ⟨other, single, waits⟩ := mem_filterMap.mp new
      rw [mem_singleton.mp single] at waits
      have small := ledger.bounded id old
      have large := (fresh last waits).1
      omega
  · intro id member
    rw [filterMap_append] at member
    rcases mem_append.mp member with old | new
    · exact Nat.le_trans (ledger.bounded id old) ids
    · obtain ⟨other, single, waits⟩ := mem_filterMap.mp new
      rw [mem_singleton.mp single] at waits
      exact (fresh id waits).2
  · intro other member
    rcases mem_append.mp member with old | new
    · exact ledger.timely other old
    · rw [mem_singleton.mp new]
      exact timely

/-- The release of an outstanding pause settles its entry. -/
theorem Ledger.release {entry : Entry} {time : Nat}
    (ledger : Ledger rule direction rate before entries) (capped : Capped before)
    (steady : Steady rule entries source) (acts : Acts source target before after)
    (ids : before.pauseID ≤ after.pauseID) (member : entry ∈ entries)
    (waits : Waits rule direction pending entry)
    (due : entry.near rule direction time)
    (older : ∀ flow tracked other, get? after.flows flow = some tracked →
      tracked.pending = some other → Awaits rule direction tracked other →
      Carried before flow tracked other ∧ other.pause.id ≠ pending.pause.id) :
    Ledger rule direction rate after (entries.map (Entry.settle pending.pause.id time)) := by
  obtain ⟨front, back, split, settled⟩ := map_settle time ledger.distinct member waits.waiting
  have within : ∀ other ∈ entries.map (Entry.settle pending.pause.id time),
      ∃ origin ∈ entries, other.slot = origin.slot ∧ other.bytes = origin.bytes := by
    intro other there
    obtain ⟨origin, held, equal⟩ := mem_map.mp there
    exact ⟨origin, held, by rw [← equal]; simp, by rw [← equal]; simp⟩
  have waitings : (entries.map (Entry.settle pending.pause.id time)).filterMap Entry.waiting =
      front.filterMap Entry.waiting ++ back.filterMap Entry.waiting := by
    rw [settled, filterMap_append, filterMap_cons]
  have whole : entries.filterMap Entry.waiting =
      front.filterMap Entry.waiting ++ pending.pause.id :: back.filterMap Entry.waiting := by
    rw [split, filterMap_append, filterMap_cons, waits.waiting]
  have once := ledger.distinct
  have sub : (front.filterMap Entry.waiting ++ back.filterMap Entry.waiting).Sublist
      (entries.filterMap Entry.waiting) := by
    rw [whole]
    exact List.Sublist.append (List.Sublist.refl _) (sublist_cons_self _ _)
  have only : ∀ origin ∈ entries, origin.waiting = some pending.pause.id → origin = entry := by
    intro origin held own
    by_contra apart
    rw [split] at held
    rw [whole] at once
    have gone : pending.pause.id ∉
        front.filterMap Entry.waiting ++ back.filterMap Entry.waiting := by
      exact (nodup_middle.mp once |> nodup_cons.mp).1
    rcases mem_append.mp held with first | last
    · exact gone (mem_append_left _ (mem_filterMap.mpr ⟨origin, first, own⟩))
    · rcases mem_cons.mp last with this | later
      · exact apart this
      · exact gone (mem_append_right _ (mem_filterMap.mpr ⟨origin, later, own⟩))
  refine ⟨kept_of_acts ledger steady acts, ?_, ?_, ?_, ?_, ?_, ?_⟩
  · intro other there
    obtain ⟨origin, held, slot, bytes⟩ := within other there
    have ruled := steady.ruled (ne_nil_of_mem held)
    rw [slot, bytes]
    exact Nat.le_trans (ledger.reserved origin held) (budget_le capped acts ruled)
  · refine pairwise_map.mpr ?_
    simp only [Entry.slot_settle, Entry.bytes_settle]
    exact ledger.separated
  · intro flow tracked other found paused awaits
    obtain ⟨carried, apart⟩ := older flow tracked other found paused awaits
    obtain ⟨origin, held, still⟩ := ledger.carried carried awaits
    have same : origin.settle pending.pause.id time = origin := by
      unfold Entry.settle
      rw [if_neg]
      rw [still.waiting]
      exact fun equal => apart (Option.some.inj equal)
    exact ⟨origin, mem_map.mpr ⟨origin, held, same⟩, still⟩
  · rw [waitings]
    exact ledger.distinct.sublist sub
  · intro id there
    rw [waitings] at there
    exact Nat.le_trans (ledger.bounded id (sub.subset there)) ids
  · intro other there moment released
    obtain ⟨origin, held, equal⟩ := mem_map.mp there
    unfold Entry.settle at equal
    split at equal
    next own =>
      -- the only entry that waits for the pause
      rw [← equal] at released ⊢
      cases released
      rw [only origin held own]
      exact due
    next =>
      rw [← equal] at released ⊢
      exact ledger.timely origin held moment released

end Ledgers

section Tallies

variable {shaper before after : FlowShaper} {rule : ShapingRule} {direction : FlowDirection}
variable {rate : Nat} {entries : List Entry} {grants : List Grant} {source : RuleSource}
variable {target : NetworkRuleTarget}

/-- A grant under the rule, in the direction. -/
def Grant.under (rule : ShapingRule) (direction : FlowDirection) (grant : Grant) : Bool :=
  grant.rule = rule && grant.direction = direction

def Grant.paid (rule : ShapingRule) (direction : FlowDirection) (grant : Grant) : Bool :=
  grant.under rule direction && !grant.debt

/-- The released entries are the grants under the rule that are no debts. -/
def Tally (rule : ShapingRule) (direction : FlowDirection) (entries : List Entry)
    (grants : List Grant) : Prop :=
  (entries.filterMap Entry.release?).Perm
    ((grants.filter (Grant.paid rule direction)).map fun grant => (grant.time, grant.bytes))

theorem Tally.skip {given : List Grant} (tally : Tally rule direction entries grants)
    (unpaid : ∀ grant ∈ given, grant.paid rule direction = false) :
    Tally rule direction entries (grants ++ given) := by
  have none : given.filter (Grant.paid rule direction) = [] := by
    refine List.filter_eq_nil_iff.mpr fun grant member => ?_
    rw [unpaid grant member]
    exact Bool.false_ne_true
  unfold Tally at tally ⊢
  rw [List.filter_append, none, List.append_nil]
  exact tally

theorem Tally.pass {grant : Grant} (tally : Tally rule direction entries grants)
    (paid : grant.paid rule direction = true) (slot : Nat) :
    Tally rule direction
      (entries ++ [{ slot := slot, bytes := grant.bytes, released := some grant.time }])
      (grants ++ [grant]) := by
  unfold Tally
  rw [List.filterMap_append, List.filter_append, List.map_append, List.filter_cons, paid]
  exact List.Perm.append tally (List.Perm.refl _)

theorem Tally.hold (tally : Tally rule direction entries grants) {slot bytes id : Nat} :
    Tally rule direction (entries ++ [{ slot := slot, bytes := bytes, waiting := some id }])
      grants := by
  unfold Tally at tally ⊢
  rw [List.filterMap_append]
  show (_ ++ []).Perm _
  rw [List.append_nil]
  exact tally

theorem Tally.release {pending : Pending} {entry : Entry} {grant : Grant}
    (tally : Tally rule direction entries grants)
    (distinct : (entries.filterMap Entry.waiting).Nodup) (member : entry ∈ entries)
    (waits : Waits rule direction pending entry)
    (paid : grant.paid rule direction = true) (bytes : grant.bytes = pending.bytes) :
    Tally rule direction (entries.map (Entry.settle pending.pause.id grant.time))
      (grants ++ [grant]) := by
  obtain ⟨front, back, split, settled⟩ := map_settle grant.time distinct member waits.waiting
  unfold Tally at tally ⊢
  rw [settled, List.filterMap_append, List.filterMap_cons, List.filter_append, List.map_append,
    List.filter_cons, paid]
  rw [split, List.filterMap_append, List.filterMap_cons] at tally
  simp only [Entry.release?, waits.released, Option.map_none] at tally
  simp only [Entry.release?, Option.map_some, waits.bytes, if_true, List.filter_nil, List.map_cons,
    List.map_nil, bytes]
  refine List.perm_middle.trans ?_
  exact (List.Perm.cons _ tally).trans (List.perm_append_singleton _ _).symm

end Tallies

section Machine

variable {shaper before after : FlowShaper} {rule : ShapingRule} {direction : FlowDirection}
variable {rate : Nat} {entries : List Entry} {grants past : List Grant} {call : Call} {now : Nat}
variable {target : NetworkRuleTarget}

/-- The call finds the rule's ticket in force. -/
def Names (rule : ShapingRule) (call : Call) : Prop :=
  ∃ other, call.source.shapingRule rule.ticket.target = some other ∧ other.ticket = rule.ticket

def Event.resumed? : Event → Option FlowPause
  | .resume pause => some pause
  | _ => none

/-- A resume is not called after the pause's deadline. -/
def OnTime (shaper : FlowShaper) (call : Call) : Prop :=
  ∀ pause ∈ call.event.resumed?, monotonicNow shaper call.clock ≤ pause.resumeAtNanoseconds

/-- The ledger goes on through the call, and accounts for what the call grants. -/
structure Accounts (rule : ShapingRule) (direction : FlowDirection) (rate : Nat)
    (after : FlowShaper) (call : Call) (entries next : List Entry) (grants : List Grant) :
    Prop where
  ledger : Ledger rule direction rate after next
  tally : Tally rule direction next grants
  unnamed : ¬ Names rule call → next = entries

/-- What the calls of a target's ledger have in common. -/
structure Booking (rule : ShapingRule) (direction : FlowDirection) (rate : Nat)
    (before after : FlowShaper) (call : Call) (now : Nat) (entries : List Entry)
    (past : List Grant) : Prop where
  sane : Sane before
  time : now ≤ timeMax
  ledger : Ledger rule direction rate before entries
  tally : Tally rule direction entries past
  steady : Steady rule entries call.source
  acts : ∃ target, Acts call.source target before after
  limited : rule.profile.rate direction = some rate

variable {grant : Grant} {flow : String} {transport : FlowTransport} {own : ShapingRule}
  {side : FlowDirection} {named : NetworkRuleTarget}

theorem Grant.paid_of_granted (granted : Granted grant flow transport own side now)
    (paid : grant.debt = false) :
    grant.paid rule direction = decide (own = rule ∧ side = direction) := by
  unfold Grant.paid Grant.under
  rw [granted.rule, granted.direction, paid]
  simp

theorem Grant.not_paid_of_debt (owed : grant.debt = true) : grant.paid rule direction = false := by
  unfold Grant.paid
  rw [owed]
  simp

section

variable (booking : Booking rule direction rate before after call now entries past)
include booking

/-- A rule that the call finds under the ticket is the rule. -/
theorem Booking.same (ruling : call.source.shapingRule named = some own)
    (ticket : own.ticket = rule.ticket) :
    own = rule ∧ named = rule.ticket.target := by
  have place : named = rule.ticket.target := by
    rw [← ticket]
    exact (call.source.named named own ruling).symm
  rw [place] at ruling
  exact ⟨booking.steady.same own ruling ticket, place⟩

theorem Booking.positive : 0 < rate := by
  have limited := booking.limited
  cases direction with
  | inbound => have := (rule.profile.inboundRate rate limited).1; omega
  | outbound => have := (rule.profile.outboundRate rate limited).1; omega

/-- A call that neither reserves nor releases a slot of the ledger. -/
theorem Booking.skip {given : List Grant} (ids : before.pauseID ≤ after.pauseID)
    (older : ∀ flow tracked pending, get? after.flows flow = some tracked →
      tracked.pending = some pending → Awaits rule direction tracked pending →
      Carried before flow tracked pending)
    (unpaid : ∀ grant ∈ given, grant.paid rule direction = false) :
    ∃ next, Accounts rule direction rate after call entries next (past ++ given) := by
  obtain ⟨target, acts⟩ := booking.acts
  exact ⟨entries, booking.ledger.stay booking.sane.capped booking.steady acts ids older,
    booking.tally.skip unpaid, fun _ => rfl⟩

theorem Booking.quiet {given : List Grant} (carries : Carries before after)
    (unpaid : ∀ grant ∈ given, grant.paid rule direction = false) :
    ∃ next, Accounts rule direction rate after call entries next (past ++ given) :=
  booking.skip carries.ids
    (fun flow tracked pending found paused _ => carries.pendings flow tracked pending found paused)
    unpaid

/-- A pause that is not of the ledger's direction and ticket. -/
theorem Booking.pauseElsewhere {target : NetworkRuleTarget} {fresh : Pending}
    (pauses : Pauses flow target transport fresh before after)
    (elsewhere : ∀ tracked, ¬ Awaits rule direction tracked fresh) :
    ∃ next, Accounts rule direction rate after call entries next (past ++ []) := by
  obtain ⟨own, stored, paused, _, _⟩ := pauses.own
  refine booking.skip (by rw [pauses.ids]; omega) ?_ (fun grant member => by cases member)
  intro other tracked pending found holds awaits
  by_cases same : other = flow
  · subst same
    rw [stored] at found
    cases found
    rw [paused] at holds
    cases holds
    exact absurd awaits (elsewhere own)
  · exact pauses.pendings other tracked pending same found holds

theorem Booking.pause {offered slot : Nat} {fresh : Pending}
    (ruling : call.source.shapingRule named = some own)
    (paused : Paused before after flow transport own side offered now fresh slot) :
    ∃ next, Accounts rule direction rate after call entries next (past ++ []) := by
  by_cases mine : own.ticket = rule.ticket ∧ side = direction
  · obtain ⟨ticket, rfl⟩ := mine
    obtain ⟨rfl, rfl⟩ := booking.same ruling ticket
    obtain ⟨target, acts⟩ := booking.acts
    obtain ⟨stored, there, holds, _, _⟩ := paused.pauses.own
    rw [List.append_nil]
    refine ⟨entries ++ [{ slot := slot, bytes := fresh.bytes, waiting := some fresh.pause.id }],
      ?_, booking.tally.hold, fun unnamed => absurd ⟨_, ruling, rfl⟩ unnamed⟩
    have token := paused.pauses.token
    have ids := paused.pauses.ids
    refine booking.ledger.append booking.sane.capped booking.time booking.steady acts
      booking.limited booking.positive paused.charged (paused.room (by rw [booking.limited]; rfl))
      (by omega) ?_ ?_ ?_
    · intro id equal
      cases equal
      omega
    · intro other tracked pending found waits awaits
      by_cases same : other = flow
      · subst same
        rw [there] at found
        cases found
        rw [holds] at waits
        cases waits
        exact Or.inl ⟨rfl, rfl, rfl, paused.before, paused.hold⟩
      · exact Or.inr (paused.pauses.pendings other tracked pending same found waits)
    · intro time member
      cases member
  · refine booking.pauseElsewhere paused.pauses ?_
    intro tracked awaits
    apply mine
    have phase := awaits.phase
    rw [paused.phase] at phase
    cases phase
    exact ⟨paused.ticket.symm.trans awaits.ticket, rfl⟩

theorem Booking.pass (ruling : call.source.shapingRule named = some own)
    (carries : Carries before after) (paid : grant.debt = false)
    (granted : Granted grant flow transport own side now)
    (charged : Charged before after own side grant.bytes now now)
    (room : (own.profile.rate side).isSome = true → now ≠ timeMax) :
    ∃ next, Accounts rule direction rate after call entries next (past ++ [grant]) := by
  have counted : grant.paid rule direction = decide (own = rule ∧ side = direction) :=
    Grant.paid_of_granted granted paid
  by_cases mine : own = rule ∧ side = direction
  · rw [decide_eq_true mine] at counted
    obtain ⟨rfl, rfl⟩ := mine
    obtain ⟨_, rfl⟩ := booking.same ruling rfl
    obtain ⟨target, acts⟩ := booking.acts
    have tally := booking.tally.pass counted now
    refine ⟨_, ?_, tally, fun unnamed => absurd ⟨_, ruling, rfl⟩ unnamed⟩
    refine booking.ledger.append booking.sane.capped booking.time booking.steady acts
      booking.limited booking.positive charged (room (by rw [booking.limited]; rfl)) carries.ids
      ?_ ?_ ?_
    · intro id equal
      cases equal
    · intro other tracked pending found waits _
      exact Or.inr (carries.pendings other tracked pending found waits)
    · intro time member
      cases member
      rw [granted.time]
      exact ⟨Nat.le_refl _, Nat.le_add_right _ _⟩
  · rw [decide_eq_false mine] at counted
    refine booking.quiet carries fun other member => ?_
    rw [List.mem_singleton.mp member]
    exact counted

theorem Booking.release {pause : FlowPause} {tracked : Flow} {pending : Pending}
    (found : get? before.flows pause.flow = some tracked) (paused : tracked.pending = some pending)
    (token : pending.pause = pause) (phase : pause.phase = .data side)
    (ruling : call.source.shapingRule tracked.target = some own)
    (ticket : own.ticket = pending.ticket) (due : now = pause.resumeAtNanoseconds)
    (carries : Carries before after)
    (unpaused : ∀ next, get? after.flows pause.flow = some next → next.pending = none)
    (paid : grant.debt = false) (granted : Granted grant pause.flow tracked.transport own side now)
    (bytes : grant.bytes = pending.bytes) :
    ∃ next, Accounts rule direction rate after call entries next (past ++ [grant]) := by
  have counted : grant.paid rule direction = decide (own = rule ∧ side = direction) :=
    Grant.paid_of_granted granted paid
  by_cases mine : own = rule ∧ side = direction
  · rw [decide_eq_true mine] at counted
    obtain ⟨rfl, rfl⟩ := mine
    obtain ⟨_, place⟩ := booking.same ruling rfl
    obtain ⟨target, acts⟩ := booking.acts
    have awaits : Awaits own side tracked pending :=
      ⟨place, ticket.symm, by rw [token]; exact phase⟩
    obtain ⟨entry, member, waits⟩ :=
      booking.ledger.waiting pause.flow tracked pending found paused awaits
    have near := waits.near
    rw [token, ← due] at near
    have tally := booking.tally.release booking.ledger.distinct member waits counted bytes
    rw [granted.time] at tally
    refine ⟨_, ?_, tally, fun unnamed => absurd ⟨_, by rw [← place]; exact ruling, rfl⟩ unnamed⟩
    refine booking.ledger.release booking.sane.capped booking.steady acts carries.ids member waits
      near ?_
    intro flow next other there holds _
    have carried := carries.pendings flow next other there holds
    refine ⟨carried, fun equal => ?_⟩
    obtain ⟨earlier, held, origin, keeps, _, _, same⟩ := carried
    rw [same.pause] at equal
    have flows := booking.sane.tokens.distinct flow pause.flow earlier tracked held pending origin
      keeps found paused equal
    rw [flows] at there
    rw [unpaused next there] at holds
    cases holds
  · rw [decide_eq_false mine] at counted
    refine booking.quiet carries fun other member => ?_
    rw [List.mem_singleton.mp member]
    exact counted

theorem Booking.stepCase {outputs : List Output}
    (onTime : ∀ pause ∈ call.event.resumed?, now ≤ pause.resumeAtNanoseconds)
    (happened : StepCase before after call now outputs grants) :
    ∃ next, Accounts rule direction rate after call entries next (past ++ grants) := by
  cases happened with
  | quiet carries _ => exact booking.quiet carries fun grant member => by cases member
  | hold flow target transport fresh phase pauses _ =>
    refine booking.pauseElsewhere pauses fun tracked awaits => ?_
    have other := awaits.phase
    rw [phase] at other
    cases other
  | data flow side availableBytes tracked own decision given _ found ruling happened =>
    cases happened with
    | quiet carries _ => exact booking.quiet carries fun grant member => by cases member
    | debt grant carries owed granted _ sized =>
      refine booking.quiet carries fun other member => ?_
      rw [List.mem_singleton.mp member]
      exact Grant.not_paid_of_debt owed
    | pause fresh slot _ paused => exact booking.pause ruling paused
    | pass grant carries paid granted _ sized charged room =>
      exact booking.pass ruling carries paid granted charged room
  | resume pause outcome given event _ happened =>
    cases happened with
    | quiet carries _ => exact booking.quiet carries fun grant member => by cases member
    | debt grant tracked pending own side found paused token phase ruling carries owed granted
        _ sized =>
        refine booking.quiet carries fun other member => ?_
        rw [List.mem_singleton.mp member]
        exact Grant.not_paid_of_debt owed
    | release grant tracked pending own side found paused token phase ruling ticket due carries
        unpaused paid granted _ bytes =>
        have exactly : now = pause.resumeAtNanoseconds := by
          have limit := onTime pause (by rw [event]; rfl)
          omega
        exact booking.release found paused token phase ruling ticket exactly carries unpaused paid
          granted bytes

end

end Machine

end AutoMobile.FlowShaping
