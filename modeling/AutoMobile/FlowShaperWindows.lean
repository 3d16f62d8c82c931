import AutoMobile.FlowShaperBudget

/- What holds of every run of the shaper: the bound of the grants over a window, how large a grant
is, that timelines only move forwards, and what calls about other targets leave alone. -/
namespace AutoMobile.FlowShaping

open List hiding keys
open InsertionMap ReservedSlots Runs

variable {shaper : FlowShaper} {rule : ShapingRule} {direction : FlowDirection} {rate : Nat}
variable {calls : List Call} {call : Call}

section Invariants

theorem Tokens.step (sane : Sane shaper) (call : Call) : Tokens (step shaper call).1 := by
  have tokens := (sane.tick call.clock).tokens
  have quiet : ∀ {after : FlowShaper}, Carries (shaper.tick call.clock) after → Tokens after :=
    fun carries => tokens.carries carries
  have happened := step_case sane.distinct call
  generalize grantsOf shaper call = grants at happened
  cases happened with
  | quiet carries _ => exact quiet carries
  | hold flow target transport fresh phase pauses _ => exact tokens.pauses pauses
  | data flow side availableBytes tracked own decision given _ found ruling happened =>
    cases happened with
    | quiet carries _ => exact quiet carries
    | debt grant carries => exact quiet carries
    | pause fresh slot _ paused => exact tokens.pauses paused.pauses
    | pass grant carries => exact quiet carries
  | resume pause outcome given event _ happened =>
    cases happened with
    | quiet carries _ => exact quiet carries
    | debt grant tracked pending own side found paused token phase ruling carries =>
      exact quiet carries
    | release grant tracked pending own side found paused token phase ruling ticket due carries =>
      exact quiet carries

theorem step_distinct (distinct : (keys shaper.flows).Nodup) (call : Call) :
    (keys (step shaper call).1.flows).Nodup := by
  have ticked : (keys (shaper.tick call.clock).flows).Nodup := distinct
  obtain ⟨event, clock, source⟩ := call
  cases event with
  | newFlow flow target transport => exact (newFlow_flows ticked).1
  | data flow direction availableBytes =>
    obtain ⟨target, only⟩ := exists_only (shaper.tick clock) flow
    exact (Others.of_changes (Changes.data only availableBytes)).distinct ticked
  | resume pause =>
    obtain ⟨target, only⟩ := exists_only (shaper.tick clock) pause.flow
    exact (Others.of_changes (Changes.resume only)).distinct ticked
  | flowEnded flow => exact nodup_keys_erase distinct _
  | settleStale => exact distinct.sublist (List.Sublist.map _ filter_sublist)

/-- A call acts on the timelines for the target it is about, if it is about one. -/
theorem step_acts (shaper : FlowShaper) (call : Call) :
    ∃ target, Acts call.source target shaper (step shaper call).1 := by
  cases about : call.event.about shaper with
  | none =>
    refine ⟨⟨⟨"", ""⟩, ""⟩, Acts.step call fun other same => ?_⟩
    rw [about] at same
    cases same
  | some target =>
    refine ⟨target, Acts.step call fun other same => ?_⟩
    rw [about] at same
    exact (Option.some.inj same).symm

theorem step_lastNow (shaper : FlowShaper) (call : Call) :
    (step shaper call).1.lastNow = shaper.lastNow ∨
      (step shaper call).1.lastNow = monotonicNow shaper call.clock := by
  obtain ⟨event, clock, source⟩ := call
  cases event with
  | newFlow flow target transport => exact Or.inr (newFlow_lastNow flow transport)
  | data flow direction availableBytes =>
    obtain ⟨target, only⟩ := exists_only (shaper.tick clock) flow
    exact Or.inr (Changes.data only availableBytes).lastNow
  | resume pause =>
    obtain ⟨target, only⟩ := exists_only (shaper.tick clock) pause.flow
    exact Or.inr (Changes.resume only).lastNow
  | flowEnded flow => exact Or.inl rfl
  | settleStale => exact Or.inl rfl

theorem Sane.step (sane : Sane shaper) (call : Call) : Sane (step shaper call).1 := by
  obtain ⟨target, acts⟩ := step_acts shaper call
  refine ⟨Tokens.step sane call, step_distinct sane.distinct call, acts.capped sane.capped, ?_⟩
  rcases step_lastNow shaper call with same | same
  · rw [same]
    exact sane.clock
  · rw [same]
    exact monotonicNow_le sane call.clock

theorem sane_run (calls : List Call) : Sane (run step {} calls).1 := by
  have free : Meets step (fun _ _ => True) {} calls := Meets.of_forall step (fun _ _ _ => trivial) _
  exact free.state_invariant step Sane (fun _ call sane _ => Sane.step sane call) Sane.start

end Invariants

section Ledgers

/-- The ticket names one rule, and from the first call that finds it on, the target has a rule. -/
structure Lasting (rule : ShapingRule) (calls : List Call) : Prop where
  same : ∀ call ∈ calls, ∀ other, call.source.shapingRule rule.ticket.target = some other →
    other.ticket = rule.ticket → other = rule
  ruled : ∀ front call back, calls = front ++ call :: back →
    (∃ earlier ∈ front, Names rule earlier) →
    (call.source.shapingRule rule.ticket.target).isSome = true

theorem Lasting.prefix {front back : List Call} (lasting : Lasting rule (front ++ back)) :
    Lasting rule front := by
  refine ⟨fun call member => lasting.same call (mem_append_left _ member), ?_⟩
  intro first call rest split
  exact lasting.ruled first call (rest ++ back) (by rw [split]; simp)

/-- The ledger goes on through every call. -/
theorem Ledger.step {entries : List Entry} {past : List Grant}
    (ledger : Ledger rule direction rate shaper entries) (tally : Tally rule direction entries past)
    (sane : Sane shaper) (steady : Steady rule entries call.source)
    (limited : rule.profile.rate direction = some rate) (onTime : OnTime shaper call) :
    ∃ next, Accounts rule direction rate (step shaper call).1 call entries next
      (past ++ grantsOf shaper call) := by
  obtain ⟨target, acts⟩ := step_acts shaper call
  have ticked : Acts call.source target (shaper.tick call.clock) (FlowShaping.step shaper call).1 :=
    ⟨acts.capped, acts.later, acts.ruled, acts.others⟩
  have booking : Booking rule direction rate (shaper.tick call.clock)
      (FlowShaping.step shaper call).1 call (monotonicNow shaper call.clock) entries past :=
    ⟨sane.tick call.clock, monotonicNow_le sane call.clock, ledger.tick call.clock, tally, steady,
      ⟨target, ticked⟩, limited⟩
  exact booking.stepCase onTime (step_case sane.distinct call)

theorem ledger_run (limited : rule.profile.rate direction = some rate)
    (lasting : Lasting rule calls) (onTime : Meets step OnTime {} calls) :
    ∃ entries, Ledger rule direction rate (run step {} calls).1 entries ∧
      Tally rule direction entries (grantsFrom {} calls) ∧
      (entries ≠ [] → ∃ call ∈ calls, Names rule call) := by
  induction calls using List.reverseRecOn with
  | nil => exact ⟨[], Ledger.start, List.Perm.refl _, fun some => absurd rfl some⟩
  | append_singleton front call ih =>
    obtain ⟨entries, ledger, tally, named⟩ := ih lasting.prefix (onTime.append_left step)
    have steady : Steady rule entries call.source := by
      refine ⟨lasting.same call (by simp), fun reserved => ?_⟩
      exact lasting.ruled front call [] rfl (named reserved)
    have punctual : OnTime (run step {} front).1 call := (onTime.append_right step).1
    obtain ⟨next, accounts⟩ := ledger.step tally (sane_run front) steady limited punctual
    rw [run_append, run_cons, run_nil, grantsFrom_snoc]
    refine ⟨next, accounts.ledger, accounts.tally, fun reserved => ?_⟩
    by_cases names : Names rule call
    · exact ⟨call, by simp, names⟩
    · rw [accounts.unnamed names] at reserved
      obtain ⟨earlier, member, names⟩ := named reserved
      exact ⟨earlier, mem_append_left _ member, names⟩

end Ledgers

section Windows

variable {grants : List Grant} {low length : Nat}

def Grant.within (low length : Nat) (grant : Grant) : Bool :=
  low ≤ grant.time && grant.time ≤ low + length

/-- The grants under the rule in the window. While the rule is in force, its target has no others. -/
def windowOf (rule : ShapingRule) (direction : FlowDirection) (low length : Nat)
    (grants : List Grant) : List Grant :=
  grants.filter fun grant => grant.under rule direction && grant.within low length

def sumOf (grants : List Grant) : Nat := (grants.map Grant.bytes).sum

def debtsOf (grants : List Grant) : Nat := grants.countP Grant.debt

def largestOf : List Grant → Nat
  | [] => 0
  | grant :: rest => max grant.bytes (largestOf rest)

theorem le_largestOf {grant : Grant} (member : grant ∈ grants) :
    grant.bytes ≤ largestOf grants := by
  induction grants with
  | nil => cases member
  | cons first rest ih =>
    rcases mem_cons.mp member with rfl | later
    · exact Nat.le_max_left _ _
    · exact Nat.le_trans (ih later) (Nat.le_max_right _ _)

/-- Debts and other grants. -/
theorem sumOf_split (grants : List Grant) :
    sumOf grants = sumOf (grants.filter Grant.debt) + sumOf (grants.filter fun g => !g.debt) := by
  induction grants with
  | nil => rfl
  | cons grant rest ih =>
    unfold sumOf at *
    cases debt : grant.debt <;> simp [debt, ih] <;> omega

theorem sumOf_debts_le {largest : Nat} (bounded : ∀ grant ∈ grants, grant.bytes ≤ largest) :
    sumOf (grants.filter Grant.debt) ≤ debtsOf grants * largest := by
  induction grants with
  | nil => exact Nat.zero_le _
  | cons grant rest ih =>
    have tail := ih fun other member => bounded other (mem_cons_of_mem _ member)
    have first := bounded grant mem_cons_self
    unfold sumOf debtsOf at *
    cases debt : grant.debt with
    | true =>
      rw [filter_cons, debt, countP_cons, debt]
      simp only [if_true, map_cons, sum_cons]
      rw [Nat.add_mul, Nat.one_mul]
      omega
    | false =>
      rw [filter_cons, debt, countP_cons, debt]
      simpa using tail

/-- The entries released within the window. -/
def Entry.within (low length : Nat) (entry : Entry) : Bool :=
  entry.released.any fun time => low ≤ time && time ≤ low + length

theorem map_bytes_within (entries : List Entry) : ((entries.filterMap Entry.release?).filter
        fun release => decide (low ≤ release.1) && decide (release.1 ≤ low + length)).map Prod.snd =
      (entries.filter (Entry.within low length)).map Entry.bytes := by
  induction entries with
  | nil => rfl
  | cons entry rest ih =>
    cases released : entry.released with
    | none =>
      have silent : entry.release? = none := by rw [Entry.release?, released]; rfl
      have outside : ¬ entry.within low length = true := by simp [Entry.within, released]
      rw [filterMap_cons, silent, filter_cons, if_neg outside]
      exact ih
    | some time =>
      have reported : entry.release? = some (time, entry.bytes) := by
        rw [Entry.release?, released]
        rfl
      have inside : entry.within low length =
          (decide (low ≤ time) && decide (time ≤ low + length)) := by
        rw [Entry.within, released]
        rfl
      rw [filterMap_cons, reported, filter_cons, filter_cons, inside]
      dsimp only
      split
      · rw [map_cons, map_cons, ih]
      · exact ih

/-- The grants of the window that are no debts are the bytes of the entries released in it. -/
theorem paid_perm {entries : List Entry} (tally : Tally rule direction entries grants) :
    ((entries.filter (Entry.within low length)).map Entry.bytes).Perm
      (((windowOf rule direction low length grants).filter fun grant => !grant.debt).map
        Grant.bytes) := by
  let inside : Nat × Nat → Bool :=
    fun release => decide (low ≤ release.1) && decide (release.1 ≤ low + length)
  have chosen := (List.Perm.filter inside tally).map Prod.snd
  rw [map_bytes_within] at chosen
  refine chosen.trans (List.Perm.of_eq ?_)
  unfold windowOf
  rw [filter_map, List.map_map, filter_filter, filter_filter]
  congr 1
  apply filter_congr
  intro grant _
  simp only [inside, Function.comp_def, Grant.paid, Grant.within]
  cases grant.debt <;> cases grant.under rule direction <;> simp

/-- Over a window, the grants under a rule are bounded by the rate, the delay and the debts. -/
theorem window_bound (limited : rule.profile.rate direction = some rate)
    (lasting : Lasting rule calls) (onTime : Meets step OnTime {} calls) (low length : Nat) :
    let window := windowOf rule direction low length (grantsFrom {} calls)
    sumOf window * nanosecondsPerSecond ≤
      rate * (length + rule.profile.delayNanoseconds direction) +
        (1 + debtsOf window) * largestOf window * nanosecondsPerSecond := by
  intro window
  obtain ⟨entries, ledger, tally, _⟩ := ledger_run limited lasting onTime
  have positive : 0 < rate := by
    cases direction with
    | inbound => have := (rule.profile.inboundRate rate limited).1; omega
    | outbound => have := (rule.profile.outboundRate rate limited).1; omega
  have perm := @paid_perm rule direction _ low length entries tally
  change List.Perm _ ((window.filter fun grant => !grant.debt).map Grant.bytes) at perm
  have chosen : Separated Entry.slot (fun entry => spans entry.bytes rate)
      (entries.filter (Entry.within low length)) :=
    List.Pairwise.filter _ ledger.separated
  have inside : ∀ entry ∈ entries.filter (Entry.within low length),
      low - rule.profile.delayNanoseconds direction ≤ entry.slot ∧ entry.slot ≤ low + length := by
    intro entry member
    obtain ⟨there, within⟩ := mem_filter.mp member
    obtain ⟨time, released, window⟩ := (Option.any_eq_true _ _).mp within
    have near := ledger.timely entry there time released
    simp only [Bool.and_eq_true, decide_eq_true_eq] at window
    unfold Entry.near at near
    omega
  have bounded : ∀ entry ∈ entries.filter (Entry.within low length),
      entry.bytes ≤ largestOf window := by
    intro entry member
    have listed := perm.subset (mem_map_of_mem member)
    obtain ⟨grant, there, same⟩ := mem_map.mp listed
    rw [← same]
    exact le_largestOf (mem_filter.mp there).1
  have paid := Separated.sum_le _ _ Entry.bytes chosen
    (fun entry _ => le_spans entry.bytes rate positive) inside bounded
  rw [perm.sum_eq] at paid
  have debts : sumOf (window.filter Grant.debt) ≤ debtsOf window * largestOf window :=
    sumOf_debts_le fun grant member => le_largestOf member
  have owed := Nat.mul_le_mul_right nanosecondsPerSecond debts
  have span : rate * (low + length - (low - rule.profile.delayNanoseconds direction)) ≤
      rate * (length + rule.profile.delayNanoseconds direction) :=
    Nat.mul_le_mul_left rate (by omega)
  calc sumOf window * nanosecondsPerSecond
      = sumOf (window.filter Grant.debt) * nanosecondsPerSecond +
          sumOf (window.filter fun grant => !grant.debt) * nanosecondsPerSecond := by
        rw [sumOf_split window, Nat.add_mul]
    _ ≤ debtsOf window * largestOf window * nanosecondsPerSecond +
          (rate * (length + rule.profile.delayNanoseconds direction) +
            largestOf window * nanosecondsPerSecond) :=
        Nat.add_le_add owed (Nat.le_trans paid (Nat.add_le_add_right span _))
    _ = _ := by ring

end Windows

section Timelines

/-- While its target has a rule, a reservation timeline stays, and never moves backwards. -/
theorem later_run {target : NetworkRuleTarget} {timeline : Timeline} (sane : Sane shaper)
    (ruled : ∀ call ∈ calls, (call.source.shapingRule target).isSome = true)
    (found : get? shaper.timelines target = some timeline) :
    ∃ later, get? (run step shaper calls).1.timelines target = some later ∧
      ∀ direction, timeline.next direction ≤ later.next direction := by
  induction calls generalizing shaper timeline with
  | nil => exact ⟨timeline, found, fun _ => Nat.le_refl _⟩
  | cons call rest ih =>
    obtain ⟨about, acts⟩ := step_acts shaper call
    obtain ⟨next, there, further⟩ :=
      acts.later sane.capped target (ruled call mem_cons_self) timeline found
    obtain ⟨last, here, beyond⟩ := ih (Sane.step sane call)
      (fun other member => ruled other (mem_cons_of_mem _ member)) there
    exact ⟨last, here, fun direction => Nat.le_trans (further direction) (beyond direction)⟩

end Timelines

section Sizes

variable {outputs : List Output} {after : FlowShaper} {flow : String} {tracked : Flow}
variable {pending : Pending}

/-- A ticket names one rule. -/
def OneProfile (calls : List Call) : Prop :=
  ∀ first ∈ calls, ∀ second ∈ calls, ∀ target other one two,
    first.source.shapingRule target = some one → second.source.shapingRule other = some two →
    one.ticket = two.ticket → one = two

/-- The bytes that a pause of data holds are of the callback that was answered with it, and no more
than the quantum of the rule that it was paused under. -/
structure Backed (calls : List Call) (outputs : List Output) (flow : String) (tracked : Flow)
    (pending : Pending) (direction : FlowDirection) : Prop where
  offered : ∃ availableBytes, .data flow direction availableBytes (.pause pending.pause) ∈ outputs ∧
    pending.bytes ≤ availableBytes.toNat
  quantum : ∃ call ∈ calls, ∃ rule, call.source.shapingRule tracked.target = some rule ∧
    rule.ticket = pending.ticket ∧
    (tracked.transport = .stream → (rule.profile.rate direction).isSome = true →
      pending.bytes ≤ rule.profile.quantum direction)

def AllBacked (calls : List Call) (outputs : List Output) (shaper : FlowShaper) : Prop :=
  ∀ flow tracked pending direction, get? shaper.flows flow = some tracked →
    tracked.pending = some pending → pending.pause.phase = .data direction →
    Backed calls outputs flow tracked pending direction

/-- A verdict passes no more than was offered to its own callback: of `data`, this one; of `resume`,
the one that was answered with the pause. -/
def Offered (past : List Output) : Output → Prop
  | .data _ _ availableBytes decision => decision.passed ≤ availableBytes.toNat
  | .resumed pause outcome => 0 < outcome.passed → ∃ direction availableBytes,
      .data pause.flow direction availableBytes (.pause pause) ∈ past ∧
      pause.phase = .data direction ∧ outcome.passed ≤ availableBytes.toNat
  | _ => True

theorem Offered.of_silent {output : Output} (silent : output.passed = 0) :
    Offered outputs output := by
  cases output with
  | data flow direction availableBytes decision =>
    exact Nat.le_trans (Nat.le_of_eq silent) (Nat.zero_le _)
  | resumed pause outcome => exact fun some => absurd silent (Nat.ne_of_gt some)
  | newFlow flow decision => trivial
  | ended flow settlement => trivial
  | stale settlements => trivial

/-- A grant to a stream in a direction with a rate is no more than the quantum of its rule. -/
def Grant.WithinQuantum (grant : Grant) : Prop :=
  grant.transport = .stream → (grant.rule.profile.rate grant.direction).isSome = true →
    grant.bytes ≤ grant.rule.profile.quantum grant.direction

variable {more : List Output}

theorem Backed.carried (backed : AllBacked calls outputs shaper)
    (carried : Carried shaper flow tracked pending)
    (phase : pending.pause.phase = .data direction) (call : Call) :
    Backed (calls ++ [call]) (outputs ++ more) flow tracked pending direction := by
  obtain ⟨earlier, held, found, holds, target, transport, same⟩ := carried
  rw [same.pause] at phase
  obtain ⟨⟨availableBytes, told, small⟩, reader, member, rule, ruling, ticket, quantum⟩ :=
    backed flow earlier held direction found holds phase
  rw [target] at ruling
  rw [transport] at quantum
  refine ⟨⟨availableBytes, ?_, ?_⟩, reader, mem_append_left _ member, rule, ruling, ?_, ?_⟩
  · rw [same.pause]
    exact mem_append_left _ told
  · rw [same.bytes]
    exact small
  · rw [same.ticket]
    exact ticket
  · rw [same.bytes]
    exact quantum

theorem AllBacked.carries (backed : AllBacked calls outputs shaper) (carries : Carries shaper after)
    (call : Call) :
    AllBacked (calls ++ [call]) (outputs ++ more) after :=
  fun flow tracked pending _ found paused phase =>
    Backed.carried backed (carries.pendings flow tracked pending found paused) phase call

/-- A new pause, and the older ones. -/
theorem AllBacked.pauses {target : NetworkRuleTarget} {transport : FlowTransport} {fresh : Pending}
    (backed : AllBacked calls outputs shaper)
    (pauses : Pauses flow target transport fresh shaper after) (call : Call)
    (own : ∀ (stored : Flow) direction, stored.target = target → stored.transport = transport →
      fresh.pause.phase = .data direction →
      Backed (calls ++ [call]) (outputs ++ more) flow stored fresh direction) :
    AllBacked (calls ++ [call]) (outputs ++ more) after := by
  obtain ⟨stored, there, holds, place, carrier⟩ := pauses.own
  intro other tracked pending direction found paused phase
  by_cases same : other = flow
  · subst same
    rw [there] at found
    cases found
    rw [holds] at paused
    cases paused
    exact own stored direction place carrier phase
  · exact Backed.carried backed (pauses.pendings other tracked pending same found paused) phase call

theorem AllBacked.step (backed : AllBacked calls outputs shaper)
    (distinct : (keys shaper.flows).Nodup) (call : Call) :
    AllBacked (calls ++ [call]) (outputs ++ (step shaper call).2) (step shaper call).1 ∧
      (∀ output ∈ (step shaper call).2, Offered outputs output) ∧
      (OneProfile (calls ++ [call]) → ∀ grant ∈ grantsOf shaper call, grant.WithinQuantum) := by
  have ticked : AllBacked calls outputs (shaper.tick call.clock) := backed
  have last : call ∈ calls ++ [call] := mem_append_right _ mem_cons_self
  have happened := step_case distinct call
  generalize (FlowShaping.step shaper call).2 = told at happened ⊢
  generalize grantsOf shaper call = grants at happened ⊢
  have quiet : ∀ output ∈ told, output.passed = 0 → Offered outputs output :=
    fun output _ silent => Offered.of_silent silent
  cases happened with
  | quiet carries silent =>
    exact ⟨ticked.carries carries call, fun output member => .of_silent (silent output member),
      fun _ => nofun⟩
  | hold flow target transport fresh phase pauses silent =>
    refine ⟨ticked.pauses pauses call fun stored _ _ _ other => ?_,
      fun output member => .of_silent (silent output member), fun _ => nofun⟩
    rw [phase] at other
    cases other
  | data flow side availableBytes tracked own decision given told found ruling happened =>
    subst told
    have fits : ∀ grant, Granted grant flow tracked.transport own side
          (monotonicNow shaper call.clock) →
        Sized grant.bytes tracked.transport own side availableBytes.toNat →
        ∀ other ∈ (some grant).toList, other.WithinQuantum := by
      intro grant granted sized other member
      rw [mem_singleton.mp member]
      unfold Grant.WithinQuantum
      rw [granted.transport, granted.rule, granted.direction]
      exact sized.quantum
    have offers : decision.passed ≤ availableBytes.toNat →
        ∀ output ∈ [Output.data flow side availableBytes decision], Offered outputs output := by
      intro small output member
      rw [mem_singleton.mp member]
      exact small
    cases happened with
    | quiet carries silent =>
      exact ⟨ticked.carries carries call, offers (by omega), fun _ => nofun⟩
    | debt grant carries owed granted passed sized =>
      exact ⟨ticked.carries carries call, offers (passed ▸ sized.offered),
        fun _ => fits grant granted sized⟩
    | pause fresh slot told paused =>
      subst told
      refine ⟨ticked.pauses paused.pauses call fun stored direction place carrier phase => ?_,
        offers (Nat.zero_le _), fun _ => nofun⟩
      rw [paused.phase] at phase
      cases phase
      refine ⟨⟨availableBytes, mem_append_right _ mem_cons_self, paused.sized.offered⟩,
        call, last, own, ?_, paused.ticket.symm, ?_⟩
      · rw [place, call.source.named _ own ruling]
        exact ruling
      · rw [carrier]
        exact paused.sized.quantum
    | pass grant carries paid granted passed sized charged room =>
      exact ⟨ticked.carries carries call, offers (passed ▸ sized.offered),
        fun _ => fits grant granted sized⟩
  | resume pause outcome given event told happened =>
    subst told
    have offers : ∀ (tracked : Flow) pending side, get? shaper.flows pause.flow = some tracked →
        tracked.pending = some pending → pending.pause = pause → pause.phase = .data side →
        outcome.passed ≤ pending.bytes →
        ∀ output ∈ [Output.resumed pause outcome], Offered outputs output := by
      intro tracked pending side found paused token phase small output member
      rw [mem_singleton.mp member]
      obtain ⟨availableBytes, there, offered⟩ :=
        (ticked pause.flow tracked pending side found paused (by rw [token]; exact phase)).offered
      rw [token] at there
      exact fun _ => ⟨side, availableBytes, there, phase, Nat.le_trans small offered⟩
    cases happened with
    | quiet carries silent =>
      refine ⟨ticked.carries carries call, fun output member => ?_, fun _ => nofun⟩
      rw [mem_singleton.mp member]
      exact .of_silent silent
    | debt grant tracked pending own side found paused token phase ruling carries owed granted
        passed sized =>
      refine ⟨ticked.carries carries call, offers tracked pending side found paused token phase
        (passed ▸ sized.offered), fun _ other member => ?_⟩
      rw [mem_singleton.mp member]
      unfold Grant.WithinQuantum
      rw [granted.transport, granted.rule, granted.direction]
      exact sized.quantum
    | release grant tracked pending own side found paused token phase ruling ticket due carries
        unpaused paid granted passed bytes =>
      refine ⟨ticked.carries carries call, offers tracked pending side found paused token phase
        (Nat.le_of_eq (passed.trans bytes)), fun single other member => ?_⟩
      obtain ⟨reader, there, rule, read, same, quantum⟩ :=
        (ticked pause.flow tracked pending side found paused (by rw [token]; exact phase)).quantum
      have equal : rule = own :=
        single reader (mem_append_left _ there) call last _ _ rule own read ruling
          (same.trans ticket.symm)
      subst equal
      rw [mem_singleton.mp member]
      unfold Grant.WithinQuantum
      rw [granted.transport, granted.rule, granted.direction, bytes]
      exact quantum

theorem backed_run (calls : List Call) :
    AllBacked calls (run step {} calls).2 (run step {} calls).1 := by
  induction calls using List.reverseRecOn with
  | nil =>
    intro flow tracked pending direction found
    cases found
  | append_singleton front call ih =>
    rw [run_append, run_cons, run_nil]
    dsimp only
    rw [append_nil]
    exact (ih.step (sane_run front).distinct call).1

/-- Every verdict of a run passes no more than its own callback was offered. -/
theorem offered_run {past rest : List Output} {output : Output}
    (told : (run step {} calls).2 = past ++ output :: rest) : Offered past output := by
  induction calls using List.reverseRecOn generalizing rest with
  | nil => simp at told
  | append_singleton front call ih =>
    rw [run_append, run_cons, run_nil] at told
    dsimp only at told
    rw [append_nil] at told
    obtain ⟨_, offers, _⟩ := (backed_run front).step (sane_run front).distinct call
    obtain ⟨last, single⟩ : ∃ last, (FlowShaping.step (run step {} front).1 call).2 = [last] := by
      obtain ⟨event, clock, source⟩ := call
      cases event <;> exact ⟨_, rfl⟩
    rw [single] at told offers
    rcases eq_nil_or_concat rest with rfl | ⟨later, other, rfl⟩
    · obtain ⟨same, new⟩ := append_inj' told rfl
      cases new
      rw [← same]
      exact offers output mem_cons_self
    · rw [concat_eq_append, ← cons_append, ← append_assoc] at told
      exact ih (append_inj' told rfl).1

theorem quantum_run (single : OneProfile calls) :
    ∀ grant ∈ grantsFrom {} calls, grant.WithinQuantum := by
  induction calls using List.reverseRecOn with
  | nil => exact nofun
  | append_singleton front call ih =>
    rw [grantsFrom_snoc]
    intro grant member
    rcases mem_append.mp member with old | new
    · exact ih (fun first one second two =>
        single first (mem_append_left _ one) second (mem_append_left _ two)) grant old
    · exact ((backed_run front).step (sane_run front).distinct call).2.2 single grant new

end Sizes

end AutoMobile.FlowShaping
