import AutoMobile.NetworkRuleFencing

/- What holds of every run of the store's calls: the order of what was accepted, the leases that
reported rules stand on, and what a command or a drop may do to the active rules. -/
namespace AutoMobile.NetworkRules

open List hiding keys
open FlowShaping InsertionMap Runs

section Histories

/-- The command that was answered, and its outcome. -/
def Answer.outcome? (answer : Answer) : Option (NetworkRuleCommand × NetworkRuleOutcome) :=
  match answer.call.request, answer.reply with
  | .execute command, .result result => some (command, result.outcome)
  | _, _ => none

def NetworkRuleCommand.mark (command : NetworkRuleCommand) : Mark :=
  markOf command.target command.ownership

/-- The mark of an accepted apply. -/
def Answer.applied? (answer : Answer) : Option Mark :=
  answer.outcome?.bind fun (command, outcome) =>
    if outcome = .applied then some command.mark else none

/-- The mark of an accepted reset. -/
def Answer.reset? (answer : Answer) : Option Mark :=
  answer.outcome?.bind fun (command, outcome) =>
    if outcome = .reset then some command.mark else none

/-- The mark of an accepted apply, or of a reset that changed the store. -/
def Answer.accepted? (answer : Answer) : Option Mark :=
  answer.outcome?.bind fun (command, outcome) =>
    if outcome = .applied ∨ (outcome = .reset ∧ answer.changed) then some command.mark else none

/-- The marks of the rules that ended as expired, and of the reset. -/
def Answer.fences (answer : Answer) : List Mark := marksOf answer.ended ++ answer.reset?.toList

/-- The lease that an accepted apply or renew gave the target's rule. -/
def Answer.leaseOf (target : NetworkRuleTarget) (answer : Answer) :
    Option (NetworkRuleTicket × Nat) :=
  answer.outcome?.bind fun (command, outcome) =>
    if (outcome = .applied ∨ outcome = .renewed) ∧ command.target = target then
      command.leaseMilliseconds.map fun lease =>
        (ticketOf command.target command.ownership, answer.call.now + lease * 1000000)
    else none

def acceptedOf (answers : List Answer) : List Mark := answers.filterMap Answer.accepted?

def fencesOf (answers : List Answer) : List Mark := answers.flatMap Answer.fences

/-- The lease of the last accepted apply or renew for the target. -/
def lastLease (target : NetworkRuleTarget) (answers : List Answer) :
    Option (NetworkRuleTicket × Nat) :=
  answers.foldl (fun last answer => (answer.leaseOf target).or last) none

def NetworkRuleStatus.ticket (status : NetworkRuleStatus) : NetworkRuleTicket :=
  ⟨status.target, status.owner, status.ownerGeneration, status.revision⟩

/-- The rules that an answer reports, evaluates or renews. -/
def Answer.tickets (answer : Answer) : List NetworkRuleTicket :=
  match answer.call.request, answer.reply with
  | _, .statuses statuses => statuses.map NetworkRuleStatus.ticket
  | _, .snapshot (some snapshot) => snapshot.tickets.map Prod.snd
  | .commitDrop ticket, .dropped true => [ticket]
  | _, .rule (some rule) => [rule.ticket]
  | .execute command, .result result =>
    if result.outcome = .renewed then [ticketOf command.target command.ownership] else []
  | _, _ => []

/-- The targets whose shaped rules a snapshot reports. -/
def Answer.shapedTargets (answer : Answer) : List NetworkRuleTarget :=
  match answer.reply with
  | .snapshot (some snapshot) => snapshot.shapedTargets
  | _ => []

theorem acceptedOf_append (front : List Answer) (answer : Answer) :
    acceptedOf (front ++ [answer]) = acceptedOf front ++ answer.accepted?.toList := by
  unfold acceptedOf
  rw [filterMap_append]
  cases accepted : answer.accepted? <;> simp [accepted]

theorem fencesOf_append (front : List Answer) (answer : Answer) :
    fencesOf (front ++ [answer]) = fencesOf front ++ answer.fences := by
  unfold fencesOf
  rw [flatMap_append]
  simp

theorem lastLease_append (target : NetworkRuleTarget) (front : List Answer) (answer : Answer) :
    lastLease target (front ++ [answer]) = (answer.leaseOf target).or (lastLease target front) := by
  unfold lastLease
  rw [foldl_append]
  rfl

/-- Every active rule stands on the last lease of its target. -/
def Leased (store : NetworkRuleStore) (answers : List Answer) : Prop :=
  ∀ target rule, get? store.rules target = some rule →
    lastLease target answers = some (rule.ticket target, rule.expiresAt)

/-- A lease of the answers that has not ended at `now`. -/
def Standing (answers : List Answer) (now : Nat) (target : NetworkRuleTarget)
    (ticket : NetworkRuleTicket) : Prop :=
  ∃ expiresAt, lastLease target answers = some (ticket, expiresAt) ∧ now < expiresAt

/-- How an answer follows those before it. -/
structure Follows (front : List Answer) (answer : Answer) : Prop where
  accepted : ∀ mark, answer.accepted? = some mark →
    ∀ earlier ∈ acceptedOf front, earlier.1 = mark.1 → earlier.2 ≤ mark.2
  applied : ∀ mark, answer.applied? = some mark →
    ∀ fence ∈ fencesOf front ++ marksOf answer.ended, fence.1 = mark.1 → fence.2 < mark.2
  tickets : ∀ ticket ∈ answer.tickets, Standing front answer.call.now ticket.target ticket
  targets : ∀ target ∈ answer.shapedTargets, ∃ ticket, Standing front answer.call.now target ticket

end Histories

section Steps

variable {pairs : List TombstoneKey} {store next : NetworkRuleStore} {front : List Answer}
variable {answer : Answer}

/-- The store and its history fit. -/
structure Sound (pairs : List TombstoneKey) (answers : List Answer) (store : NetworkRuleStore) :
    Prop where
  fenced : Fenced pairs (acceptedOf answers) (fencesOf answers) store
  leased : Leased store answers

/-- The history once the store has been swept, before the answer is given. -/
structure Swept (pairs : List TombstoneKey) (front : List Answer) (now : Nat)
    (ended : List (NetworkRuleTarget × Rule)) (store : NetworkRuleStore) : Prop where
  fenced : Fenced pairs (acceptedOf front) (fencesOf front ++ marksOf ended) store
  leased : Leased store front
  live : ∀ target rule, get? store.rules target = some rule → now < rule.expiresAt

theorem Sound.sweep (sound : Sound pairs front store) (few : pairs.length ≤ maximumTombstones)
    (now : Nat) : Swept pairs front now (expired store now) (sweep store now) := by
  refine ⟨sound.fenced.sweep few now, ?_, ?_⟩
  · intro target rule found
    rw [get?_sweep sound.fenced.distinct] at found
    exact sound.leased target rule (Option.filter_eq_some_iff.mp found).1
  · intro target rule found
    rw [get?_sweep sound.fenced.distinct] at found
    exact of_decide_eq_true (Option.filter_eq_some_iff.mp found).2

/-- A rule of the swept store stands on its lease. -/
theorem Swept.standing {now : Nat} {ended : List (NetworkRuleTarget × Rule)}
    (swept : Swept pairs front now ended store) {target : NetworkRuleTarget} {rule : Rule}
    (found : get? store.rules target = some rule) :
    Standing front now target (rule.ticket target) :=
  ⟨rule.expiresAt, swept.leased target rule found, swept.live target rule found⟩

/-- An answer that accepts no command. -/
theorem Swept.quiet {now : Nat} (swept : Swept pairs front now answer.ended store)
    (same : answer.accepted? = none) (unset : answer.reset? = none)
    (unleased : ∀ target, answer.leaseOf target = none) :
    Sound pairs (front ++ [answer]) store := by
  refine ⟨?_, ?_⟩
  · rw [acceptedOf_append, fencesOf_append, same, Answer.fences, unset]
    simpa using swept.fenced
  · intro target rule found
    rw [lastLease_append, unleased]
    exact swept.leased target rule found

/-- An answer that gives no command's outcome accepts none. -/
theorem silent_answer (silent : answer.outcome? = none) :
    answer.accepted? = none ∧ answer.applied? = none ∧ answer.reset? = none ∧
      ∀ target, answer.leaseOf target = none := by
  unfold Answer.accepted? Answer.applied? Answer.reset? Answer.leaseOf
  rw [silent]
  exact ⟨rfl, rfl, rfl, fun _ => rfl⟩

theorem refused_answer {command : NetworkRuleCommand} {result : NetworkRuleResult}
    (outcome : answer.outcome? = some (command, result.outcome)) (refused : Refused result) :
    answer.accepted? = none ∧ answer.applied? = none ∧ answer.reset? = none ∧
      ∀ target, answer.leaseOf target = none := by
  obtain ⟨unapplied, unreset, unrenewed⟩ := refused
  unfold Answer.accepted? Answer.applied? Answer.reset? Answer.leaseOf
  rw [outcome]
  simp [unapplied, unreset, unrenewed]

/-- An answer that accepts nothing, and reports rules that stand. -/
theorem Follows.quiet (same : answer.accepted? = none) (unapplied : answer.applied? = none)
    (tickets : ∀ ticket ∈ answer.tickets, Standing front answer.call.now ticket.target ticket)
    (targets : ∀ target ∈ answer.shapedTargets,
      ∃ ticket, Standing front answer.call.now target ticket) : Follows front answer := by
  refine ⟨?_, ?_, tickets, targets⟩
  · intro mark accepted
    rw [same] at accepted
    cases accepted
  · intro mark applied
    rw [unapplied] at applied
    cases applied

/-- The store keeps its rules, tombstones and fences when a rule's lease or count changes. -/
theorem Fenced.renewed {accepted fences : List Mark} {target : NetworkRuleTarget}
    {before rule : Rule} (fenced : Fenced pairs accepted fences store)
    (found : get? store.rules target = some before) (same : rule.ownership = before.ownership) :
    Fenced pairs accepted fences { store with rules := InsertionMap.put store.rules target rule } := by
  have named : keyOf target rule.ownership ∈ pairs := by
    rw [same]
    exact fenced.allowed target before found
  have older : Older store target rule.ownership := by
    intro existing there
    rw [found] at there
    cases there
    rw [same]
    exact ⟨rfl, le_refl _⟩
  have stored := fenced.put named older
    (fun tombstone there => by
      rw [same] at there ⊢
      exact fenced.above target before tombstone found there)
    (fun missing => by
      rw [found] at missing
      cases missing)
  exact stored.fewer (subset_append_left _ _)

variable {call : Call}

/-- The answer to a call. -/
def answerOf (store : NetworkRuleStore) (call : Call) (next : NetworkRuleStore) (reply : Reply) :
    Answer :=
  { call := call
    reply := reply
    ended := endedBy store call
    changed := next ≠ NetworkRules.sweep store call.now }

/-- What a call does to the store and its history. -/
def Goes (pairs : List TombstoneKey) (front : List Answer) (next : NetworkRuleStore)
    (answer : Answer) : Prop :=
  Sound pairs (front ++ [answer]) next ∧ Follows front answer

/-- A call that only sweeps the store, and reports rules that stand. -/
theorem Sound.sweeps {call : Call} {reply : Reply} (sound : Sound pairs front store)
    (few : pairs.length ≤ maximumTombstones) (ended : endedBy store call = expired store call.now)
    (silent : (answerOf store call (NetworkRules.sweep store call.now) reply).outcome? = none)
    (tickets : Swept pairs front call.now (expired store call.now)
        (NetworkRules.sweep store call.now) →
      ∀ ticket ∈ (answerOf store call (NetworkRules.sweep store call.now) reply).tickets,
        Standing front call.now ticket.target ticket)
    (targets : Swept pairs front call.now (expired store call.now)
        (NetworkRules.sweep store call.now) →
      ∀ target ∈ (answerOf store call (NetworkRules.sweep store call.now) reply).shapedTargets,
        ∃ ticket, Standing front call.now target ticket) :
    Goes pairs front (NetworkRules.sweep store call.now)
      (answerOf store call (NetworkRules.sweep store call.now) reply) := by
  have swept := sound.sweep few call.now
  obtain ⟨same, unapplied, unset, unleased⟩ := silent_answer silent
  have whole : Swept pairs front call.now
      (answerOf store call (NetworkRules.sweep store call.now) reply).ended
      (NetworkRules.sweep store call.now) := by
    show Swept pairs front call.now (endedBy store call) _
    rw [ended]
    exact swept
  exact ⟨whole.quiet same unset unleased,
    Follows.quiet same unapplied (tickets swept) (targets swept)⟩

theorem activeRules_goes (sound : Sound pairs front store)
    (few : pairs.length ≤ maximumTombstones) (now : Nat) :
    Goes pairs front (activeRules store now).1
      (answerOf store ⟨now, .activeRules⟩ (activeRules store now).1
        (.statuses (activeRules store now).2)) := by
  refine @Sound.sweeps pairs store front ⟨now, .activeRules⟩ _ sound few rfl rfl ?_ ?_
  · intro swept ticket member
    obtain ⟨status, listed, equal⟩ := mem_map.mp member
    obtain ⟨entry, there, made⟩ := mem_map.mp (mem_mergeSort.mp listed)
    have found := get?_of_mem swept.fenced.distinct there
    rw [← equal, ← made]
    exact swept.standing found
  · intro _ target member
    cases member

theorem evaluationSnapshot_goes (sound : Sound pairs front store)
    (few : pairs.length ≤ maximumTombstones) (now : Nat) :
    Goes pairs front (evaluationSnapshot store now).1
      (answerOf store ⟨now, .evaluationSnapshot⟩ (evaluationSnapshot store now).1
        (.snapshot (evaluationSnapshot store now).2)) := by
  unfold evaluationSnapshot
  dsimp only
  split
  next =>
    refine @Sound.sweeps pairs store front ⟨now, .evaluationSnapshot⟩ _ sound few rfl rfl ?_ ?_
    · intro _ ticket member
      cases member
    · intro _ target member
      cases member
  next =>
    refine @Sound.sweeps pairs store front ⟨now, .evaluationSnapshot⟩ _ sound few rfl rfl ?_ ?_
    · intro swept ticket member
      obtain ⟨pair, listed, equal⟩ := mem_map.mp member
      obtain ⟨entry, there, made⟩ := mem_map.mp listed
      have found := get?_of_mem swept.fenced.distinct (mem_filter.mp there).1
      rw [← equal, ← made]
      exact swept.standing found
    · intro swept target member
      obtain ⟨entry, there, made⟩ := mem_map.mp member
      have found := get?_of_mem swept.fenced.distinct (mem_filter.mp there).1
      rw [← made]
      exact ⟨_, swept.standing found⟩

theorem shapingRule_goes (sound : Sound pairs front store)
    (few : pairs.length ≤ maximumTombstones) (now : Nat) (target : NetworkRuleTarget) :
    Goes pairs front (shapingRule store target now).1
      (answerOf store ⟨now, .shapingRule target⟩ (shapingRule store target now).1
        (.rule (shapingRule store target now).2)) := by
  refine @Sound.sweeps pairs store front ⟨now, .shapingRule target⟩ _ sound few rfl rfl ?_ ?_
  · intro swept ticket member
    unfold answerOf shapingRule at member
    dsimp only at member
    cases found : get? (NetworkRules.sweep store now).rules target with
    | none =>
      rw [found] at member
      cases member
    | some rule =>
      rw [found] at member
      cases condition : rule.condition with
      | offline =>
        rw [Option.bind_some, condition] at member
        cases member
      | shaped profile =>
        rw [Option.bind_some, condition] at member
        rw [mem_singleton.mp member]
        exact swept.standing found
  · intro _ other member
    cases member

theorem commitDrop_goes (sound : Sound pairs front store)
    (few : pairs.length ≤ maximumTombstones) (now : Nat) (ticket : NetworkRuleTicket) :
    Goes pairs front (commitDrop store ticket now).1
      (answerOf store ⟨now, .commitDrop ticket⟩ (commitDrop store ticket now).1
        (.dropped (commitDrop store ticket now).2)) := by
  have idle : Goes pairs front (NetworkRules.sweep store now)
      (answerOf store ⟨now, .commitDrop ticket⟩ (NetworkRules.sweep store now)
        (.dropped false)) := by
    refine @Sound.sweeps pairs store front ⟨now, .commitDrop ticket⟩ _ sound few rfl rfl ?_ ?_
    · intro _ other member
      cases member
    · intro _ other member
      cases member
  unfold commitDrop
  dsimp only
  split
  next rule found =>
    split
    next exact' =>
      have swept := sound.sweep few now
      obtain ⟨same, unapplied, unset, unleased⟩ :=
        @silent_answer (answerOf store ⟨now, .commitDrop ticket⟩
          { NetworkRules.sweep store now with
            rules := put (NetworkRules.sweep store now).rules ticket.target
              { rule with droppedFlows := (rule.droppedFlows + 1) % 2 ^ 64 } } (.dropped true)) rfl
      have counted : Swept pairs front now (expired store now)
          { NetworkRules.sweep store now with
            rules := put (NetworkRules.sweep store now).rules ticket.target
              { rule with droppedFlows := (rule.droppedFlows + 1) % 2 ^ 64 } } := by
        refine ⟨swept.fenced.renewed found rfl, ?_, ?_⟩
        · intro other kept there
          rcases of_get?_put there with ⟨own, rfl⟩ | ⟨_, there⟩
          · rw [← own]
            exact swept.leased _ rule found
          · exact swept.leased other kept there
        · intro other kept there
          rcases of_get?_put there with ⟨own, rfl⟩ | ⟨_, there⟩
          · exact swept.live _ rule found
          · exact swept.live other kept there
      refine ⟨counted.quiet same unset unleased, Follows.quiet same unapplied ?_ ?_⟩
      · intro other member
        rw [mem_singleton.mp member]
        have standing := swept.standing found
        rw [exact'.2] at standing
        exact standing
      · intro other member
        cases member
    next => exact idle
  next => exact idle

/-- The stores have the same tombstones. -/
def SameTombstones (first second : NetworkRuleStore) : Prop :=
  first.tombstones = second.tombstones ∧ first.tombstoneOrder = second.tombstoneOrder

theorem bury_sameTombstones {first second : NetworkRuleStore}
    (same : SameTombstones first second) (target : NetworkRuleTarget)
    (ownership : NetworkRuleOwnership) (byReset : Bool) :
    SameTombstones (bury first target ownership byReset) (bury second target ownership byReset) := by
  obtain ⟨tombstones, order⟩ := same
  unfold bury SameTombstones
  rw [tombstones, order]
  dsimp only
  split
  · exact ⟨tombstones, order⟩
  · exact ⟨rfl, rfl⟩

theorem buryAll_sameTombstones {first second : NetworkRuleStore}
    (same : SameTombstones first second) (entries : List (NetworkRuleTarget × Rule)) :
    SameTombstones
      (entries.foldl (fun buried entry => bury buried entry.1 entry.2.ownership false) first)
      (entries.foldl expire second) := by
  induction entries generalizing first second with
  | nil => exact same
  | cons entry rest ih =>
    have erased : SameTombstones first { second with rules := erase second.rules entry.1 } := same
    exact ih (bury_sameTombstones erased entry.1 entry.2.ownership false)

theorem Fenced.removeAll {accepted fences : List Mark}
    (fenced : Fenced pairs accepted fences store) (few : pairs.length ≤ maximumTombstones) :
    Fenced pairs accepted (fences ++ marksOf store.rules) (removeAll store) := by
  have ended := fenced.expireAll few fenced.distinct
    (fun entry member => get?_of_mem fenced.distinct member)
  have gone : ∀ target, get? (store.rules.foldl NetworkRules.expire store).rules target = none := by
    intro target
    rw [get?_expireAll]
    split
    · rfl
    next absent => exact (get?_eq_none_iff _ _).mpr absent
  obtain ⟨tombstones, order⟩ := @buryAll_sameTombstones store store ⟨rfl, rfl⟩ store.rules
  have level : ∀ mark, Buried (store.rules.foldl NetworkRules.expire store) mark →
      Buried (NetworkRules.removeAll store) mark :=
    fun mark buried => buried.of_tombstones tombstones
  refine ⟨⟨?_, ?_, ?_⟩, nodup_keys_nil, Nat.zero_le _, ?_, ?_, ?_, ?_⟩
  · show List.Nodup (List.foldl _ store store.rules).tombstoneOrder
    rw [order]
    exact ended.tidy.distinct
  · show ∀ key ∈ (List.foldl _ store store.rules).tombstoneOrder, _
    rw [order]
    exact ended.tidy.among
  · show ∀ key, key ∈ (List.foldl _ store store.rules).tombstoneOrder ↔
      (get? (List.foldl _ store store.rules).tombstones key).isSome = true
    rw [order, tombstones]
    exact ended.tidy.listed
  · intro target rule found
    cases found
  · intro target rule tombstone found
    cases found
  · intro mark member
    rcases ended.accepted mark member with buried | ⟨rule, there, _⟩
    · exact Or.inl (level mark buried)
    · rw [gone] at there
      cases there
  · intro mark member
    exact level mark (ended.fences mark member)

theorem removeAll_goes (sound : Sound pairs front store)
    (few : pairs.length ≤ maximumTombstones) (now : Nat) :
    Goes pairs front (removeAll store)
      (answerOf store ⟨now, .removeAll⟩ (removeAll store) .removed) := by
  obtain ⟨same, unapplied, unset, unleased⟩ :=
    @silent_answer (answerOf store ⟨now, .removeAll⟩ (removeAll store) .removed) rfl
  have cleared : Swept pairs front now store.rules (removeAll store) := by
    refine ⟨sound.fenced.removeAll few, ?_, ?_⟩
    · intro target rule found
      cases found
    · intro target rule found
      cases found
  refine ⟨cleared.quiet same unset unleased, Follows.quiet same unapplied ?_ ?_⟩
  · intro ticket member
    cases member
  · intro target member
    cases member

end Steps

section Commands

variable {pairs : List TombstoneKey} {store next : NetworkRuleStore} {front : List Answer}
variable {answer : Answer} {command : NetworkRuleCommand} {now : Nat}
variable {result : NetworkRuleResult} {ended : List (NetworkRuleTarget × Rule)}

/-- What has been accepted is not newer than a command that passes the fence and the rule. -/
theorem Fenced.accepted_le {accepted fences : List Mark} {ownership : NetworkRuleOwnership}
    {target : NetworkRuleTarget} {idempotentReset : Bool}
    (fenced : Fenced pairs accepted fences store)
    (passed : NetworkRules.fenced store target ownership idempotentReset = none)
    (older : Older store target ownership) :
    ∀ earlier ∈ accepted, earlier.1 = keyOf target ownership → earlier.2 ≤ ownership.stamp := by
  intro earlier member same
  rcases fenced.accepted earlier member with ⟨tombstone, found, level⟩ | ⟨rule, found, _, level⟩
  · rw [same] at found
    exact level.trans (fenced_none passed found).le
  · rw [same] at found
    exact level.trans (older rule found).2

theorem Fenced.fences_lt {accepted fences : List Mark} {ownership : NetworkRuleOwnership}
    {target : NetworkRuleTarget} {idempotentReset : Bool}
    (fenced : Fenced pairs accepted fences store)
    (passed : NetworkRules.fenced store target ownership idempotentReset = none) :
    ∀ fence ∈ fences, fence.1 = keyOf target ownership → fence.2 < ownership.stamp := by
  intro fence member same
  obtain ⟨tombstone, found, level⟩ := fenced.fences fence member
  rw [same] at found
  exact lt_of_le_of_lt level (fenced_none passed found)

/-- The answer of a command whose outcome is known. -/
structure Answers (command : NetworkRuleCommand) (result : NetworkRuleResult) (now : Nat)
    (ended : List (NetworkRuleTarget × Rule)) (answer : Answer) : Prop where
  call : answer.call = ⟨now, .execute command⟩
  reply : answer.reply = .result result
  ended : answer.ended = ended

theorem Answers.outcome (answers : Answers command result now ended answer) :
    answer.outcome? = some (command, result.outcome) := by
  unfold Answer.outcome?
  rw [answers.call, answers.reply]

theorem Answers.tickets (answers : Answers command result now ended answer) :
    answer.tickets = if result.outcome = .renewed then
      [ticketOf command.target command.ownership] else [] := by
  unfold Answer.tickets
  rw [answers.call, answers.reply]

theorem Answers.targets (answers : Answers command result now ended answer) :
    answer.shapedTargets = [] := by
  unfold Answer.shapedTargets
  rw [answers.reply]

/-- A command reports no rule but the one it renews. -/
theorem Answers.follows (answers : Answers command result now ended answer)
    (accepted : ∀ mark, answer.accepted? = some mark →
      ∀ earlier ∈ acceptedOf front, earlier.1 = mark.1 → earlier.2 ≤ mark.2)
    (applied : ∀ mark, answer.applied? = some mark →
      ∀ fence ∈ fencesOf front ++ marksOf ended, fence.1 = mark.1 → fence.2 < mark.2)
    (renewed : result.outcome = .renewed → Standing front now command.target
      (ticketOf command.target command.ownership)) : Follows front answer := by
  refine ⟨accepted, answers.ended ▸ applied, ?_, ?_⟩
  · rw [answers.tickets, answers.call]
    intro ticket member
    split at member
    next outcome =>
      rw [mem_singleton.mp member]
      exact renewed outcome
    next => cases member
  · rw [answers.targets]
    intro target member
    cases member

theorem Answers.refused (answers : Answers command result now ended answer)
    (refused : Refused result) : Follows front answer := by
  obtain ⟨same, unapplied, _, _⟩ := refused_answer answers.outcome refused
  apply answers.follows
  · simp [same]
  · simp [unapplied]
  · exact fun outcome => absurd outcome refused.2.2

theorem Answers.accepted (answers : Answers command result now ended answer) :
    answer.accepted? = if result.outcome = .applied ∨ (result.outcome = .reset ∧ answer.changed)
      then some command.mark else none := by
  unfold Answer.accepted?
  rw [answers.outcome]
  rfl

theorem Answers.applied (answers : Answers command result now ended answer) :
    answer.applied? = if result.outcome = .applied then some command.mark else none := by
  unfold Answer.applied?
  rw [answers.outcome]
  rfl

theorem Answers.reset (answers : Answers command result now ended answer) :
    answer.reset? = if result.outcome = .reset then some command.mark else none := by
  unfold Answer.reset?
  rw [answers.outcome]
  rfl

/-- The lease that is told is that of the rule put under the command's target. -/
theorem Answers.leased {rule : Rule} (answers : Answers command result now ended answer)
    (leased : Leased store front) (outcome : result.outcome = .applied ∨ result.outcome = .renewed)
    (ticket : rule.ticket command.target = ticketOf command.target command.ownership)
    (lease : ∃ lease, command.leaseMilliseconds = some lease ∧
      rule.expiresAt = now + lease * 1000000) :
    Leased { store with rules := InsertionMap.put store.rules command.target rule }
      (front ++ [answer]) := by
  obtain ⟨lease, length, expiresAt⟩ := lease
  intro target kept found
  rw [lastLease_append]
  unfold Answer.leaseOf
  rw [answers.outcome, answers.call]
  dsimp only [Option.bind_some]
  rcases of_get?_put found with ⟨rfl, rfl⟩ | ⟨apart, found⟩
  · rw [if_pos ⟨outcome, rfl⟩, length, expiresAt, ticket]
    rfl
  · rw [if_neg fun both => apart both.2]
    exact leased target kept found

theorem apply_goes {rule : Rule} (swept : Swept pairs front now ended store)
    (answers : Answers command result now ended answer) (outcome : result.outcome = .applied)
    (named : keyOf command.target command.ownership ∈ pairs)
    (applied : Applied store command now next rule) : Goes pairs front next answer := by
  have accepted : answer.accepted? = some command.mark := by simp [answers.accepted, outcome]
  have apply : answer.applied? = some command.mark := by simp [answers.applied, outcome]
  have unset : answer.reset? = none := by simp [answers.reset, outcome]
  have own : rule.ownership = command.ownership := applied.ownership
  have older := applied.older
  refine ⟨⟨?_, ?_⟩, answers.follows ?_ ?_ ?_⟩
  · rw [acceptedOf_append, fencesOf_append, accepted, Answer.fences, unset, answers.ended,
      applied.stored]
    have stored : Fenced pairs (acceptedOf front ++ [markOf command.target rule.ownership])
        (fencesOf front ++ marksOf ended)
        { store with rules := put store.rules command.target rule } := by
      refine swept.fenced.put ?_ ?_ ?_ applied.room
      · rw [own]
        exact named
      · rw [own]
        exact older
      · rw [own]
        exact fun tombstone found => fenced_none applied.passed found
    rw [own] at stored
    simpa [NetworkRuleCommand.mark] using stored
  · rw [applied.stored]
    refine answers.leased swept.leased (Or.inl outcome) ?_ applied.lease
    unfold Rule.ticket
    rw [own]
  · intro mark same earlier member key
    rw [accepted] at same
    cases same
    exact swept.fenced.accepted_le applied.passed older earlier member key
  · intro mark same fence member key
    rw [apply] at same
    cases same
    exact swept.fenced.fences_lt applied.passed fence member key
  · rw [outcome]
    exact fun renewed => by cases renewed

theorem renew_goes {before rule : Rule} (swept : Swept pairs front now ended store)
    (answers : Answers command result now ended answer) (outcome : result.outcome = .renewed)
    (renewed : Renewed store command now next before rule) : Goes pairs front next answer := by
  have accepted : answer.accepted? = none := by simp [answers.accepted, outcome]
  have unset : answer.reset? = none := by simp [answers.reset, outcome]
  refine ⟨⟨?_, ?_⟩, answers.follows ?_ ?_ ?_⟩
  · rw [acceptedOf_append, fencesOf_append, accepted, Answer.fences, unset, answers.ended,
      renewed.stored]
    simpa using swept.fenced.renewed renewed.found renewed.ownership
  · rw [renewed.stored]
    refine answers.leased swept.leased (Or.inr outcome) ?_ renewed.lease
    have ticket := renewed.ticket
    unfold Rule.ticket at ticket ⊢
    rw [renewed.ownership, ticket]
  · simp [accepted]
  · simp [answers.applied, outcome]
  · intro _
    rw [← renewed.ticket]
    exact swept.standing renewed.found

/-- The answer of a reset gives no lease. -/
theorem reset_unleased (answers : Answers command result now ended answer)
    (outcome : result.outcome = .reset) (target : NetworkRuleTarget) :
    answer.leaseOf target = none := by
  unfold Answer.leaseOf
  rw [answers.outcome, outcome]
  simp

theorem reset_goes (swept : Swept pairs front now ended store)
    (few : pairs.length ≤ maximumTombstones)
    (named : keyOf command.target command.ownership ∈ pairs)
    (answers : Answers command (reset store command.target command.ownership).2 now ended answer)
    (unchanged : (reset store command.target command.ownership).1 = store →
      answer.changed = false) :
    Goes pairs front (reset store command.target command.ownership).1 answer := by
  rcases reset_spec store command.target command.ownership with
    ⟨same, refused⟩ | ⟨same, outcome, buried⟩ | ⟨stored, outcome, passed, older⟩
  · obtain ⟨accepted, _, unset, unleased⟩ := refused_answer answers.outcome refused
    rw [same]
    rw [← answers.ended] at swept
    exact ⟨swept.quiet accepted unset unleased, answers.refused refused⟩
  · have accepted : answer.accepted? = none := by simp [answers.accepted, outcome, unchanged same]
    have again : answer.reset? = some command.mark := by simp [answers.reset, outcome]
    refine ⟨⟨?_, ?_⟩, answers.follows ?_ ?_ ?_⟩
    · rw [same, acceptedOf_append, fencesOf_append, accepted, Answer.fences, again, answers.ended,
        ← append_assoc]
      have fenced := swept.fenced
      refine ⟨fenced.tidy, fenced.distinct, fenced.few, fenced.allowed, fenced.above, ?_, ?_⟩
      · intro mark member
        rw [Option.toList_none, append_nil] at member
        exact fenced.accepted mark member
      · intro mark member
        rcases mem_append.mp member with old | new
        · exact fenced.fences mark old
        · rw [Option.toList_some, mem_singleton] at new
          rw [new]
          exact buried
    · intro target rule found
      rw [same] at found
      rw [lastLease_append, reset_unleased answers outcome]
      exact swept.leased target rule found
    · simp [accepted]
    · simp [answers.applied, outcome]
    · simp [outcome]
  · have accepted : ∀ mark, answer.accepted? = some mark → mark = command.mark := by
      intro mark made
      rw [answers.accepted] at made
      split at made
      · exact (Option.some.inj made).symm
      · cases made
    have again : answer.reset? = some command.mark := by simp [answers.reset, outcome]
    refine ⟨⟨?_, ?_⟩, answers.follows ?_ ?_ ?_⟩
    · rw [stored, acceptedOf_append, fencesOf_append, Answer.fences, again, answers.ended,
        ← append_assoc]
      have buried := swept.fenced.bury few named older true
      refine buried.fewer (append_subset.mpr ⟨subset_append_left _ _, ?_⟩)
      intro mark member
      rw [Option.mem_toList] at member
      rw [accepted mark member]
      exact mem_append_right _ mem_cons_self
    · intro target rule found
      rw [stored, rules_bury_erase] at found
      rw [lastLease_append, reset_unleased answers outcome]
      split at found
      · cases found
      · exact swept.leased target rule found
    · intro mark made earlier member key
      rw [accepted mark made] at key ⊢
      exact swept.fenced.accepted_le passed older earlier member key
    · simp [answers.applied, outcome]
    · simp [outcome]

theorem resolution_refused {refusal : NetworkRuleResult}
    (refused : resolution store command = .error refusal) : Refused refusal := by
  unfold resolution at refused
  unfold Refused
  split at refused
  · split at refused
    · cases refused
      decide
    · split at refused
      · cases refused
      · cases refused
        simp
  · cases refused

theorem execute_goes (sound : Sound pairs front store) (few : pairs.length ≤ maximumTombstones)
    (named : keyOf command.target command.ownership ∈ pairs)
    (done : execute store command now = some (next, result)) :
    Goes pairs front next (answerOf store ⟨now, .execute command⟩ next (.result result)) := by
  unfold execute at done
  cases resolved : resolution store command with
  | error refusal =>
    rw [resolved] at done
    cases done
    have refused := resolution_refused resolved
    have answers : Answers command result now []
        (answerOf store ⟨now, .execute command⟩ store (.result result)) := by
      refine ⟨rfl, rfl, ?_⟩
      show endedBy store ⟨now, .execute command⟩ = []
      unfold endedBy
      dsimp only
      rw [resolved]
    obtain ⟨accepted, _, unset, unleased⟩ := refused_answer answers.outcome refused
    refine ⟨⟨?_, ?_⟩, answers.refused refused⟩
    · rw [acceptedOf_append, fencesOf_append, accepted, Answer.fences, unset, answers.ended]
      simpa [marksOf] using sound.fenced
    · intro target rule found
      rw [lastLease_append, unleased]
      exact sound.leased target rule found
  | ok value =>
    rw [resolved] at done
    dsimp only at done
    have swept := sound.sweep few now
    have answers : Answers command result now (expired store now)
        (answerOf store ⟨now, .execute command⟩ next (.result result)) := by
      refine ⟨rfl, rfl, ?_⟩
      show endedBy store ⟨now, .execute command⟩ = _
      unfold endedBy
      dsimp only
      rw [resolved]
    have idle : next = NetworkRules.sweep store now → Refused result →
        Goes pairs front next (answerOf store ⟨now, .execute command⟩ next (.result result)) := by
      intro same refused
      obtain ⟨accepted, _, unset, unleased⟩ := refused_answer answers.outcome refused
      have whole : Swept pairs front now
          (answerOf store ⟨now, .execute command⟩ next (.result result)).ended next := by
        rw [answers.ended, same]
        exact swept
      exact ⟨whole.quiet accepted unset unleased, answers.refused refused⟩
    split at done
    · rcases apply_spec done with ⟨same, refused⟩ | ⟨outcome, rule, applied⟩
      · exact idle same refused
      · exact apply_goes swept answers outcome named applied
    · obtain ⟨rfl, rfl⟩ : (reset (NetworkRules.sweep store now) command.target
          command.ownership).1 = next ∧ (reset (NetworkRules.sweep store now) command.target
          command.ownership).2 = result := Prod.ext_iff.mp (Option.some.inj done)
      refine reset_goes swept few named answers fun same => ?_
      unfold answerOf
      dsimp only
      rw [same]
      simp
    · rcases renew_spec done with ⟨same, refused⟩ | ⟨outcome, before, rule, renewed⟩
      · exact idle same refused
      · exact renew_goes swept answers outcome renewed

end Commands

section Machine

variable {pairs : List TombstoneKey} {store next : NetworkRuleStore} {front : List Answer}
variable {call : Call} {reply : Reply}

theorem serve_goes (sound : Sound pairs front store) (few : pairs.length ≤ maximumTombstones)
    (named : ∀ command, call.request = .execute command →
      keyOf command.target command.ownership ∈ pairs)
    (served : serve store call = some (next, reply)) :
    Goes pairs front next (answerOf store call next reply) := by
  obtain ⟨now, request⟩ := call
  cases request with
  | execute command =>
    obtain ⟨⟨state, result⟩, done, same⟩ := Option.map_eq_some_iff.mp served
    cases same
    exact execute_goes sound few (named command rfl) done
  | activeRules =>
    cases served
    exact activeRules_goes sound few now
  | evaluationSnapshot =>
    cases served
    exact evaluationSnapshot_goes sound few now
  | commitDrop ticket =>
    cases served
    exact commitDrop_goes sound few now ticket
  | removeAll =>
    cases served
    exact removeAll_goes sound few now
  | shapingRule target =>
    cases served
    exact shapingRule_goes sound few now target

theorem step_trapped (served : serve store call = none) : step (some store) call = (none, []) := by
  simp only [step, served]

theorem step_served (served : serve store call = some (next, reply)) :
    step (some store) call = (some next, [answerOf store call next reply]) := by
  simp only [step, served, answerOf]

/-- Every answer follows those before it, and the store, if the process has not trapped, fits
them. -/
def History (pairs : List TombstoneKey) (state : Option NetworkRuleStore)
    (answers : List Answer) : Prop :=
  (∀ store, state = some store → Sound pairs answers store) ∧
    ∀ front answer back, answers = front ++ answer :: back → Follows front answer

theorem History.extend {answer : Answer} {state : Option NetworkRuleStore}
    (history : History pairs state front)
    (goes : Goes pairs front next answer) : History pairs (some next) (front ++ [answer]) := by
  refine ⟨?_, ?_⟩
  · intro store same
    cases same
    exact goes.1
  · intro first last rest split
    rcases append_eq_append_iff.mp split with ⟨extra, first_eq, single⟩ | ⟨extra, front_eq, rest_eq⟩
    · cases extra with
      | nil =>
        rw [append_nil] at first_eq
        cases single
        rw [first_eq]
        exact goes.2
      | cons other others => simp at single
    · cases extra with
      | nil =>
        cases rest_eq
        rw [append_nil] at front_eq
        rw [← front_eq]
        exact goes.2
      | cons other others =>
        cases rest_eq
        exact history.2 first last others front_eq

theorem history_run (few : pairs.length ≤ maximumTombstones) (supportsShaping : Bool)
    {calls : List Call}
    (named : ∀ call ∈ calls, ∀ command, call.request = .execute command →
      keyOf command.target command.ownership ∈ pairs) :
    History pairs (run step (some { supportsShaping := supportsShaping }) calls).1
      (run step (some { supportsShaping := supportsShaping }) calls).2 := by
  have meets : Meets step (fun _ call => ∀ command, call.request = .execute command →
      keyOf command.target command.ownership ∈ pairs)
      (some { supportsShaping := supportsShaping }) calls :=
    Meets.of_forall step (fun call member _ => named call member) _
  have start : History pairs (some { supportsShaping := supportsShaping }) [] := by
    refine ⟨?_, ?_⟩
    · intro store same
      cases same
      refine ⟨Fenced.start supportsShaping, ?_⟩
      intro target rule found
      cases found
    · intro front answer back split
      simp at split
  refine meets.invariant step (History pairs) ?_ [] start
  intro state call past history allowed
  cases state with
  | none =>
    show History pairs none (past ++ [])
    rw [append_nil]
    exact history
  | some store =>
    cases served : serve store call with
    | none =>
      rw [step_trapped served]
      show History pairs none (past ++ [])
      rw [append_nil]
      refine ⟨fun store same => ?_, history.2⟩
      cases same
    | some both =>
      obtain ⟨next, reply⟩ := both
      rw [step_served served]
      exact history.extend (serve_goes (history.1 store rfl) few allowed served)

/-- A rule that is not the owner's is none that the owner's command may end or replace. -/
theorem Older.ne {target other : NetworkRuleTarget} {ownership : NetworkRuleOwnership} {rule : Rule}
    (older : Older store target ownership) (found : get? store.rules other = some rule)
    (foreign : rule.ownership.owner ≠ ownership.owner) : target ≠ other := by
  rintro rfl
  exact foreign (congrArg TombstoneKey.owner (older rule found).1)

/-- No command changes another owner's active rule. -/
theorem execute_others {command : NetworkRuleCommand} {now : Nat} {result : NetworkRuleResult}
    (distinct : (keys store.rules).Nodup) (done : execute store command now = some (next, result))
    {target : NetworkRuleTarget} {rule : Rule} (found : get? store.rules target = some rule)
    (active : now < rule.expiresAt) (foreign : rule.ownership.owner ≠ command.ownership.owner) :
    get? next.rules target = some rule := by
  have kept : get? (sweep store now).rules target = some rule := by
    rw [get?_sweep distinct, found, Option.filter_some, if_pos (decide_eq_true active)]
  unfold execute at done
  split at done
  · cases done
    exact found
  next resolved =>
    dsimp only at done
    split at done
    · rcases apply_spec done with ⟨same, _⟩ | ⟨_, fresh, applied⟩
      · rw [same]
        exact kept
      · rw [applied.stored]
        dsimp only
        rw [get?_put_of_ne _ (applied.older.ne kept foreign)]
        exact kept
    · have state : (reset (sweep store now) command.target command.ownership).1 = next :=
        (Prod.ext_iff.mp (Option.some.inj done)).1
      rcases reset_spec (sweep store now) command.target command.ownership with
        ⟨same, _⟩ | ⟨same, _⟩ | ⟨stored, _, _, older⟩
      · rw [← state, same]
        exact kept
      · rw [← state, same]
        exact kept
      · rw [← state, stored, rules_bury_erase, if_neg (older.ne kept foreign)]
        exact kept
    · rcases renew_spec done with ⟨same, _⟩ | ⟨_, before, fresh, renewed⟩
      · rw [same]
        exact kept
      · rw [renewed.stored]
        dsimp only
        have apart : command.target ≠ target := by
          rintro rfl
          have there := renewed.found
          rw [kept] at there
          cases there
          exact foreign renewed.owner
        rw [get?_put_of_ne _ apart]
        exact kept

theorem commitDrop_exact {ticket : NetworkRuleTicket} {now : Nat}
    (distinct : (keys store.rules).Nodup) (committed : (commitDrop store ticket now).2 = true) :
    ∃ rule, get? store.rules ticket.target = some rule ∧ now < rule.expiresAt ∧
      rule.condition = .offline ∧ rule.ticket ticket.target = ticket := by
  unfold commitDrop at committed
  dsimp only at committed
  split at committed
  next rule found =>
    rw [get?_sweep distinct] at found
    obtain ⟨there, active⟩ := Option.filter_eq_some_iff.mp found
    split at committed
    next same => exact ⟨rule, there, of_decide_eq_true active, same⟩
    · cases committed
  · cases committed

/-- Over every run of the store's calls, with at most 256 pairs of a target and an owner: every
answer follows those before it, at most 64 rules are active, no command changes another owner's
active rule, and a drop is committed only under the exact rule of its ticket. -/
theorem rules_are_fenced (supportsShaping : Bool) (calls : List Call) (pairs : List TombstoneKey)
    (few : pairs.length ≤ maximumTombstones)
    (named : ∀ call ∈ calls, ∀ command, call.request = .execute command →
      keyOf command.target command.ownership ∈ pairs) :
    (∀ front answer back,
      (run step (some { supportsShaping := supportsShaping }) calls).2 = front ++ answer :: back →
      Follows front answer) ∧
    ∀ store, (run step (some { supportsShaping := supportsShaping }) calls).1 = some store →
      store.rules.length ≤ maximumRules ∧
      (∀ command now next result, execute store command now = some (next, result) →
        ∀ target rule, get? store.rules target = some rule → now < rule.expiresAt →
          rule.ownership.owner ≠ command.ownership.owner → get? next.rules target = some rule) ∧
      ∀ ticket now, (commitDrop store ticket now).2 = true →
        ∃ rule, get? store.rules ticket.target = some rule ∧ now < rule.expiresAt ∧
          rule.condition = .offline ∧ rule.ticket ticket.target = ticket := by
  have history := history_run few supportsShaping named
  refine ⟨history.2, fun store reached => ?_⟩
  have fenced := (history.1 store reached).fenced
  refine ⟨fenced.few, ?_, ?_⟩
  · intro command now next result done target rule found active foreign
    exact execute_others fenced.distinct done found active foreign
  · intro ticket now committed
    exact commitDrop_exact fenced.distinct committed

/-- An apply, its renew, a reset, and a delayed copy of the apply. -/
def delayedApply : List Call :=
  let ownership (revision : Nat) (positive : 0 < revision) : NetworkRuleOwnership :=
    ⟨"session", 1, revision, by decide, positive⟩
  let target : NetworkRuleTarget := ⟨⟨"set", "phone"⟩, "app"⟩
  let apply : NetworkRuleCommand :=
    { kind := .apply, target := target, ownership := ownership 1 (by decide),
      condition := some .offline, leaseMilliseconds := some 1000 }
  let renew : NetworkRuleCommand :=
    { kind := .renew, target := target, ownership := ownership 1 (by decide),
      leaseMilliseconds := some 1000 }
  let reset : NetworkRuleCommand :=
    { kind := .reset, target := target, ownership := ownership 2 (by decide) }
  [⟨0, .execute apply⟩, ⟨500000000, .execute renew⟩, ⟨1200000000, .evaluationSnapshot⟩,
   ⟨1300000000, .execute reset⟩, ⟨1400000000, .execute apply⟩]

theorem rules_are_fenced_delayed :
    (run step (some { supportsShaping := true }) delayedApply).2.map Answer.applied? =
      [some (⟨⟨⟨"set", "phone"⟩, "app"⟩, "session"⟩, toLex (1, 1)), none, none, none, none] ∧
    ∀ front answer back,
      (run step (some { supportsShaping := true }) delayedApply).2 = front ++ answer :: back →
      Follows front answer := by
  refine ⟨by decide +kernel, (rules_are_fenced true delayedApply
    [⟨⟨⟨"set", "phone"⟩, "app"⟩, "session"⟩] (by decide) ?_).1⟩
  intro call member command asked
  simp only [delayedApply, mem_cons, not_mem_nil, or_false] at member
  rcases member with rfl | rfl | rfl | rfl | rfl <;> cases asked <;> exact mem_cons_self

end Machine

end AutoMobile.NetworkRules
