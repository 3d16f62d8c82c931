import AutoMobile.NetworkRuleRuns

/- What an outcome says of the store: the host trusts it without reading the rules back. -/
namespace AutoMobile.NetworkRules

open List hiding keys
open FlowShaping InsertionMap Runs

section Statements

/-- The rule's condition is what its request resolves to. -/
def Rule.Resolved (rule : Rule) : Prop :=
  match rule.request with
  | .offline => rule.condition = .offline ∧ rule.shaping = none
  | .shaped request => ∃ value, resolve request = .ok value ∧
      rule.condition = .shaped value.profile ∧ rule.shaping = some value

/-- The rule is the one that an apply asked for, under a full lease, and the result reports it. -/
structure Rule.Serves (rule : Rule) (command : NetworkRuleCommand) (now : Nat)
    (result : NetworkRuleResult) : Prop where
  ownership : rule.ownership = command.ownership
  request : command.condition = some rule.request
  resolved : rule.Resolved
  revision : result.installedRevision = some rule.ownership.revision
  shaping : result.shaping = rule.shaping
  lease : ∃ lease, command.leaseMilliseconds = some lease ∧
    result.leaseRemainingMilliseconds = some lease ∧ rule.expiresAt = now + lease * 1000000

/-- The rule is the one that a renew names, and the result reports it under a fresh lease. -/
structure Rule.Extends (before rule : Rule) (command : NetworkRuleCommand) (now : Nat)
    (result : NetworkRuleResult) : Prop where
  named : before.ownership = command.ownership
  revision : result.installedRevision = some rule.ownership.revision
  lease : ∃ lease, command.leaseMilliseconds = some lease ∧
    result.leaseRemainingMilliseconds = some lease ∧
    rule = { before with expiresAt := now + lease * 1000000 }

/-- A revision that a result reports is active for the owner and its generation. -/
def Reports (store : NetworkRuleStore) (target : NetworkRuleTarget)
    (ownership : NetworkRuleOwnership) (now : Nat) (result : NetworkRuleResult) : Prop :=
  ∀ revision, result.installedRevision = some revision →
    ∃ rule, get? store.rules target = some rule ∧ now < rule.expiresAt ∧
      rule.ownership.owner = ownership.owner ∧
      rule.ownership.ownerGeneration = ownership.ownerGeneration ∧
      rule.ownership.revision = revision

/-- The shaping was rejected, before anything was swept. -/
def NetworkRuleResult.unshaped (result : NetworkRuleResult) : Prop :=
  result.outcome = .unsupportedCondition ∨ result.outcome = .invalidShaping

/-- What a result says of the rules and tombstones that a command left. -/
structure Truthful (store : NetworkRuleStore) (command : NetworkRuleCommand) (now : Nat)
    (next : NetworkRuleStore) (result : NetworkRuleResult) : Prop where
  applied : result.outcome = .applied → ∃ rule, rule.Serves command now result ∧
    next = { sweep store now with rules := put (sweep store now).rules command.target rule }
  renewed : result.outcome = .renewed → ∃ before rule,
    get? (sweep store now).rules command.target = some before ∧
    before.Extends rule command now result ∧
    next = { sweep store now with rules := put (sweep store now).rules command.target rule }
  reset : result.outcome = .reset → ∀ rule, get? next.rules command.target = some rule →
    rule.ownership.owner ≠ command.ownership.owner
  installed : Reports next command.target command.ownership now result
  untouched : result.unshaped → next = store
  swept : Refused result → ¬ result.unshaped → next = sweep store now

/-- The tombstone of the owner's own reset, which a duplicate repeats. -/
def Repeated (store : NetworkRuleStore) (target : NetworkRuleTarget)
    (ownership : NetworkRuleOwnership) : Prop :=
  ∃ tombstone, get? store.tombstones (keyOf target ownership) = some tombstone ∧
    tombstone.byReset = true ∧ tombstone.ownerGeneration = ownership.ownerGeneration ∧
    tombstone.revision = ownership.revision

/-- A reset delivered again, after its owner has installed a newer rule. -/
structure Overtaken (store : NetworkRuleStore) (command : NetworkRuleCommand) (now : Nat) :
    Prop where
  kind : command.kind = .reset
  repeated : Repeated store command.target command.ownership
  active : ∃ rule, get? store.rules command.target = some rule ∧ now < rule.expiresAt ∧
    rule.ownership.owner = command.ownership.owner

end Statements

section Refusals

variable {store next : NetworkRuleStore} {target : NetworkRuleTarget} {now : Nat}
variable {ownership : NetworkRuleOwnership} {command : NetworkRuleCommand}
variable {result : NetworkRuleResult} {resolved : Option ShapingResolution}

/-- A refusal of the swept store, which reports only what it holds. -/
structure Declined (store : NetworkRuleStore) (target : NetworkRuleTarget)
    (ownership : NetworkRuleOwnership) (now : Nat) (result : NetworkRuleResult) : Prop where
  refused : Refused result
  shaped : ¬ result.unshaped
  reports : Reports store target ownership now result

theorem Declined.bare (refused : Refused result) (shaped : ¬ result.unshaped)
    (silent : result.installedRevision = none) : Declined store target ownership now result := by
  refine ⟨refused, shaped, ?_⟩
  intro revision reported
  rw [silent] at reported
  cases reported

/-- A refusal that names no revision. -/
theorem declined_of {outcome : NetworkRuleOutcome}
    (plain : (outcome ≠ .applied ∧ outcome ≠ .reset ∧ outcome ≠ .renewed) ∧
      outcome ≠ .unsupportedCondition ∧ outcome ≠ .invalidShaping) :
    Declined store target ownership now { outcome := outcome } :=
  Declined.bare plain.1 (fun either => either.elim plain.2.1 plain.2.2) rfl

/-- The refusal that is answered is all there is to the answer. -/
theorem Declined.only {refusal : NetworkRuleResult} {rest : Prop}
    (declined : Declined store target ownership now refusal)
    (done : some (store, refusal) = some (next, result)) :
    (next = store ∧ Declined store target ownership now result) ∨ rest := by
  cases done
  exact Or.inl ⟨rfl, declined⟩

/-- A stale revision is answered with the one that is installed. -/
theorem declined_installed {existing : Rule} (found : get? store.rules target = some existing)
    (live : now < existing.expiresAt)
    (owner : existing.ownership.owner = ownership.owner)
    (generation : existing.ownership.ownerGeneration = ownership.ownerGeneration)
    (outcome : result.outcome = .staleRevision)
    (revision : result.installedRevision = some existing.ownership.revision) :
    Declined store target ownership now result := by
  refine ⟨?_, ?_, ?_⟩
  · unfold Refused
    rw [outcome]
    decide
  · unfold NetworkRuleResult.unshaped
    rw [outcome]
    decide
  · intro reported same
    rw [revision] at same
    exact ⟨existing, found, live, owner, generation, Option.some.inj same⟩

theorem fenced_declined {idempotentReset : Bool}
    (answered : fenced store target ownership idempotentReset = some result) :
    Declined store target ownership now result ∨
      (idempotentReset = true ∧ result = { outcome := .reset } ∧
        Repeated store target ownership) := by
  unfold fenced at answered
  split at answered
  · cases answered
  next tombstone found =>
    split at answered
    · cases answered
      exact Or.inl (declined_of (by decide))
    · split at answered
      · cases answered
      next generation =>
        split at answered
        next duplicate =>
          cases answered
          simp only [Bool.and_eq_true, decide_eq_true_eq] at duplicate
          right
          exact ⟨duplicate.1.1, rfl, tombstone, found, duplicate.1.2,
            (Decidable.not_not.mp generation).symm, duplicate.2.symm⟩
        · split at answered
          · cases answered
            exact Or.inl (declined_of (by decide))
          · cases answered

theorem fenced_repeated (repeated : Repeated store target ownership) :
    fenced store target ownership true = some { outcome := .reset } := by
  obtain ⟨tombstone, found, byReset, generation, revision⟩ := repeated
  unfold fenced
  rw [show get? store.tombstones ⟨target, ownership.owner⟩ = _ from found]
  dsimp only
  rw [if_neg (by omega), if_neg (by omega), if_pos]
  simp [byReset, revision]

/-- No rule of the store has ended. -/
def Live (store : NetworkRuleStore) (now : Nat) : Prop :=
  ∀ target rule, get? store.rules target = some rule → now < rule.expiresAt

theorem applyRefusal_declined {condition : NetworkRuleCommandCondition} (live : Live store now)
    (refusal : applyRefusal store command condition now = some result) :
    Declined store command.target command.ownership now result := by
  unfold applyRefusal at refusal
  dsimp only at refusal
  split at refusal
  next existing found =>
    split at refusal
    · cases refusal
      exact declined_of (by decide)
    next owner =>
      split at refusal
      · cases refusal
        exact declined_of (by decide)
      · split at refusal
        next same =>
          cases refusal
          exact declined_installed found (live _ _ found) (Decidable.not_not.mp owner) same.1.symm
            rfl rfl
        · split at refusal
          · cases refusal
            exact declined_of (by decide)
          · cases refusal
  · split at refusal
    · cases refusal
      exact declined_of (by decide)
    · cases refusal

theorem resetRefusal_declined (live : Live store now)
    (refusal : resetRefusal store target ownership = some result) :
    Declined store target ownership now result := by
  unfold resetRefusal at refusal
  split at refusal
  next existing found =>
    split at refusal
    · cases refusal
      exact declined_of (by decide)
    next owner =>
      split at refusal
      · cases refusal
        exact declined_of (by decide)
      · split at refusal
        next same =>
          cases refusal
          exact declined_installed found (live _ _ found) (Decidable.not_not.mp owner) same.1.symm
            rfl rfl
        · cases refusal
  · cases refusal

end Refusals

section Acceptances

variable {store origin next : NetworkRuleStore} {target : NetworkRuleTarget} {now : Nat}
variable {ownership : NetworkRuleOwnership} {command : NetworkRuleCommand}
variable {result : NetworkRuleResult} {resolved : Option ShapingResolution}

theorem ownership_ext {first second : NetworkRuleOwnership} (owner : first.owner = second.owner)
    (generation : first.ownerGeneration = second.ownerGeneration)
    (revision : first.revision = second.revision) : first = second := by
  cases first
  cases second
  cases owner
  cases generation
  cases revision
  rfl

theorem validLease_pos {milliseconds : Option Nat} {lease : Nat}
    (valid : validLease milliseconds = some lease) : 0 < lease := by
  have bounds := (Option.filter_eq_some_iff.mp valid).2
  simp only [Bool.and_eq_true, decide_eq_true_eq] at bounds
  exact Nat.lt_of_lt_of_le (by decide) bounds.1

/-- The condition of an apply, under the resolution it goes on with. -/
theorem resolution_ok {rule : Rule} (kind : command.kind = .apply)
    (asked : command.condition = some rule.request) (going : resolution origin command = .ok resolved)
    (condition : rule.condition =
      (resolved.map fun value => NetworkRuleCondition.shaped value.profile).getD .offline)
    (shaping : rule.shaping = resolved) : rule.Resolved := by
  unfold resolution at going
  rw [kind, asked] at going
  unfold Rule.Resolved
  cases request : rule.request with
  | offline =>
    rw [request] at going
    cases going
    exact ⟨condition, shaping⟩
  | shaped wanted =>
    rw [request] at going
    dsimp only at going
    split at going
    · cases going
    · split at going
      next value answer =>
        cases going
        exact ⟨value, answer, condition, shaping⟩
      · cases going

theorem apply_outcome (live : Live store now) (kind : command.kind = .apply)
    (going : resolution origin command = .ok resolved)
    (done : apply store command resolved now = some (next, result)) :
    (next = store ∧ Declined store command.target command.ownership now result) ∨
      (result.outcome = .applied ∧ ∃ rule, rule.Serves command now result ∧ now < rule.expiresAt ∧
        next = { store with rules := put store.rules command.target rule }) := by
  unfold apply at done
  split at done
  · exact (declined_of (by decide)).only done
  next condition asked =>
    split at done
    · exact (declined_of (by decide)).only done
    next lease valid =>
      split at done
      next refusal answer =>
        rcases fenced_declined answer with declines | ⟨no, _⟩
        · exact declines.only done
        · cases no
      next passed =>
        split at done
        next refusal answer => exact (applyRefusal_declined live answer).only done
        next accepted =>
          obtain ⟨expiresAt, within, same⟩ := Option.map_eq_some_iff.mp done
          cases same
          have length := validLease_pos valid
          have ends := expiry_eq within
          refine Or.inr ⟨rfl, _, ⟨rfl, asked, resolution_ok kind asked going rfl rfl, rfl, rfl, lease,
            validLease_eq valid, rfl, ends⟩, ?_, rfl⟩
          show now < expiresAt
          omega

/-- A reset is refused, repeats the tombstone of one before it, or leaves the target no rule. -/
theorem reset_outcome (live : Live store now) (target : NetworkRuleTarget)
    (ownership : NetworkRuleOwnership) :
    ((reset store target ownership).1 = store ∧
        Declined store target ownership now (reset store target ownership).2) ∨
      ((reset store target ownership).2 = { outcome := .reset } ∧
        (((reset store target ownership).1 = store ∧ Repeated store target ownership) ∨
          get? (reset store target ownership).1.rules target = none)) := by
  unfold reset
  cases answer : fenced store target ownership true with
  | some refusal =>
    dsimp only
    rcases fenced_declined answer with declines | ⟨_, same, repeated⟩
    · exact Or.inl ⟨rfl, declines⟩
    · exact Or.inr ⟨same, Or.inl ⟨rfl, repeated⟩⟩
  | none =>
    dsimp only
    cases refusal : resetRefusal store target ownership with
    | some refused => exact Or.inl ⟨rfl, resetRefusal_declined live refusal⟩
    | none =>
      refine Or.inr ⟨rfl, Or.inr ?_⟩
      dsimp only
      rw [rules_bury_erase, if_pos rfl]

theorem renew_outcome (live : Live store now)
    (done : renew store command now = some (next, result)) :
    (next = store ∧ Declined store command.target command.ownership now result) ∨
      (result.outcome = .renewed ∧ ∃ before rule,
        get? store.rules command.target = some before ∧ before.Extends rule command now result ∧
        now < rule.expiresAt ∧
        next = { store with rules := put store.rules command.target rule }) := by
  unfold renew at done
  split at done
  · exact (declined_of (by decide)).only done
  next lease valid =>
    split at done
    · exact (declined_of (by decide)).only done
    next before found =>
      split at done
      · exact (declined_of (by decide)).only done
      next owner =>
        split at done
        · exact (declined_of (by decide)).only done
        next generation =>
          split at done
          · exact (declined_installed found (live _ _ found) (Decidable.not_not.mp owner)
              (Decidable.not_not.mp generation).symm rfl rfl).only done
          next revision =>
            obtain ⟨expiresAt, within, same⟩ := Option.map_eq_some_iff.mp done
            cases same
            have length := validLease_pos valid
            have ends := expiry_eq within
            have named : before.ownership = command.ownership := by
              apply ownership_ext
              · exact Decidable.not_not.mp owner
              · exact (Decidable.not_not.mp generation).symm
              · exact (Decidable.not_not.mp revision).symm
            refine Or.inr ⟨rfl, before, { before with expiresAt := expiresAt }, found,
              ⟨named, rfl, lease, validLease_eq valid, rfl, ?_⟩, ?_, rfl⟩
            · rw [ends]
            · show now < expiresAt
              omega

end Acceptances

section Sweeps

variable {store : NetworkRuleStore} {now : Nat} {pairs : List TombstoneKey}
variable {accepted fences : List Mark}

theorem live_sweep (distinct : (keys store.rules).Nodup) (now : Nat) : Live (sweep store now) now := by
  intro target rule found
  rw [get?_sweep distinct] at found
  exact of_decide_eq_true (Option.filter_eq_some_iff.mp found).2

/-- Ending the rules of entries leaves the tombstones of other targets. -/
theorem tombstones_expireAll {entries : List (NetworkRuleTarget × Rule)}
    (fenced : Fenced pairs accepted fences store) (few : pairs.length ≤ maximumTombstones)
    (distinct : (keys entries).Nodup)
    (found : ∀ entry ∈ entries, get? store.rules entry.1 = some entry.2) {key : TombstoneKey}
    (absent : key.target ∉ keys entries) :
    get? (entries.foldl expire store).tombstones key = get? store.tombstones key := by
  induction entries generalizing store fences with
  | nil => rfl
  | cons entry rest ih =>
    have head := found entry mem_cons_self
    have first := fenced.expire few head
    have apart := nodup_cons.mp distinct
    have later : ∀ other ∈ rest, get? (expire store entry).rules other.1 = some other.2 := by
      intro other member
      have ne : entry.1 ≠ other.1 := by
        intro same
        exact apart.1 (same ▸ mem_map_of_mem member)
      unfold expire
      rw [rules_bury_erase, if_neg ne]
      exact found other (mem_cons_of_mem _ member)
    have outside : key.target ∉ keys rest := fun member => absent (mem_cons_of_mem _ member)
    have elsewhere : key ≠ keyOf entry.1 entry.2.ownership := by
      intro same
      apply absent
      rw [same]
      exact mem_cons_self
    rw [foldl_cons, ih first apart.2 later outside]
    have erased : Tidy pairs { store with rules := erase store.rules entry.1 } :=
      ⟨fenced.tidy.distinct, fenced.tidy.among, fenced.tidy.listed⟩
    exact get?_bury_of_ne erased few (fenced.allowed entry.1 entry.2 head) false elsewhere

/-- A sweep leaves the tombstones of a target whose rule is active. -/
theorem tombstones_sweep (fenced : Fenced pairs accepted fences store)
    (few : pairs.length ≤ maximumTombstones) {target : NetworkRuleTarget} {rule : Rule}
    (found : get? store.rules target = some rule) (live : now < rule.expiresAt)
    (ownership : NetworkRuleOwnership) :
    get? (sweep store now).tombstones (keyOf target ownership) =
      get? store.tombstones (keyOf target ownership) := by
  obtain ⟨distinct, there⟩ := expired_found fenced now
  apply tombstones_expireAll fenced few distinct there
  intro member
  obtain ⟨entry, listed, same⟩ := mem_map.mp member
  have ended := of_decide_eq_true (mem_filter.mp listed).2
  have own := there entry listed
  rw [same] at own
  change get? store.rules target = some entry.2 at own
  rw [found] at own
  cases own
  omega

end Sweeps

section Outcomes

variable {store next : NetworkRuleStore} {now : Nat} {command : NetworkRuleCommand}
variable {result : NetworkRuleResult} {pairs : List TombstoneKey} {accepted fences : List Mark}

/-- The outcome decides which statements of a result are to be shown. -/
theorem Truthful.of_declined
    (declined : Declined (sweep store now) command.target command.ownership now result) :
    Truthful store command now (sweep store now) result := by
  obtain ⟨unapplied, unreset, unrenewed⟩ := declined.refused
  refine ⟨fun same => absurd same unapplied, fun same => absurd same unrenewed,
    fun same => absurd same unreset, declined.reports, fun rejected => absurd rejected declined.shaped,
    fun _ _ => rfl⟩

theorem Truthful.of_rejected (refused : Refused result) (rejected : result.unshaped)
    (silent : result.installedRevision = none) : Truthful store command now store result := by
  obtain ⟨unapplied, unreset, unrenewed⟩ := refused
  refine ⟨fun same => absurd same unapplied, fun same => absurd same unrenewed,
    fun same => absurd same unreset, ?_, fun _ => rfl, fun _ shaped => absurd rejected shaped⟩
  intro revision reported
  rw [silent] at reported
  cases reported

/-- An accepted outcome rejects no shaping. -/
theorem shaped_of {outcome : NetworkRuleOutcome} (same : result.outcome = outcome)
    (accepted : outcome = .applied ∨ outcome = .renewed ∨ outcome = .reset) :
    ¬ result.unshaped ∧ ¬ Refused result := by
  unfold NetworkRuleResult.unshaped Refused
  rw [same]
  rcases accepted with rfl | rfl | rfl <;> decide

theorem reports_put {rule : Rule} {swept : NetworkRuleStore} (live : now < rule.expiresAt)
    (owned : rule.ownership = command.ownership)
    (revision : result.installedRevision = some rule.ownership.revision) :
    Reports { swept with rules := put swept.rules command.target rule } command.target
      command.ownership now result := by
  intro reported same
  rw [revision] at same
  refine ⟨rule, get?_put_self _ _ _, live, ?_, ?_, Option.some.inj same⟩
  · rw [owned]
  · rw [owned]

theorem Truthful.of_applied {rule : Rule} (outcome : result.outcome = .applied)
    (serves : rule.Serves command now result) (live : now < rule.expiresAt)
    (stored : next =
      { sweep store now with rules := put (sweep store now).rules command.target rule }) :
    Truthful store command now next result := by
  obtain ⟨shaped, unrefused⟩ := shaped_of outcome (Or.inl rfl)
  refine ⟨fun _ => ⟨rule, serves, stored⟩, ?_, ?_, ?_, fun rejected => absurd rejected shaped,
    fun refused => absurd refused unrefused⟩
  · intro same
    rw [outcome] at same
    cases same
  · intro same
    rw [outcome] at same
    cases same
  · rw [stored]
    exact reports_put live serves.ownership serves.revision

theorem Truthful.of_renewed {before rule : Rule} (outcome : result.outcome = .renewed)
    (found : get? (sweep store now).rules command.target = some before)
    (extends' : before.Extends rule command now result) (live : now < rule.expiresAt)
    (stored : next =
      { sweep store now with rules := put (sweep store now).rules command.target rule }) :
    Truthful store command now next result := by
  obtain ⟨shaped, unrefused⟩ := shaped_of outcome (Or.inr (Or.inl rfl))
  refine ⟨?_, fun _ => ⟨before, rule, found, extends', stored⟩, ?_, ?_,
    fun rejected => absurd rejected shaped, fun refused => absurd refused unrefused⟩
  · intro same
    rw [outcome] at same
    cases same
  · intro same
    rw [outcome] at same
    cases same
  · have owned : rule.ownership = command.ownership := by
      obtain ⟨lease, _, _, same⟩ := extends'.lease
      rw [same]
      exact extends'.named
    rw [stored]
    exact reports_put live owned extends'.revision

theorem Truthful.of_reset (same : result = { outcome := .reset })
    (unowned : ∀ rule, get? next.rules command.target = some rule →
      rule.ownership.owner ≠ command.ownership.owner) :
    Truthful store command now next result := by
  have outcome : result.outcome = .reset := by rw [same]
  obtain ⟨shaped, unrefused⟩ := shaped_of outcome (Or.inr (Or.inr rfl))
  refine ⟨?_, ?_, fun _ => unowned, ?_, fun rejected => absurd rejected shaped,
    fun refused => absurd refused unrefused⟩
  · intro applied
    rw [outcome] at applied
    cases applied
  · intro renewed
    rw [outcome] at renewed
    cases renewed
  · intro revision reported
    rw [same] at reported
    cases reported

theorem resolution_truthful {refusal : NetworkRuleResult}
    (answer : resolution store command = .error refusal) :
    Truthful store command now store refusal := by
  have refused := resolution_refused answer
  unfold resolution at answer
  split at answer
  · split at answer
    · cases answer
      exact Truthful.of_rejected refused (Or.inl rfl) rfl
    · split at answer
      · cases answer
      · cases answer
        exact Truthful.of_rejected refused (Or.inr rfl) rfl
  · cases answer

/-- A reset that repeats a tombstone denies the owner's active rule, and every other outcome is
truthful. -/
theorem execute_truthful (fenced : Fenced pairs accepted fences store)
    (few : pairs.length ≤ maximumTombstones)
    (done : execute store command now = some (next, result)) :
    Truthful store command now next result ↔ ¬ Overtaken store command now := by
  have live := live_sweep fenced.distinct now
  have kept : ∀ rule, get? (sweep store now).rules command.target = some rule →
      get? store.rules command.target = some rule ∧ now < rule.expiresAt ∧
        (Repeated (sweep store now) command.target command.ownership ↔
          Repeated store command.target command.ownership) := by
    intro rule found
    have active := live _ _ found
    rw [get?_sweep fenced.distinct] at found
    have there := (Option.filter_eq_some_iff.mp found).1
    refine ⟨there, active, ?_⟩
    unfold Repeated
    rw [tombstones_sweep fenced few there active]
  have fresh : command.kind ≠ .reset → ¬ Overtaken store command now :=
    fun other overtaken => other overtaken.kind
  unfold execute at done
  split at done
  next refusal answer =>
    cases done
    have kind : command.kind ≠ .reset := by
      intro same
      unfold resolution at answer
      rw [same] at answer
      cases answer
    exact iff_of_true (resolution_truthful answer) (fresh kind)
  next resolved going =>
    dsimp only at done
    split at done
    next kind =>
      refine iff_of_true ?_ (fresh (by rw [kind]; decide))
      rcases apply_outcome live kind going done with
        ⟨rfl, declined⟩ | ⟨outcome, rule, serves, active, stored⟩
      · exact Truthful.of_declined declined
      · exact Truthful.of_applied outcome serves active stored
    next kind =>
      obtain ⟨rfl, rfl⟩ : (reset (sweep store now) command.target command.ownership).1 = next ∧
          (reset (sweep store now) command.target command.ownership).2 = result :=
        Prod.ext_iff.mp (Option.some.inj done)
      constructor
      · intro truthful overtaken
        obtain ⟨rule, found, active, owner⟩ := overtaken.active
        have there : get? (sweep store now).rules command.target = some rule := by
          rw [get?_sweep fenced.distinct, found, Option.filter_some, if_pos (decide_eq_true active)]
        have answer := fenced_repeated ((kept rule there).2.2.mpr overtaken.repeated)
        unfold reset at truthful
        rw [answer] at truthful
        exact truthful.reset rfl rule there owner
      · intro current
        rcases reset_outcome live command.target command.ownership with
          ⟨same, declined⟩ | ⟨outcome, ⟨same, repeated⟩ | ended⟩
        · rw [same]
          exact Truthful.of_declined declined
        · refine Truthful.of_reset outcome ?_
          intro rule found owner
          rw [same] at found
          obtain ⟨there, active, level⟩ := kept rule found
          exact current ⟨kind, level.mp repeated, rule, there, active, owner⟩
        · refine Truthful.of_reset outcome ?_
          intro rule found
          rw [ended] at found
          cases found
    next kind =>
      refine iff_of_true ?_ (fresh (by rw [kind]; decide))
      rcases renew_outcome live done with
        ⟨rfl, declined⟩ | ⟨outcome, before, rule, found, extends', active, stored⟩
      · exact Truthful.of_declined declined
      · exact Truthful.of_renewed outcome found extends' active stored

/-- In every state that a run of the store's calls reaches, with at most 256 pairs of a target and
an owner: the result of a command is truthful if and only if the command is not a reset that is
delivered again under a newer rule of its owner. -/
theorem outcomes_truthful (supportsShaping : Bool) (calls : List Call) (pairs : List TombstoneKey)
    (few : pairs.length ≤ maximumTombstones)
    (named : ∀ call ∈ calls, ∀ command, call.request = .execute command →
      keyOf command.target command.ownership ∈ pairs)
    (store : NetworkRuleStore)
    (reached : (run step (some { supportsShaping := supportsShaping }) calls).1 = some store)
    (command : NetworkRuleCommand) (now : Nat) (next : NetworkRuleStore)
    (result : NetworkRuleResult) (done : execute store command now = some (next, result)) :
    Truthful store command now next result ↔ ¬ Overtaken store command now :=
  execute_truthful ((history_run few supportsShaping named).1 store reached).fenced few done

end Outcomes

section Duplicates

theorem session_named : "session" ≠ "" ∧ "session".utf8ByteSize ≤ 128 := by decide

/-- The session's command for an app, at the revision after `before`. -/
def sessionCommand (kind : NetworkRuleCommandKind) (before : Nat) : NetworkRuleCommand :=
  { kind := kind
    target := ⟨⟨"set", "phone"⟩, "app"⟩
    ownership := ⟨"session", 1, before + 1, session_named, Nat.succ_pos before⟩
    condition := some .offline
    leaseMilliseconds := some 15000 }

/-- An apply, its reset, and a newer apply. -/
def appliedAgain : List Call :=
  [⟨0, .execute (sessionCommand .apply 0)⟩,
   ⟨1000000, .execute (sessionCommand .reset 1)⟩,
   ⟨2000000, .execute (sessionCommand .apply 2)⟩]

theorem appliedAgain_named : ∀ call ∈ appliedAgain, ∀ command, call.request = .execute command →
    keyOf command.target command.ownership ∈
      [(⟨⟨⟨"set", "phone"⟩, "app"⟩, "session"⟩ : TombstoneKey)] := by
  intro call member command asked
  simp only [appliedAgain, mem_cons, not_mem_nil, or_false] at member
  rcases member with rfl | rfl | rfl <;> cases asked <;> exact mem_cons_self

/-- What a command answers after the newer apply, and who then owns the target's rule. -/
def answerAfter (command : NetworkRuleCommand) : Option (NetworkRuleOutcome × Option String) :=
  (run step (some {}) appliedAgain).1.bind fun store =>
    (execute store command 3000000).map fun answer =>
      (answer.2.outcome, (get? answer.1.rules command.target).map fun rule => rule.ownership.owner)

theorem answerAfter_eq {command : NetworkRuleCommand} {outcome : NetworkRuleOutcome}
    {owner : Option String} (answered : answerAfter command = some (outcome, owner)) :
    ∃ store next result, (run step (some {}) appliedAgain).1 = some store ∧
      execute store command 3000000 = some (next, result) ∧ result.outcome = outcome ∧
      (get? next.rules command.target).map (fun rule => rule.ownership.owner) = owner := by
  obtain ⟨store, reached, rest⟩ := Option.bind_eq_some_iff.mp answered
  obtain ⟨⟨next, result⟩, done, same⟩ := Option.map_eq_some_iff.mp rest
  exact ⟨store, next, result, reached, done, congrArg Prod.fst same, congrArg Prod.snd same⟩

/-- The first reset, delivered again, is answered as if the owner had no rule. -/
theorem duplicate_reset_denies_rule :
    ∃ store next result, (run step (some {}) appliedAgain).1 = some store ∧
      execute store (sessionCommand .reset 1) 3000000 = some (next, result) ∧
      ¬ Truthful store (sessionCommand .reset 1) 3000000 next result := by
  have answered : answerAfter (sessionCommand .reset 1) =
      some (.reset, some "session") := by decide +kernel
  obtain ⟨store, next, result, reached, done, outcome, owner⟩ := answerAfter_eq answered
  refine ⟨store, next, result, reached, done, ?_⟩
  intro truthful
  obtain ⟨rule, found, same⟩ := Option.map_eq_some_iff.mp owner
  exact truthful.reset outcome rule found same

theorem outcomes_truthful_newer_reset :
    ∃ store next result, (run step (some {}) appliedAgain).1 = some store ∧
      execute store (sessionCommand .reset 3) 3000000 = some (next, result) ∧
      (Truthful store (sessionCommand .reset 3) 3000000 next result ↔
        ¬ Overtaken store (sessionCommand .reset 3) 3000000) := by
  have answered : answerAfter (sessionCommand .reset 3) = some (.reset, none) := by decide +kernel
  obtain ⟨store, next, result, reached, done, _, _⟩ := answerAfter_eq answered
  exact ⟨store, next, result, reached, done, outcomes_truthful false appliedAgain
    [⟨⟨⟨"set", "phone"⟩, "app"⟩, "session"⟩] (by decide) appliedAgain_named store reached _ _ next
    result done⟩

end Duplicates

end AutoMobile.NetworkRules
