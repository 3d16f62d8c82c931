import AutoMobile.BindingRegistryChanges

/- The effect of each call on the scopes, the assignments and the journal together. -/
namespace AutoMobile.BindingRegistry

open InsertionMap SessionBroker GenerationFence

variable {Spec : Type}

/-- Every scope is valid, and one (host, namespace) has one scope. -/
structure ScopesSound (scopes : InsertionMap String BindingScopeRecord) : Prop where
  valid : ∀ scopeKey scope, get? scopes scopeKey = some scope → scope.state = .valid
  once : ∀ first second one two, get? scopes first = some one → get? scopes second = some two →
    one.managedHostScope = two.managedHostScope → one.runnerNamespace = two.runnerNamespace →
    first = second

def NoOpenEntry (registry : Registry Spec) (key : BindingKey) : Prop :=
  ∀ id entry, get? registry.journal id = some entry →
    isBindingJournalPhaseOpen entry.phase = true → entry.key ≠ key

/-- The binding that the entry records is the one that the row has. -/
def Anchored (registry : Registry Spec) (entry : BindingJournalEntry Spec) : Prop :=
  ∃ row, get? registry.assignments entry.key = some row ∧ entry.binding = row.binding

/-- Open entries stay under their id and binding, or one is opened where there was none. -/
structure JournalChanged (before after : Registry Spec) : Prop where
  next : before.nextJournalId ≤ after.nextJournalId
  distinct : (keys before.journal).Nodup → (keys after.journal).Nodup
  below : (∀ id ∈ keys before.journal, id < before.nextJournalId) →
    ∀ id ∈ keys after.journal, id < after.nextJournalId
  entries : (keys before.journal).Nodup → ∀ id entry, get? after.journal id = some entry →
    isBindingJournalPhaseOpen entry.phase = true →
      (∃ old, get? before.journal id = some old ∧ isBindingJournalPhaseOpen old.phase = true ∧
        old.key = entry.key ∧ (entry.binding = old.binding ∨ Anchored after entry)) ∨
      (id = before.nextJournalId ∧ NoOpenEntry before entry.key ∧ Anchored after entry)

theorem JournalChanged.of_same {before after : Registry Spec}
    (journal : after.journal = before.journal)
    (next : after.nextJournalId = before.nextJournalId) : JournalChanged before after where
  next := Nat.le_of_eq next.symm
  distinct distinct := by
    rw [journal]
    exact distinct
  below below := by
    rw [journal, next]
    exact below
  entries _ id entry found opened := by
    rw [journal] at found
    exact .inl ⟨entry, found, opened, rfl, .inl rfl⟩

/-- What one call does. -/
structure Effect (call : Call Spec) (outcome : Outcome Spec) (before after : Registry Spec) :
    Prop where
  scopes : ScopesSound before.scopes → ScopesSound after.scopes
  rows : Changed (NoOpenEntry before) (committedBy call outcome) before.assignments
    after.assignments
  distinct : (keys before.assignments).Nodup → (keys after.assignments).Nodup
  journal : JournalChanged before after
  accepted : ∀ key expected, acceptedBy call outcome = some (key, expected) →
    ∃ row, get? before.assignments key = some row ∧ row.binding = expected

/-- A call that changes nothing and commits nothing. -/
theorem Effect.idle {call : Call Spec} {outcome : Outcome Spec} {registry : Registry Spec}
    (uncommitted : committedBy call outcome = none)
    (unaccepted : acceptedBy call outcome = none) :
    Effect call outcome registry registry where
  scopes sound := sound
  rows := by
    rw [uncommitted]
    exact Changed.refl _ _
  distinct distinct := distinct
  journal := JournalChanged.of_same rfl rfl
  accepted key expected accepted := by
    rw [unaccepted] at accepted
    contradiction

section Calls

variable (nowMs : Int) (live : BindingProcessIdentity → Bool) (registry : Registry Spec)

variable {scopes : InsertionMap String BindingScopeRecord}

theorem scopesSound_put {scopeKey : String} {scope : BindingScopeRecord}
    (sound : ScopesSound scopes) (valid : scope.state = .valid)
    (alone : ∀ other known, other ≠ scopeKey → get? scopes other = some known →
      known.managedHostScope = scope.managedHostScope →
      known.runnerNamespace ≠ scope.runnerNamespace) :
    ScopesSound (put scopes scopeKey scope) := by
  constructor
  case valid =>
    intro other known found
    rw [get?_put] at found
    split at found
    case isTrue =>
      rw [← Option.some.inj found]
      exact valid
    case isFalse => exact sound.valid other known found
  case once =>
    intro first second one two found found' hosts namespaces
    rw [get?_put] at found found'
    split at found
    case isTrue here =>
      obtain rfl := Option.some.inj found
      split at found'
      case isTrue there => exact here.symm.trans there
      case isFalse apart =>
        exact absurd namespaces.symm (alone second two (fun same => apart same.symm) found'
          hosts.symm)
    case isFalse apart =>
      split at found'
      case isTrue there =>
        obtain rfl := Option.some.inj found'
        exact absurd namespaces (alone first one (fun same => apart same.symm) found hosts)
      case isFalse => exact sound.once first second one two found found' hosts namespaces

theorem scopesSound_rewrite {scopeKey : String} {old scope : BindingScopeRecord}
    (sound : ScopesSound scopes) (found : get? scopes scopeKey = some old)
    (state : scope.state = old.state) (host : scope.managedHostScope = old.managedHostScope)
    (runner : scope.runnerNamespace = old.runnerNamespace) :
    ScopesSound (put scopes scopeKey scope) := by
  apply scopesSound_put sound
  · rw [state]
    exact sound.valid scopeKey old found
  · intro other known differs present hosts namespaces
    exact differs (sound.once other scopeKey known old present found (hosts.trans host)
      (namespaces.trans runner))

/-- A call that writes scopes only. -/
theorem Effect.of_scopes {call : Call Spec} {outcome : Outcome Spec} {registry : Registry Spec}
    (uncommitted : committedBy call outcome = none) (unaccepted : acceptedBy call outcome = none)
    (sound : ScopesSound registry.scopes → ScopesSound scopes) :
    Effect call outcome registry { registry with scopes } :=
  { Effect.idle uncommitted unaccepted with
    scopes := sound
    journal := JournalChanged.of_same rfl rfl }

theorem ensureScope_sound (computeBindingScopeKey : BindingScopeIdentity → String)
    (identity : BindingScopeIdentity) :
    ∃ scopes, (ensureScope nowMs computeBindingScopeKey registry identity).1 =
        { registry with scopes } ∧ (ScopesSound registry.scopes → ScopesSound scopes) := by
  unfold ensureScope
  dsimp only
  cases found : get? registry.scopes (computeBindingScopeKey identity) with
  | some scope =>
    dsimp only
    split
    case isTrue => exact ⟨_, rfl, fun sound => scopesSound_rewrite sound found rfl rfl rfl⟩
    case isFalse invalid =>
      -- No call of the registry invalidates a scope, so every reachable one is valid.
      have refuted : ∀ scopes, ScopesSound registry.scopes → ScopesSound scopes :=
        fun _ sound => absurd (sound.valid _ scope found) invalid
      split
      case isTrue => exact ⟨_, rfl, refuted _⟩
      case isFalse =>
        split
        case h_1 => exact ⟨_, rfl, refuted _⟩
        case h_2 => exact ⟨_, rfl, refuted _⟩
  | none =>
    split
    case h_1 => contradiction
    case h_2 => exact ⟨_, rfl, id⟩
    case h_3 alone =>
      refine ⟨_, rfl, fun sound => scopesSound_put sound rfl ?_⟩
      intro other known differs present hosts namespaces
      have unlike := List.find?_eq_none.1 alone (other, known) (mem_of_get? present)
      have state := sound.valid other known present
      simp only [Bool.and_eq_true, decide_eq_true_eq, not_and, ne_eq] at unlike
      exact unlike ⟨⟨hosts, namespaces⟩, by rw [state]; decide⟩ differs

theorem readOpenJournal_none {registry : Registry Spec} {key : BindingKey}
    (absent : readOpenJournal registry key = none) :
    NoOpenEntry registry key := by
  intro id entry found opened same
  have unlike := List.find?_eq_none.1 absent (id, entry) (mem_of_get? found)
  simp [same, opened] at unlike

section Rows

variable {nowMs live registry} {call : Call Spec} {outcome : Outcome Spec} {key : BindingKey}

theorem effect_initBinding {init : BindingInit Spec} {done : Registry Spec × InitBindingResult Spec}
    (ran : initBinding nowMs registry key init = .ok done)
    (uncommitted : committedBy call outcome = none)
    (unaccepted : acceptedBy call outcome = none) :
    Effect call outcome registry done.1 := by
  obtain ⟨_, _, ran⟩ := of_bind_ok ran
  dsimp only at ran
  split at ran
  case isTrue =>
    rw [← Except.ok.inj ran]
    exact Effect.idle uncommitted unaccepted
  case isFalse =>
    split at ran
    case h_1 =>
      rw [← Except.ok.inj ran]
      exact Effect.idle uncommitted unaccepted
    case h_2 absent =>
      rw [← Except.ok.inj ran]
      refine { Effect.idle uncommitted unaccepted with
        rows := ?rows
        distinct := fun distinct => nodup_keys_put distinct _ _
        journal := JournalChanged.of_same rfl rfl }
      rw [uncommitted]
      exact Changed.make _ absent rfl

theorem effect_removeUnboundBinding {generation : Nat} {done : Registry Spec × Bool}
    (ran : removeUnboundBinding registry key generation = .ok done)
    (uncommitted : committedBy call outcome = none)
    (unaccepted : acceptedBy call outcome = none) :
    Effect call outcome registry done.1 := by
  obtain ⟨_, _, ran⟩ := of_bind_ok ran
  split at ran
  case isTrue =>
    rw [← Except.ok.inj ran]
    exact Effect.idle uncommitted unaccepted
  case isFalse idle =>
    have settled : NoOpenEntry registry key := by
      apply readOpenJournal_none
      simpa using idle
    split at ran
    case h_1 =>
      rw [← Except.ok.inj ran]
      exact Effect.idle uncommitted unaccepted
    case h_2 =>
      split at ran
      case isTrue =>
        rw [← Except.ok.inj ran]
        refine { Effect.idle uncommitted unaccepted with
          rows := ?rows
          distinct := fun distinct => nodup_keys_erase distinct _
          journal := JournalChanged.of_same rfl rfl }
        rw [uncommitted]
        exact Changed.remove settled
      case isFalse =>
        rw [← Except.ok.inj ran]
        exact Effect.idle uncommitted unaccepted

/-- A call that writes one row of a binding, as a commit or not. -/
theorem Effect.of_write {after : Registry Spec} {row later : BindingAssignmentRecord Spec}
    (found : get? registry.assignments key = some row)
    (scopes : after.scopes = registry.scopes)
    (wrote : after.assignments = put registry.assignments key later)
    (journal : JournalChanged registry after)
    (only : committedBy call outcome = none ∨ committedBy call outcome = some key)
    (kept : committedBy call outcome = none → RowKept row later)
    (commits : committedBy call outcome = some key → later.generation = row.generation + 1 ∧
      HeldHereOnly (put registry.assignments key later) key later)
    (accepted : ∀ other expected, acceptedBy call outcome = some (other, expected) →
      other = key ∧ row.binding = expected) :
    Effect call outcome registry after where
  scopes sound := by
    rw [scopes]
    exact sound
  rows := by
    rw [wrote]
    exact Changed.put _ found only kept commits
  distinct distinct := by
    rw [wrote]
    exact nodup_keys_put distinct _ _
  journal := journal
  accepted other expected accepts := by
    obtain ⟨rfl, token⟩ := accepted other expected accepts
    exact ⟨row, found, token⟩

theorem Effect.of_writeAssignment {row later : BindingAssignmentRecord Spec}
    (found : get? registry.assignments key = some row)
    (only : committedBy call outcome = none ∨ committedBy call outcome = some key)
    (kept : committedBy call outcome = none → RowKept row later)
    (commits : committedBy call outcome = some key → later.generation = row.generation + 1 ∧
      HeldHereOnly (put registry.assignments key later) key later)
    (accepted : ∀ other expected, acceptedBy call outcome = some (other, expected) →
      other = key ∧ row.binding = expected) :
    Effect call outcome registry (writeAssignment registry key later) :=
  Effect.of_write found rfl rfl (JournalChanged.of_same rfl rfl) only kept commits accepted

variable {expected : BindingBindingExpectation}

theorem effect_commitBinding {next : BindingBindingCommit Spec}
    {done : Registry Spec × CommitBindingResult Spec}
    (action : call.action = .commitBinding key expected next)
    (ran : commitBinding nowMs registry key expected next = .ok done) :
    Effect call (.commit done.2) registry done.1 := by
  obtain ⟨_, _, ran⟩ := of_bind_ok ran
  obtain ⟨failure, rfl⟩ | ⟨row, later, found, token, rfl, raised, alone⟩ := commitBindingIn_spec ran
  · apply Effect.idle
    · simp [committedBy, action]
    · simp [acceptedBy, action]
  · have commits : committedBy call (.commit (.committed later)) = some key := by
      simp [committedBy, action]
    apply Effect.of_writeAssignment found (.inr commits)
    · intro uncommitted
      rw [commits] at uncommitted
      contradiction
    · exact fun _ => ⟨raised, alone⟩
    · intro other given accepts
      simp only [acceptedBy, action, Option.some.injEq, Prod.mk.injEq] at accepts
      exact ⟨accepts.1.symm, token.trans accepts.2⟩

theorem effect_updateBindingState {state : BindingAssignmentState}
    {settler : Option BindingProcessIdentity} {done : Registry Spec × UpdateBindingStateResult Spec}
    (action : call.action = .updateBindingState key expected state settler)
    (ran : updateBindingState nowMs live registry key expected state settler = .ok done) :
    Effect call (.state done.2) registry done.1 := by
  obtain ⟨_, _, ran⟩ := of_bind_ok ran
  obtain ⟨asserted, _, ran⟩ := of_bind_ok ran
  rw [← Except.ok.inj ran]
  have uncommitted : ∀ result, committedBy call (.state result) = none := fun _ => by
    simp [committedBy, action]
  obtain ⟨same, refused⟩ | ⟨row, later, found, token, wrote, kept⟩ :=
    updateBindingStateIn_spec state asserted false
  · rw [same]
    apply Effect.idle (uncommitted _)
    cases result : (updateBindingStateIn nowMs live registry key expected state asserted false).2 with
    | updated assignment => exact absurd result (refused assignment)
    | binding_in_use owner assignment => simp [acceptedBy, action]
    | refused failure => simp [acceptedBy, action]
  · rw [wrote]
    apply Effect.of_writeAssignment found (.inl (uncommitted _)) (fun _ => kept)
    · intro commits
      rw [uncommitted] at commits
      contradiction
    · intro other given accepts
      simp only [acceptedBy, action, Option.some.injEq, Prod.mk.injEq] at accepts
      exact ⟨accepts.1.symm, token.trans accepts.2⟩

theorem effect_claimExecution {owner : BindingExecOwner} {supersedes : Option String}
    {done : Registry Spec × ClaimExecutionResult Spec}
    (action : call.action = .claimExecution key expected owner supersedes)
    (ran : claimExecution nowMs live registry key expected owner supersedes = .ok done) :
    Effect call (.claim done.2) registry done.1 := by
  have uncommitted : ∀ result, committedBy call (.claim result) = none := fun _ => by
    simp [committedBy, action]
  obtain ⟨_, _, ran⟩ := of_bind_ok ran
  split at ran
  case h_1 =>
    rw [← Except.ok.inj ran]
    exact Effect.idle (uncommitted _) (by simp [acceptedBy, action])
  case h_2 row checked =>
    obtain ⟨found, token⟩ := checkBinding_ok checked
    split at ran
    case isTrue =>
      rw [← Except.ok.inj ran]
      exact Effect.idle (uncommitted _) (by simp [acceptedBy, action])
    case isFalse =>
      split at ran
      case h_1 =>
        rw [← Except.ok.inj ran]
        exact Effect.idle (uncommitted _) (by simp [acceptedBy, action])
      case h_2 =>
        rw [← Except.ok.inj ran]
        apply Effect.of_writeAssignment found (.inl (uncommitted _))
        · exact fun _ => ⟨rfl, rfl, by simp [entersFencingState]⟩
        · intro commits
          rw [uncommitted] at commits
          contradiction
        · intro other given accepts
          simp only [acceptedBy, action, Option.some.injEq, Prod.mk.injEq] at accepts
          exact ⟨accepts.1.symm, token.trans accepts.2⟩

theorem effect_releaseExecution {sessionUuid : String}
    {done : Registry Spec × Bool × Option (BindingAssignmentRecord Spec)}
    (ran : releaseExecution nowMs registry key sessionUuid = .ok done)
    (uncommitted : committedBy call outcome = none)
    (unaccepted : acceptedBy call outcome = none) :
    Effect call outcome registry done.1 := by
  obtain ⟨_, _, ran⟩ := of_bind_ok ran
  dsimp only at ran
  split at ran
  case h_1 =>
    rw [← Except.ok.inj ran]
    exact Effect.idle uncommitted unaccepted
  case h_2 row present =>
    obtain ⟨found, _⟩ := Option.filter_eq_some_iff.1 present
    rw [← Except.ok.inj ran]
    have kept : RowKept row { row with execOwner := none, updatedAtMs := nowMs } :=
      ⟨rfl, rfl, by simp [entersFencingState]⟩
    refine { Effect.idle uncommitted unaccepted with
      scopes := ?scopes
      rows := ?rows
      distinct := fun distinct => nodup_keys_put distinct _ _
      journal := JournalChanged.of_same rfl rfl }
    case scopes =>
      intro sound
      dsimp only
      split
      case h_1 => exact sound
      case h_2 scope known => exact scopesSound_rewrite sound known rfl rfl rfl
    case rows =>
      rw [uncommitted]
      exact Changed.write _ found kept

theorem effect_recoverSettledBindings {scopeKey : Option String}
    (unique : (keys registry.assignments).Nodup)
    (uncommitted : committedBy call outcome = none)
    (unaccepted : acceptedBy call outcome = none) :
    Effect call outcome registry
      (recoverSettledBindings nowMs live registry scopeKey).1 := by
  let settled := (registry.assignments.filter fun row =>
    row.2.state = .settling && (scopeKey.all fun scopeKey => row.1.scopeKey = scopeKey) &&
      isSettled live row.2).mergeSort keyOrder
  have current : ∀ entry ∈ settled, get? registry.assignments entry.1 = some entry.2 := by
    intro entry listed
    have inside := (List.mem_filter.1 (List.mem_mergeSort.1 listed)).1
    exact get?_of_mem unique inside
  have recovers : ∀ key, get? (recoverSettledBindings nowMs live registry scopeKey).1.assignments
      key = get? registry.assignments key ∨ ∃ row, get? registry.assignments key = some row ∧
        get? (recoverSettledBindings nowMs live registry scopeKey).1.assignments key =
          some (recoveredRow nowMs row) :=
    get?_recover registry.assignments settled registry current fun _ => .inl rfl
  obtain ⟨scopes, journal, next, distinct⟩ := @recover_frame _ nowMs settled registry
  constructor
  case scopes =>
    intro sound
    rw [show (recoverSettledBindings nowMs live registry scopeKey).1.scopes = registry.scopes
      from scopes]
    exact sound
  case rows =>
    rw [uncommitted]
    exact Changed.of_recovered recovers
  case distinct => exact distinct
  case journal => exact JournalChanged.of_same journal next
  case accepted =>
    intro key expected accepts
    rw [unaccepted] at accepts
    contradiction

end Rows

section Journal

variable {nowMs live registry} {call : Call Spec} {key : BindingKey}

theorem get?_prune (unique : (keys registry.journal).Nodup) (id : Nat) :
    get? (pruneJournal nowMs registry).journal id = (get? registry.journal id).filter fun entry =>
        !(!isBindingJournalPhaseOpen entry.phase &&
          entry.updatedAtMs < nowMs - BINDING_JOURNAL_TERMINAL_RETENTION_MS) :=
  get?_filter unique _ id

variable {id : Nat} {entry : BindingJournalEntry Spec} {after : Registry Spec}
  {outcome : Outcome Spec}

theorem found_of_prune (unique : (keys registry.journal).Nodup)
    (found : get? (pruneJournal nowMs registry).journal id = some entry) :
    get? registry.journal id = some entry := by
  rw [get?_prune unique] at found
  exact (Option.filter_eq_some_iff.1 found).1

/-- Pruning takes no open entry away. -/
theorem noOpenEntry_of_prune (unique : (keys registry.journal).Nodup)
    (absent : NoOpenEntry (pruneJournal nowMs registry) key) : NoOpenEntry registry key := by
  intro id entry found opened
  apply absent id entry _ opened
  rw [get?_prune unique, found, Option.filter_some, if_pos]
  simp [opened]

theorem prune_distinct (unique : (keys registry.journal).Nodup) :
    (keys (pruneJournal nowMs registry).journal).Nodup :=
  (List.filter_sublist.map Prod.fst).nodup unique

theorem prune_keys (member : id ∈ keys (pruneJournal nowMs registry).journal) :
    id ∈ keys registry.journal :=
  (List.filter_sublist.map Prod.fst).subset member

theorem journalChanged_prune : JournalChanged registry (pruneJournal nowMs registry) where
  next := Nat.le_refl _
  distinct unique := prune_distinct unique
  below below id member := below id (prune_keys member)
  entries unique _ entry found opened :=
    .inl ⟨entry, found_of_prune unique found, opened, rfl, .inl rfl⟩

/-- An entry is opened under a new id, where the pruned journal had none open. -/
theorem journalChanged_open (journal : after.journal =
      put (pruneJournal nowMs registry).journal registry.nextJournalId entry)
    (next : after.nextJournalId = registry.nextJournalId + 1)
    (absent : NoOpenEntry (pruneJournal nowMs registry) entry.key)
    (anchored : Anchored after entry) : JournalChanged registry after where
  next := by omega
  distinct unique := by
    rw [journal]
    exact nodup_keys_put (prune_distinct unique) _ _
  below below id member := by
    rw [journal] at member
    obtain old | same := mem_keys_put.1 member
    · have bound := below id (prune_keys old)
      omega
    · omega
  entries unique id other found opened := by
    rw [journal] at found
    rcases of_get?_put found with ⟨same, rfl⟩ | ⟨_, found⟩
    · exact .inr ⟨same.symm, noOpenEntry_of_prune unique absent, anchored⟩
    · exact .inl ⟨other, found_of_prune unique found, opened, rfl, .inl rfl⟩

/-- An open entry is written anew under its id. -/
theorem journalChanged_write {later : BindingJournalEntry Spec}
    (found : get? registry.journal id = some entry)
    (opened : isBindingJournalPhaseOpen entry.phase = true) (same : later.key = entry.key)
    (journal : after.journal = put registry.journal id later)
    (next : after.nextJournalId = registry.nextJournalId)
    (binding : later.binding = entry.binding ∨ Anchored after later) :
    JournalChanged registry after where
  next := Nat.le_of_eq next.symm
  distinct unique := by
    rw [journal]
    exact nodup_keys_put unique _ _
  below below other member := by
    rw [journal] at member
    rw [next]
    obtain old | here := mem_keys_put.1 member
    · exact below other old
    · rw [here]
      exact below id ((mem_keys_iff _ _).2 ⟨entry, found⟩)
  entries _ other known present isOpen := by
    rw [journal] at present
    rcases of_get?_put present with ⟨here, rfl⟩ | ⟨_, present⟩
    · exact .inl ⟨entry, here ▸ found, opened, same.symm, binding⟩
    · exact .inl ⟨known, present, isOpen, rfl, .inl rfl⟩

/-- A call that changes the journal alone. -/
theorem Effect.of_journal (uncommitted : committedBy call outcome = none)
    (unaccepted : acceptedBy call outcome = none) (scopes : after.scopes = registry.scopes)
    (same : after.assignments = registry.assignments) (journal : JournalChanged registry after) :
    Effect call outcome registry after where
  scopes sound := by
    rw [scopes]
    exact sound
  rows := by
    rw [uncommitted, same]
    exact Changed.refl _ _
  distinct distinct := by
    rw [same]
    exact distinct
  journal := journal
  accepted key expected accepted := by
    rw [unaccepted] at accepted
    contradiction

/-- A journal transition that wrote the binding of its entry. -/
theorem Effect.of_change {change : BindingJournalAssignmentChange Spec}
    {row later : BindingAssignmentRecord Spec} (found : get? registry.assignments key = some row)
    (token : row.binding = change.expected) (scopes : after.scopes = registry.scopes)
    (wrote : after.assignments = put registry.assignments key later)
    (journal : JournalChanged registry after) (kept : change.isCommit = false → RowKept row later)
    (commits : change.isCommit = true → later.generation = row.generation + 1 ∧
      HeldHereOnly (put registry.assignments key later) key later)
    (committed : committedBy call outcome = if change.isCommit then some key else none)
    (accepted : acceptedBy call outcome = some (key, change.expected)) :
    Effect call outcome registry after := by
  have tokens : ∀ other expected, acceptedBy call outcome = some (other, expected) →
      other = key ∧ row.binding = expected := by
    intro other expected accepts
    rw [accepted, Option.some.injEq, Prod.mk.injEq] at accepts
    exact ⟨accepts.1.symm, token.trans accepts.2⟩
  cases kind : change.isCommit with
  | false =>
    rw [kind, if_neg Bool.false_ne_true] at committed
    apply Effect.of_write found scopes wrote journal (.inl committed) (fun _ => kept kind) _ tokens
    intro commits
    rw [committed] at commits
    contradiction
  | true =>
    rw [kind, if_pos rfl] at committed
    apply Effect.of_write found scopes wrote journal (.inr committed) _ (fun _ => commits kind)
      tokens
    intro uncommitted
    rw [committed] at uncommitted
    contradiction

theorem effect_openBindingJournal {input : OpenBindingJournalInput Spec}
    {done : Registry Spec × OpenBindingJournalResult Spec}
    (action : call.action = .openBindingJournal key input)
    (ran : openBindingJournal nowMs live registry key input = .ok done) :
    Effect call (.opened done.2) registry done.1 := by
  obtain ⟨_, _, ran⟩ := of_bind_ok ran
  obtain ⟨_, _, ran⟩ := of_bind_ok ran
  dsimp only at ran
  split at ran
  case h_1 entry _ =>
    rw [← Except.ok.inj ran]
    exact Effect.of_journal (by simp [committedBy, action]) (by simp [acceptedBy, action]) rfl rfl
      journalChanged_prune
  case h_2 idle =>
    obtain ⟨applied, changed, ran⟩ := of_bind_ok ran
    obtain ⟨failure, rfl⟩ | ⟨row, later, found, token, rfl, kept, commits⟩ :=
      applyJournalAssignmentChange_spec changed
    · rw [← Except.ok.inj ran]
      exact Effect.of_journal (by simp [committedBy, action]) (by simp [acceptedBy, action]) rfl
        rfl journalChanged_prune
    · rw [← Except.ok.inj ran]
      refine Effect.of_change found token ?scopes ?wrote ?journal kept commits ?committed ?accepted
      case scopes => rfl
      case wrote => rfl
      case journal =>
        apply journalChanged_open
        case journal => rfl
        case next => rfl
        case absent => exact readOpenJournal_none idle
        case anchored => exact ⟨later, get?_put_self _ _ _, rfl⟩
      case committed =>
        cases change : input.assignment with
        | commit expected next =>
          simp [committedBy, action, change, BindingJournalAssignmentChange.isCommit]
        | state expected state settler =>
          simp [committedBy, action, change, BindingJournalAssignmentChange.isCommit]
      case accepted => simp [acceptedBy, action]

theorem effect_advanceBindingJournal {input : AdvanceBindingJournalInput Spec}
    {done : Registry Spec × AdvanceBindingJournalResult Spec}
    (action : call.action = .advanceBindingJournal id input)
    (ran : advanceBindingJournal nowMs live registry id input = .ok done) :
    Effect call (.advanced done.2) registry done.1 := by
  unfold advanceBindingJournal at ran
  dsimp only at ran
  split at ran
  case h_1 =>
    rw [← Except.ok.inj ran]
    exact Effect.idle (by simp [committedBy, action]) (by simp [acceptedBy, action])
  case h_2 entry present =>
    obtain ⟨known, guarded⟩ := Option.filter_eq_some_iff.1 present
    have opened : isBindingJournalPhaseOpen entry.phase = true := by
      simp only [Bool.and_eq_true] at guarded
      exact guarded.1.1
    cases change : input.assignment with
    | none =>
      rw [change] at ran
      rw [← Except.ok.inj ran]
      refine Effect.of_journal ?uncommitted ?unaccepted ?scopes ?rows ?journal
      case uncommitted => simp [committedBy, action, change]
      case unaccepted => simp [acceptedBy, action, change]
      case scopes => rfl
      case rows => rfl
      case journal =>
        apply journalChanged_write known opened
        case journal => rfl
        case same => rfl
        case next => rfl
        case binding => exact .inl rfl
    | some change' =>
      rw [change] at ran
      dsimp only at ran
      split at ran
      case isTrue =>
        rw [← Except.ok.inj ran]
        exact Effect.idle (by simp [committedBy, action]) (by simp [acceptedBy, action])
      case isFalse =>
        obtain ⟨applied, changed, ran⟩ := of_bind_ok ran
        obtain ⟨failure, rfl⟩ | ⟨row, later, found, token, rfl, kept, commits⟩ :=
          applyJournalAssignmentChange_spec changed
        · rw [← Except.ok.inj ran]
          exact Effect.idle (by simp [committedBy, action]) (by simp [acceptedBy, action])
        · rw [← Except.ok.inj ran]
          refine Effect.of_change found token ?scopes ?wrote ?journal kept commits ?committed
            ?accepted
          case scopes => rfl
          case wrote => rfl
          case journal =>
            apply journalChanged_write known opened
            case journal => rfl
            case same => rfl
            case next => rfl
            case binding => exact .inr ⟨later, get?_put_self _ _ _, rfl⟩
          case committed =>
            cases change' with
            | commit expected next =>
              simp [committedBy, action, change, BindingJournalAssignmentChange.isCommit,
                journalAdvanceColumns]
            | state expected state settler =>
              simp [committedBy, action, change, BindingJournalAssignmentChange.isCommit]
          case accepted => simp [acceptedBy, action, change, journalAdvanceColumns]

theorem effect_claimBindingJournal {expected next : BindingProcessIdentity}
    (uncommitted : committedBy call outcome = none) (unaccepted : acceptedBy call outcome = none) :
    Effect call outcome registry (claimBindingJournal nowMs registry id expected next).1 := by
  unfold claimBindingJournal
  dsimp only
  split
  case h_1 => exact Effect.idle uncommitted unaccepted
  case h_2 entry present =>
    obtain ⟨known, guarded⟩ := Option.filter_eq_some_iff.1 present
    have opened : isBindingJournalPhaseOpen entry.phase = true := by
      simp only [Bool.and_eq_true] at guarded
      exact guarded.1
    refine Effect.of_journal uncommitted unaccepted ?scopes ?rows ?journal
    case scopes => rfl
    case rows => rfl
    case journal =>
      apply journalChanged_write known opened
      case journal => rfl
      case same => rfl
      case next => rfl
      case binding => exact .inl rfl

end Journal

section Transactions

variable {computeBindingScopeKey : BindingScopeIdentity → String} {registry}

theorem effect_ensureScope {call : Call Spec} {outcome : Outcome Spec}
    {identity : BindingScopeIdentity} (uncommitted : committedBy call outcome = none)
    (unaccepted : acceptedBy call outcome = none) :
    Effect call outcome registry
      (ensureScope nowMs computeBindingScopeKey registry identity).1 := by
  obtain ⟨scopes, wrote, sound⟩ := ensureScope_sound nowMs registry computeBindingScopeKey identity
  rw [wrote]
  exact Effect.of_scopes uncommitted unaccepted sound

/-- A transaction that throws has no effect; what one that commits does, its result says. -/
theorem effect_settle {call : Call Spec} {Result : Type} {outcome : Result → Outcome Spec}
    {result : Except String (Registry Spec × Result)}
    (uncommitted : ∀ message, committedBy call (.thrown message) = none)
    (unaccepted : ∀ message, acceptedBy call (.thrown message) = none)
    (effect : ∀ done, result = .ok done → Effect call (outcome done.2) registry done.1) :
    Effect call (settle registry outcome result).2 registry (settle registry outcome result).1 := by
  cases result with
  | error message => exact Effect.idle (uncommitted message) (unaccepted message)
  | ok done => exact effect done rfl

/-- What a call does to the registry it finds. -/
theorem effect_transact (unique : (keys registry.assignments).Nodup) (call : Call Spec) :
    Effect call (transact computeBindingScopeKey registry call).2 registry
      (transact computeBindingScopeKey registry call).1 := by
  have uncommitted := committedBy_thrown call
  have unaccepted := acceptedBy_thrown call
  unfold transact
  cases action : call.action with
  | ensureScope identity =>
    exact effect_ensureScope _ (by simp [committedBy, action]) (by simp [acceptedBy, action])
  | initBinding key init =>
    apply effect_settle uncommitted unaccepted
    exact fun done ran => effect_initBinding ran (by simp [committedBy, action])
      (by simp [acceptedBy, action])
  | removeUnboundBinding key generation =>
    apply effect_settle uncommitted unaccepted
    exact fun done ran => effect_removeUnboundBinding ran (by simp [committedBy, action])
      (by simp [acceptedBy, action])
  | commitBinding key expected next =>
    apply effect_settle uncommitted unaccepted
    exact fun done ran => effect_commitBinding action ran
  | updateBindingState key expected state settler =>
    apply effect_settle uncommitted unaccepted
    exact fun done ran => effect_updateBindingState action ran
  | claimExecution key expected owner supersedes =>
    apply effect_settle uncommitted unaccepted
    exact fun done ran => effect_claimExecution action ran
  | releaseExecution key sessionUuid =>
    apply effect_settle uncommitted unaccepted
    exact fun done ran => effect_releaseExecution ran (by simp [committedBy, action])
      (by simp [acceptedBy, action])
  | recoverSettledBindings scopeKey =>
    exact effect_recoverSettledBindings unique (by simp [committedBy, action])
      (by simp [acceptedBy, action])
  | openBindingJournal key input =>
    apply effect_settle uncommitted unaccepted
    exact fun done ran => effect_openBindingJournal action ran
  | advanceBindingJournal id input =>
    apply effect_settle uncommitted unaccepted
    exact fun done ran => effect_advanceBindingJournal action ran
  | claimBindingJournal id expected next =>
    exact effect_claimBindingJournal (by simp [committedBy, action]) (by simp [acceptedBy, action])

end Transactions

end Calls

end AutoMobile.BindingRegistry
