import AutoMobile.BindingRegistry

/- `sqliteBindingRegistry`: the transactions on the scopes, the assignments and the journal. One
that throws leaves the tables as they were. -/
namespace AutoMobile.BindingRegistry

open InsertionMap SessionBroker

structure Registry (Spec : Type) where
  scopes : InsertionMap String BindingScopeRecord := []
  assignments : InsertionMap BindingKey (BindingAssignmentRecord Spec) := []
  journal : InsertionMap Nat (BindingJournalEntry Spec) := []
  /-- The ids of the journal are never used again. -/
  nextJournalId : Nat := 1
deriving DecidableEq, Repr

inductive EnsureScopeResult where
  | ready (scopeKey : String) (scope : BindingScopeRecord) (created revived : Bool)
  | scope_invalidated (scope : BindingScopeRecord)
  | incarnation_conflict (scopeKey : String) (current : BindingScopeRecord)
deriving DecidableEq, Repr

inductive InitBindingResult (Spec : Type) where
  | ready (assignment : BindingAssignmentRecord Spec) (created : Bool)
  | scope_not_valid (scope : Option BindingScopeRecord)
deriving DecidableEq, Repr

inductive BindingCasFailure (Spec : Type) where
  | scope_not_valid (scope : Option BindingScopeRecord)
  | binding_missing
  | stale_binding (current : BindingAssignmentRecord Spec)
  | device_assigned_elsewhere (key : BindingKey) (holder : BindingAssignmentRecord Spec)
deriving DecidableEq, Repr

inductive CommitBindingResult (Spec : Type) where
  | committed (assignment : BindingAssignmentRecord Spec)
  | refused (failure : BindingCasFailure Spec)
deriving DecidableEq, Repr

inductive UpdateBindingStateResult (Spec : Type) where
  | updated (assignment : BindingAssignmentRecord Spec)
  | binding_in_use (owner : BindingExecOwner) (assignment : BindingAssignmentRecord Spec)
  | refused (failure : BindingCasFailure Spec)
deriving DecidableEq, Repr

inductive ClaimExecutionResult (Spec : Type) where
  | claimed (assignment : BindingAssignmentRecord Spec)
  | binding_in_use (owner : BindingExecOwner) (assignment : BindingAssignmentRecord Spec)
  | binding_not_ready (assignment : BindingAssignmentRecord Spec)
  | refused (failure : BindingCasFailure Spec)
deriving DecidableEq, Repr

inductive BindingJournalChangeFailure (Spec : Type) where
  | refused (failure : BindingCasFailure Spec)
  | binding_in_use (owner : BindingExecOwner) (assignment : BindingAssignmentRecord Spec)
deriving DecidableEq, Repr

inductive OpenBindingJournalResult (Spec : Type) where
  | opened (id : Nat) (entry : BindingJournalEntry Spec)
      (assignment : BindingAssignmentRecord Spec)
  | journal_open (id : Nat) (entry : BindingJournalEntry Spec)
  | refused (failure : BindingJournalChangeFailure Spec)
deriving DecidableEq, Repr

inductive AdvanceBindingJournalResult (Spec : Type) where
  | advanced (entry : BindingJournalEntry Spec)
      (assignment : Option (BindingAssignmentRecord Spec))
  | journal_conflict (entry : Option (BindingJournalEntry Spec))
  | refused (failure : BindingJournalChangeFailure Spec)
deriving DecidableEq, Repr

inductive ClaimBindingJournalResult (Spec : Type) where
  | claimed (entry : BindingJournalEntry Spec)
  | journal_conflict (entry : Option (BindingJournalEntry Spec))
deriving DecidableEq, Repr

variable {Spec : Type} (nowMs : Int) (isExecOwnerLive : BindingProcessIdentity → Bool)

section Scopes

def ensureScope (computeBindingScopeKey : BindingScopeIdentity → String)
    (registry : Registry Spec) (identity : BindingScopeIdentity) :
    Registry Spec × EnsureScopeResult :=
  let scopeKey := computeBindingScopeKey identity
  let existing := get? registry.scopes scopeKey
  let live := registry.scopes.find? fun scope =>
    scope.2.managedHostScope = identity.managedHostScope &&
      scope.2.runnerNamespace = identity.runnerNamespace &&
      scope.2.state ≠ .invalidated && scope.1 ≠ scopeKey
  match existing, live with
  | some scope, live =>
    if scope.state = .valid then
      let acquired := { scope with lastAcquiredAtMs := nowMs }
      ({ registry with scopes := put registry.scopes scopeKey acquired },
        .ready scopeKey acquired false false)
    -- Only a scope that was swept as abandoned comes back.
    else if scope.invalidationReason ≠ some .abandoned then (registry, .scope_invalidated scope)
    else
      match live with
      | some current => (registry, .incarnation_conflict current.1 current.2)
      | none =>
        let revived : BindingScopeRecord :=
          { scope with
            state := .valid, invalidationReason := none, invalidatingAtMs := none,
            invalidatedAtMs := none, lastAcquiredAtMs := nowMs }
        ({ registry with scopes := put registry.scopes scopeKey revived },
          .ready scopeKey revived false true)
  | none, some current => (registry, .incarnation_conflict current.1 current.2)
  | none, none =>
    let row : BindingScopeRecord :=
      { identity with
        state := .valid, invalidationReason := none, createdAtMs := nowMs,
        lastAcquiredAtMs := nowMs, lastReleasedAtMs := none, invalidatingAtMs := none,
        invalidatedAtMs := none }
    ({ registry with scopes := put registry.scopes scopeKey row }, .ready scopeKey row true false)

end Scopes

section Assignments

def readOpenJournal (registry : Registry Spec) (key : BindingKey) :
    Option (Nat × BindingJournalEntry Spec) :=
  registry.journal.find? fun entry => entry.2.key = key && isBindingJournalPhaseOpen entry.2.phase

def initBinding (registry : Registry Spec) (key : BindingKey) (init : BindingInit Spec) :
    Except String (Registry Spec × InitBindingResult Spec) := do
  assertValidBindingKey key
  let scope := get? registry.scopes key.scopeKey
  if scope.all fun scope => scope.state ≠ .valid then return (registry, .scope_not_valid scope)
  match get? registry.assignments key with
  | some existing => return (registry, .ready existing false)
  | none =>
    let row : BindingAssignmentRecord Spec :=
      { role := init.role, platform := init.platform, generation := 0, stableDeviceId := none,
        deviceName := none, requestedSpec := init.requestedSpec, resolvedSpec := none,
        specFingerprint := none, state := .provisioning, execOwner := none, settler := none,
        updatedAtMs := nowMs }
    return ({ registry with assignments := put registry.assignments key row }, .ready row true)

/-- Deletes only the unbound row of the generation that no execution and no open entry has. -/
def removeUnboundBinding (registry : Registry Spec) (key : BindingKey) (generation : Nat) :
    Except String (Registry Spec × Bool) := do
  assertValidBindingKey key
  if (readOpenJournal registry key).isSome then return (registry, false)
  match get? registry.assignments key with
  | none => return (registry, false)
  | some row =>
    if row.generation = generation ∧ row.stableDeviceId = none ∧ row.state = .provisioning ∧
        row.execOwner = none then
      return ({ registry with assignments := erase registry.assignments key }, true)
    else return (registry, false)

/-- What every change of a binding requires: its scope, the binding, and the expected token. -/
def checkBinding (registry : Registry Spec) (key : BindingKey)
    (expected : BindingBindingExpectation) (journaled : Bool)
    (claimingSessionUuid : Option String) :
    Except (BindingCasFailure Spec) (BindingAssignmentRecord Spec) :=
  let scope := get? registry.scopes key.scopeKey
  let current := get? registry.assignments key
  if !scopeAcceptsBindingChange scope journaled &&
      !(claimingSessionUuid.any fun session =>
        scopeAcceptsSameSessionClaim scope current session) then
    .error (.scope_not_valid scope)
  else
    match current with
    | none => .error .binding_missing
    | some current =>
      if bindingMatches current expected then .ok current else .error (.stale_binding current)

def writeAssignment (registry : Registry Spec) (key : BindingKey)
    (row : BindingAssignmentRecord Spec) : Registry Spec :=
  { registry with assignments := put registry.assignments key row }

/-- The binding elsewhere that holds a device. -/
def findHolder (registry : Registry Spec) (key : BindingKey) (platform : BindingPlatform)
    (stableDeviceId : Option String) : Option (BindingKey × BindingAssignmentRecord Spec) :=
  if stableDeviceId = none then none
  else
    registry.assignments.find? fun row =>
      row.2.platform = platform && row.2.stableDeviceId = stableDeviceId && row.1 ≠ key

/-- The row after a commit; another device does not inherit the execution owner. -/
def committedRow (checked : BindingAssignmentRecord Spec) (platform : BindingPlatform)
    (next : BindingBindingCommit Spec) : BindingAssignmentRecord Spec :=
  let deviceChanged := next.stableDeviceId ≠ checked.stableDeviceId ∨ platform ≠ checked.platform
  { role := checked.role, platform, generation := checked.generation + 1,
    stableDeviceId := next.stableDeviceId, deviceName := next.deviceName,
    requestedSpec := next.requestedSpec.getD checked.requestedSpec,
    resolvedSpec := next.resolvedSpec, specFingerprint := next.specFingerprint,
    state := next.state, execOwner := if deviceChanged then none else checked.execOwner,
    settler := none, updatedAtMs := nowMs }

def commitBindingIn (registry : Registry Spec) (key : BindingKey)
    (expected : BindingBindingExpectation) (next : BindingBindingCommit Spec) (journaled : Bool) :
    Except String (Registry Spec × CommitBindingResult Spec) :=
  match checkBinding registry key expected journaled none with
  | .error failure => .ok (registry, .refused failure)
  | .ok checked => do
    let platform ← assertPlatformChangeAllowed checked next
    match findHolder registry key platform next.stableDeviceId with
    | some holder => return (registry, .refused (.device_assigned_elsewhere holder.1 holder.2))
    | none =>
      let row := committedRow nowMs checked platform next
      return (writeAssignment registry key row, .committed row)

def commitBinding (registry : Registry Spec) (key : BindingKey)
    (expected : BindingBindingExpectation) (next : BindingBindingCommit Spec) :
    Except String (Registry Spec × CommitBindingResult Spec) := do
  assertValidBindingKey key
  commitBindingIn nowMs registry key expected next false

/-- The row after a change of its state. -/
def updatedRow (checked : BindingAssignmentRecord Spec) (state : BindingAssignmentState)
    (settler : Option BindingProcessIdentity) : BindingAssignmentRecord Spec :=
  { checked with
    state
    generation :=
      if entersFencingState checked.state state then checked.generation + 1
      else checked.generation
    settler := settler.map storedProcess
    updatedAtMs := nowMs }

def updateBindingStateIn (registry : Registry Spec) (key : BindingKey)
    (expected : BindingBindingExpectation) (state : BindingAssignmentState)
    (settler : Option BindingProcessIdentity) (journaled : Bool) :
    Registry Spec × UpdateBindingStateResult Spec :=
  match checkBinding registry key expected journaled none with
  | .error failure => (registry, .refused failure)
  | .ok checked =>
    match checked.execOwner.filter fun owner =>
      state = .replacing && isExecOwnerLive owner.toBindingProcessIdentity with
    | some owner => (registry, .binding_in_use owner checked)
    | none =>
      let row := updatedRow nowMs checked state settler
      (writeAssignment registry key row, .updated row)

def updateBindingState (registry : Registry Spec) (key : BindingKey)
    (expected : BindingBindingExpectation) (state : BindingAssignmentState)
    (settler : Option BindingProcessIdentity) :
    Except String (Registry Spec × UpdateBindingStateResult Spec) := do
  assertValidBindingKey key
  let settler ← assertSettlerForState state settler
  return updateBindingStateIn nowMs isExecOwnerLive registry key expected state settler false

def storedOwner (owner : BindingExecOwner) : BindingExecOwner :=
  { owner with toBindingProcessIdentity := storedProcess owner.toBindingProcessIdentity }

def claimExecution (registry : Registry Spec) (key : BindingKey)
    (expected : BindingBindingExpectation) (owner : BindingExecOwner)
    (supersedesSessionUuid : Option String) :
    Except String (Registry Spec × ClaimExecutionResult Spec) := do
  assertValidBindingKey key
  match checkBinding registry key expected false (some owner.sessionUuid) with
  | .error failure => return (registry, .refused failure)
  | .ok checked =>
    if checked.state ≠ .ready ∨ checked.stableDeviceId = none then
      return (registry, .binding_not_ready checked)
    else
      match checked.execOwner.filter fun current =>
        current.sessionUuid ≠ owner.sessionUuid &&
          some current.sessionUuid ≠ supersedesSessionUuid &&
          isExecOwnerLive current.toBindingProcessIdentity with
      | some current => return (registry, .binding_in_use current checked)
      | none =>
        let row := { checked with execOwner := some (storedOwner owner), updatedAtMs := nowMs }
        return (writeAssignment registry key row, .claimed row)

def releaseExecution (registry : Registry Spec) (key : BindingKey) (sessionUuid : String) :
    Except String (Registry Spec × Bool × Option (BindingAssignmentRecord Spec)) := do
  assertValidBindingKey key
  let current := get? registry.assignments key
  match current.filter fun row =>
    row.execOwner.any fun owner => owner.sessionUuid = sessionUuid with
  | none => return (registry, false, current)
  | some row =>
    let updated := { row with execOwner := none, updatedAtMs := nowMs }
    let scopes :=
      match get? registry.scopes key.scopeKey with
      | none => registry.scopes
      | some scope => put registry.scopes key.scopeKey { scope with lastReleasedAtMs := some nowMs }
    return ({ writeAssignment registry key updated with scopes }, true, some updated)

/-- A settling binding is settled once its settler is dead and no live execution owns it. -/
def isSettled (assignment : BindingAssignmentRecord Spec) : Bool :=
  (assignment.settler.all fun settler => !isExecOwnerLive settler) &&
    (assignment.execOwner.all fun owner => !isExecOwnerLive owner.toBindingProcessIdentity)

def recoveredRow (assignment : BindingAssignmentRecord Spec) : BindingAssignmentRecord Spec :=
  { assignment with state := .ready, settler := none, updatedAtMs := nowMs }

def keyOrder (a b : BindingKey × BindingAssignmentRecord Spec) : Bool :=
  a.1.scopeKey < b.1.scopeKey ||
    (a.1.scopeKey = b.1.scopeKey && a.1.bindingIndex ≤ b.1.bindingIndex)

def recoverSettledBindings (registry : Registry Spec) (scopeKey : Option String) :
    Registry Spec × List (BindingKey × BindingAssignmentRecord Spec) :=
  let settled := (registry.assignments.filter fun row =>
    row.2.state = .settling && (scopeKey.all fun scopeKey => row.1.scopeKey = scopeKey) &&
      isSettled isExecOwnerLive row.2).mergeSort keyOrder
  (settled.foldl (fun registry row => writeAssignment registry row.1 (recoveredRow nowMs row.2))
    registry, settled.map fun row => (row.1, recoveredRow nowMs row.2))

end Assignments

section Journal

def applyJournalAssignmentChange (registry : Registry Spec) (key : BindingKey)
    (change : BindingJournalAssignmentChange Spec) :
    Except String (Registry Spec ×
      Except (BindingJournalChangeFailure Spec) (BindingAssignmentRecord Spec)) :=
  match change with
  | .commit expected next => do
    let result ← commitBindingIn nowMs registry key expected next true
    match result.2 with
    | .committed assignment => return (result.1, .ok assignment)
    | .refused failure => return (result.1, .error (.refused failure))
  | .state expected state settler => do
    let settler ← assertSettlerForState state settler
    let result := updateBindingStateIn nowMs isExecOwnerLive registry key expected state settler true
    match result.2 with
    | .updated assignment => return (result.1, .ok assignment)
    | .binding_in_use owner assignment =>
      return (result.1, .error (.binding_in_use owner assignment))
    | .refused failure => return (result.1, .error (.refused failure))

/-- The journal without the terminal entries that were kept long enough. -/
def pruneJournal (registry : Registry Spec) : Registry Spec :=
  { registry with
    journal := registry.journal.filter fun entry =>
      !(!isBindingJournalPhaseOpen entry.2.phase &&
        entry.2.updatedAtMs < nowMs - BINDING_JOURNAL_TERMINAL_RETENTION_MS) }

def openBindingJournal (registry : Registry Spec) (key : BindingKey)
    (input : OpenBindingJournalInput Spec) :
    Except String (Registry Spec × OpenBindingJournalResult Spec) := do
  assertValidBindingKey key
  assertOpenPhase input.phase
  let pruned := pruneJournal nowMs registry
  match readOpenJournal pruned key with
  | some entry => return (pruned, .journal_open entry.1 entry.2)
  | none =>
    let applied ← applyJournalAssignmentChange nowMs isExecOwnerLive pruned key input.assignment
    match applied.2 with
    | .error failure => return (applied.1, .refused failure)
    | .ok assignment =>
      let fromGeneration := input.assignment.expected.generation
      let row : BindingJournalEntry Spec :=
        { key, kind := input.kind, phase := input.phase, platform := assignment.platform
          fromGeneration
          toGeneration :=
            if assignment.generation = fromGeneration then none
            else some assignment.generation
          binding := assignment.binding, target := input.target
          owner := storedProcess input.owner, attempts := 0, lastError := none
          nextAttemptAtMs := nowMs, createdAtMs := nowMs, updatedAtMs := nowMs }
      let id := applied.1.nextJournalId
      return ({ applied.1 with
          journal := put applied.1.journal id row
          nextJournalId := id + 1 }, .opened id row assignment)

def advanceBindingJournal (registry : Registry Spec) (id : Nat)
    (input : AdvanceBindingJournalInput Spec) :
    Except String (Registry Spec × AdvanceBindingJournalResult Spec) :=
  let found := get? registry.journal id
  match found.filter fun entry =>
    isBindingJournalPhaseOpen entry.phase && entry.phase = input.expectedPhase &&
      journalOwnersEqual entry.owner input.owner with
  | none => .ok (registry, .journal_conflict found)
  | some entry =>
    match input.assignment with
    | none =>
      let row := journalAdvanceColumns entry input none nowMs
      .ok ({ registry with journal := put registry.journal id row }, .advanced row none)
    | some change =>
      if !sameBinding entry.binding change.expected then
        .ok (registry, .journal_conflict (some entry))
      else do
        let applied ← applyJournalAssignmentChange nowMs isExecOwnerLive registry entry.key change
        match applied.2 with
        | .error failure => return (applied.1, .refused failure)
        | .ok assignment =>
          let row := journalAdvanceColumns entry input (some assignment) nowMs
          return ({ applied.1 with journal := put applied.1.journal id row },
            .advanced row (some assignment))

def claimBindingJournal (registry : Registry Spec) (id : Nat)
    (expected next : BindingProcessIdentity) : Registry Spec × ClaimBindingJournalResult Spec :=
  let found := get? registry.journal id
  match found.filter fun entry =>
    isBindingJournalPhaseOpen entry.phase && journalOwnersEqual entry.owner expected with
  | none => (registry, .journal_conflict found)
  | some entry =>
    let row := { entry with owner := storedProcess next, updatedAtMs := nowMs }
    ({ registry with journal := put registry.journal id row }, .claimed row)

end Journal

end AutoMobile.BindingRegistry
