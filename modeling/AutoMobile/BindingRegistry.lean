import AutoMobile.SessionBrokerTables

/- `bindingRegistry` and `bindingRegistryRows`: the records of the host-wide registry of device
bindings, and the rules that its transactions share. -/
namespace AutoMobile.BindingRegistry

open InsertionMap SessionBroker

inductive BindingPlatform where
  | android
  | ios
  | watchos
deriving DecidableEq, Repr

def BindingPlatform.text : BindingPlatform → String
  | .android => "android"
  | .ios => "ios"
  | .watchos => "watchos"

structure BindingScopeIdentity where
  managedHostScope : String
  runnerNamespace : String
  runnerIncarnation : String
deriving DecidableEq, Repr

inductive BindingScopeState where
  | valid
  | invalidating
  | invalidated
deriving DecidableEq, Repr

inductive BindingScopeInvalidationReason where
  | incarnation_reset
  | operator_reset
  | abandoned
deriving DecidableEq, Repr

/-- A row of `slot_scopes`, under its scope key. -/
structure BindingScopeRecord extends BindingScopeIdentity where
  state : BindingScopeState
  createdAtMs : Int
  lastAcquiredAtMs : Int
  lastReleasedAtMs : Option Int
  invalidationReason : Option BindingScopeInvalidationReason
  invalidatingAtMs : Option Int
  invalidatedAtMs : Option Int
deriving DecidableEq, Repr

structure BindingKey where
  scopeKey : String
  bindingIndex : Int
deriving DecidableEq, Repr

inductive BindingAssignmentState where
  | provisioning
  | ready
  | replacing
  | settling
  | cleanup_pending
deriving DecidableEq, Repr

structure BindingExecOwner extends BindingProcessIdentity where
  sessionUuid : String
deriving DecidableEq, Repr

/-- A row of `slot_assignments`, under its key. -/
structure BindingAssignmentRecord (Spec : Type) where
  role : String
  platform : BindingPlatform
  generation : Nat
  stableDeviceId : Option String
  deviceName : Option String
  requestedSpec : Spec
  resolvedSpec : Option Spec
  specFingerprint : Option String
  state : BindingAssignmentState
  execOwner : Option BindingExecOwner
  settler : Option BindingProcessIdentity
  updatedAtMs : Int
deriving DecidableEq, Repr

/-- The token that a step on a binding must present. -/
structure BindingBindingExpectation where
  generation : Nat
  stableDeviceId : Option String
deriving DecidableEq, Repr

structure BindingInit (Spec : Type) where
  role : String
  platform : BindingPlatform
  requestedSpec : Spec
deriving DecidableEq, Repr

structure BindingBindingCommit (Spec : Type) where
  platform : Option BindingPlatform := none
  stableDeviceId : Option String
  deviceName : Option String
  requestedSpec : Option Spec := none
  resolvedSpec : Option Spec
  specFingerprint : Option String
  state : BindingAssignmentState
deriving DecidableEq, Repr

inductive BindingJournalKind where
  | create
  | replace
  | release
deriving DecidableEq, Repr

inductive BindingJournalPhase where
  | intent
  | deleting
  | deleted
  | creating
  | created
  | committed
  | rolled_back
deriving DecidableEq, Repr

def BindingJournalPhase.text : BindingJournalPhase → String
  | .intent => "intent"
  | .deleting => "deleting"
  | .deleted => "deleted"
  | .creating => "creating"
  | .created => "created"
  | .committed => "committed"
  | .rolled_back => "rolled_back"

/-- The devices that a journal entry acts on. -/
structure BindingJournalTarget (Spec : Type) where
  removalRequested : Bool := false
  quarantinedAtMs : Option Int := none
  newPlatform : Option BindingPlatform := none
  oldStableId : Option String
  oldName : Option String
  newName : Option String
  newStableId : Option String
  requestedSpec : Option Spec
  resolvedSpec : Option Spec
  specFingerprint : Option String
deriving DecidableEq, Repr

/-- The members of a target that an advance writes; one that is absent stays. -/
structure BindingJournalTargetPatch (Spec : Type) where
  removalRequested : Option Bool := none
  quarantinedAtMs : Option (Option Int) := none
  newPlatform : Option (Option BindingPlatform) := none
  oldStableId : Option (Option String) := none
  oldName : Option (Option String) := none
  newName : Option (Option String) := none
  newStableId : Option (Option String) := none
  requestedSpec : Option (Option Spec) := none
  resolvedSpec : Option (Option Spec) := none
  specFingerprint : Option (Option String) := none
deriving DecidableEq, Repr

/-- A row of `slot_journal`, under its id. -/
structure BindingJournalEntry (Spec : Type) where
  key : BindingKey
  kind : BindingJournalKind
  phase : BindingJournalPhase
  platform : BindingPlatform
  fromGeneration : Nat
  toGeneration : Option Nat
  binding : BindingBindingExpectation
  target : BindingJournalTarget Spec
  owner : BindingProcessIdentity
  attempts : Nat
  lastError : Option String
  nextAttemptAtMs : Int
  createdAtMs : Int
  updatedAtMs : Int
deriving DecidableEq, Repr

/-- The change of the assignment that goes with a transition of an entry. -/
inductive BindingJournalAssignmentChange (Spec : Type) where
  | commit (expected : BindingBindingExpectation) (next : BindingBindingCommit Spec)
  | state (expected : BindingBindingExpectation) (state : BindingAssignmentState)
      (settler : Option BindingProcessIdentity)
deriving DecidableEq, Repr

def BindingJournalAssignmentChange.expected {Spec : Type} :
    BindingJournalAssignmentChange Spec → BindingBindingExpectation
  | .commit expected _ => expected
  | .state expected _ _ => expected

structure OpenBindingJournalInput (Spec : Type) where
  kind : BindingJournalKind
  phase : BindingJournalPhase
  target : BindingJournalTarget Spec
  owner : BindingProcessIdentity
  assignment : BindingJournalAssignmentChange Spec
deriving DecidableEq, Repr

structure JournalAttempt where
  error : String
  nextAttemptAtMs : Int
deriving DecidableEq, Repr

structure AdvanceBindingJournalInput (Spec : Type) where
  owner : BindingProcessIdentity
  expectedPhase : BindingJournalPhase
  phase : BindingJournalPhase
  target : BindingJournalTargetPatch Spec := {}
  assignment : Option (BindingJournalAssignmentChange Spec) := none
  attempt : Option JournalAttempt := none
deriving DecidableEq, Repr

def BINDING_JOURNAL_TERMINAL_RETENTION_MS : Int := 7 * 24 * 60 * 60 * 1000

variable {Spec : Type}

def isBindingJournalPhaseOpen (phase : BindingJournalPhase) : Bool :=
  !(phase = .committed || phase = .rolled_back)

/-- The states that fence a device against concurrent use. -/
def FENCING_BINDING_STATES : List BindingAssignmentState :=
  [.replacing, .settling, .cleanup_pending]

def entersFencingState (current next : BindingAssignmentState) : Bool :=
  current ≠ next && next ∈ FENCING_BINDING_STATES

def assertValidBindingKey (key : BindingKey) : Except String Unit :=
  if key.bindingIndex < 0 then
    .error s!"Binding index must be a non-negative integer, got {key.bindingIndex}"
  else if key.scopeKey = "" then .error "Binding scope key must not be empty"
  else .ok ()

/-- Entering `settling` needs a settler; no other state keeps one. -/
def assertSettlerForState (state : BindingAssignmentState)
    (settler : Option BindingProcessIdentity) : Except String (Option BindingProcessIdentity) :=
  if state ≠ .settling then .ok none
  else
    match settler with
    | none => .error "Marking a binding settling requires the settling daemon"
    | some settler => .ok (some settler)

def assertOpenPhase (phase : BindingJournalPhase) : Except String Unit :=
  if isBindingJournalPhaseOpen phase then .ok ()
  else .error s!"A binding journal entry cannot open at phase '{phase.text}'"

def BindingAssignmentRecord.binding (assignment : BindingAssignmentRecord Spec) :
    BindingBindingExpectation where
  generation := assignment.generation
  stableDeviceId := assignment.stableDeviceId

def bindingMatches (assignment : BindingAssignmentRecord Spec)
    (expected : BindingBindingExpectation) : Bool :=
  assignment.generation = expected.generation &&
    assignment.stableDeviceId = expected.stableDeviceId

def sameBinding (a b : BindingBindingExpectation) : Bool :=
  a.generation = b.generation && a.stableDeviceId = b.stableDeviceId

def journalOwnersEqual (a b : BindingProcessIdentity) : Bool :=
  a.daemonId = b.daemonId && a.pid = b.pid &&
    a.processGenerationToken.join = b.processGenerationToken.join

/-- A process as its columns give it back: an absent token is null. -/
def storedProcess (process : BindingProcessIdentity) : BindingProcessIdentity :=
  { process with processGenerationToken := some process.processGenerationToken.join }

def scopeAcceptsBindingChange (scope : Option BindingScopeRecord) (journaled : Bool) : Bool :=
  scope.any fun scope => scope.state = .valid || (journaled && scope.state = .invalidating)

/-- The session that the binding records may claim it again while the scope is invalidating. -/
def scopeAcceptsSameSessionClaim (scope : Option BindingScopeRecord)
    (current : Option (BindingAssignmentRecord Spec)) (sessionUuid : String) : Bool :=
  (scope.any fun scope => scope.state = .invalidating) &&
    ((current.bind BindingAssignmentRecord.execOwner).any fun owner =>
      owner.sessionUuid = sessionUuid)

/-- A platform changes only when the commit empties the binding. -/
def assertPlatformChangeAllowed (current : BindingAssignmentRecord Spec)
    (next : BindingBindingCommit Spec) : Except String BindingPlatform :=
  let platform := next.platform.getD current.platform
  if platform ≠ current.platform ∧ next.stableDeviceId ≠ none then
    .error s!"A binding moves from {current.platform.text} to {platform.text} only with an empty binding"
  else .ok platform

def mergeTarget (target : BindingJournalTarget Spec) (patch : BindingJournalTargetPatch Spec) :
    BindingJournalTarget Spec where
  removalRequested := patch.removalRequested.getD target.removalRequested
  quarantinedAtMs := patch.quarantinedAtMs.getD target.quarantinedAtMs
  newPlatform := patch.newPlatform.getD target.newPlatform
  oldStableId := patch.oldStableId.getD target.oldStableId
  oldName := patch.oldName.getD target.oldName
  newName := patch.newName.getD target.newName
  newStableId := patch.newStableId.getD target.newStableId
  requestedSpec := patch.requestedSpec.getD target.requestedSpec
  resolvedSpec := patch.resolvedSpec.getD target.resolvedSpec
  specFingerprint := patch.specFingerprint.getD target.specFingerprint

/-- The entry after an advance that left the assignment so, if it changed it. -/
def journalAdvanceColumns (entry : BindingJournalEntry Spec)
    (input : AdvanceBindingJournalInput Spec)
    (assignment : Option (BindingAssignmentRecord Spec)) (nowMs : Int) :
    BindingJournalEntry Spec :=
  { entry with
    phase := input.phase
    target := mergeTarget entry.target input.target
    toGeneration :=
      match assignment with
      | none => entry.toGeneration
      | some assignment =>
        if assignment.generation ≠ entry.binding.generation then some assignment.generation
        else entry.toGeneration
    binding := (assignment.map BindingAssignmentRecord.binding).getD entry.binding
    attempts := if input.attempt.isSome then entry.attempts + 1 else entry.attempts
    lastError := (input.attempt.map fun attempt => some attempt.error).getD entry.lastError
    nextAttemptAtMs := (input.attempt.map JournalAttempt.nextAttemptAtMs).getD entry.nextAttemptAtMs
    updatedAtMs := nowMs }

end AutoMobile.BindingRegistry
