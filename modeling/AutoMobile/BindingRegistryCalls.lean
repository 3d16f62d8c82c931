import AutoMobile.GenerationFence
import AutoMobile.SqliteBindingRegistry

/- The calls of any number of daemons on one registry, and what one call can do to a binding. -/
namespace AutoMobile.BindingRegistry

open InsertionMap SessionBroker GenerationFence

variable {Spec : Type}

inductive Action (Spec : Type) where
  | ensureScope (identity : BindingScopeIdentity)
  | initBinding (key : BindingKey) (init : BindingInit Spec)
  | removeUnboundBinding (key : BindingKey) (generation : Nat)
  | commitBinding (key : BindingKey) (expected : BindingBindingExpectation)
      (next : BindingBindingCommit Spec)
  | updateBindingState (key : BindingKey) (expected : BindingBindingExpectation)
      (state : BindingAssignmentState) (settler : Option BindingProcessIdentity)
  | claimExecution (key : BindingKey) (expected : BindingBindingExpectation)
      (owner : BindingExecOwner) (supersedesSessionUuid : Option String)
  | releaseExecution (key : BindingKey) (sessionUuid : String)
  | recoverSettledBindings (scopeKey : Option String)
  | openBindingJournal (key : BindingKey) (input : OpenBindingJournalInput Spec)
  | advanceBindingJournal (id : Nat) (input : AdvanceBindingJournalInput Spec)
  | claimBindingJournal (id : Nat) (expected next : BindingProcessIdentity)

/-- A call, with the time and the liveness verdicts that its transaction sees. -/
structure Call (Spec : Type) where
  action : Action Spec
  nowMs : Int
  isExecOwnerLive : BindingProcessIdentity → Bool

inductive Outcome (Spec : Type) where
  | scope (result : EnsureScopeResult)
  | init (result : InitBindingResult Spec)
  | removed (deleted : Bool)
  | commit (result : CommitBindingResult Spec)
  | state (result : UpdateBindingStateResult Spec)
  | claim (result : ClaimExecutionResult Spec)
  | release (released : Bool) (assignment : Option (BindingAssignmentRecord Spec))
  | recovered (bindings : List (BindingKey × BindingAssignmentRecord Spec))
  | opened (result : OpenBindingJournalResult Spec)
  | advanced (result : AdvanceBindingJournalResult Spec)
  | claimed (result : ClaimBindingJournalResult Spec)
  | thrown (message : String)
deriving DecidableEq, Repr

/-- What a transaction leaves behind; one that throws is rolled back. -/
def settle {Result : Type} (registry : Registry Spec) (outcome : Result → Outcome Spec)
    (result : Except String (Registry Spec × Result)) : Registry Spec × Outcome Spec :=
  match result with
  | .error message => (registry, .thrown message)
  | .ok done => (done.1, outcome done.2)

def transact (computeBindingScopeKey : BindingScopeIdentity → String) (registry : Registry Spec)
    (call : Call Spec) : Registry Spec × Outcome Spec :=
  let nowMs := call.nowMs
  let live := call.isExecOwnerLive
  match call.action with
  | .ensureScope identity =>
    let done := ensureScope nowMs computeBindingScopeKey registry identity
    (done.1, .scope done.2)
  | .initBinding key init => settle registry .init (initBinding nowMs registry key init)
  | .removeUnboundBinding key generation =>
    settle registry .removed (removeUnboundBinding registry key generation)
  | .commitBinding key expected next =>
    settle registry .commit (commitBinding nowMs registry key expected next)
  | .updateBindingState key expected state settler =>
    settle registry .state (updateBindingState nowMs live registry key expected state settler)
  | .claimExecution key expected owner supersedes =>
    settle registry .claim (claimExecution nowMs live registry key expected owner supersedes)
  | .releaseExecution key sessionUuid =>
    settle registry (fun done => .release done.1 done.2)
      (releaseExecution nowMs registry key sessionUuid)
  | .recoverSettledBindings scopeKey =>
    let done := recoverSettledBindings nowMs live registry scopeKey
    (done.1, .recovered done.2)
  | .openBindingJournal key input =>
    settle registry .opened (openBindingJournal nowMs live registry key input)
  | .advanceBindingJournal id input =>
    settle registry .advanced (advanceBindingJournal nowMs live registry id input)
  | .claimBindingJournal id expected next =>
    let done := claimBindingJournal nowMs registry id expected next
    (done.1, .claimed done.2)

/-- The binding that a call committed. -/
def committedBy (call : Call Spec) (outcome : Outcome Spec) : Option BindingKey :=
  match call.action, outcome with
  | .commitBinding key _ _, .commit (.committed _) => some key
  | .openBindingJournal key input, .opened (.opened _ _ _) =>
    match input.assignment with
    | .commit _ _ => some key
    | .state _ _ _ => none
  | .advanceBindingJournal _ input, .advanced (.advanced entry _) =>
    match input.assignment with
    | some (.commit _ _) => some entry.key
    | _ => none
  | _, _ => none

theorem committedBy_thrown (call : Call Spec) (message : String) :
    committedBy call (.thrown message) = none := by
  cases action : call.action <;> simp [committedBy, action]

/-- The binding and the token of a commit, a state change or a claim that succeeded. -/
def acceptedBy (call : Call Spec) (outcome : Outcome Spec) :
    Option (BindingKey × BindingBindingExpectation) :=
  match call.action, outcome with
  | .commitBinding key expected _, .commit (.committed _) => some (key, expected)
  | .updateBindingState key expected _ _, .state (.updated _) => some (key, expected)
  | .claimExecution key expected _ _, .claim (.claimed _) => some (key, expected)
  | .openBindingJournal key input, .opened (.opened _ _ _) => some (key, input.assignment.expected)
  | .advanceBindingJournal _ input, .advanced (.advanced entry _) =>
    input.assignment.map fun change => (entry.key, change.expected)
  | _, _ => none

theorem acceptedBy_thrown (call : Call Spec) (message : String) :
    acceptedBy call (.thrown message) = none := by
  cases action : call.action <;> simp [acceptedBy, action]

end AutoMobile.BindingRegistry
