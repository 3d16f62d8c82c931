import AutoMobile.SessionBrokerCleanup

/- Who holds which device after any sequence of calls, and what a receipt keeps for ever. -/
namespace AutoMobile.SessionBroker

open InsertionMap

variable {Parameters Profile : Type}

/-- The limits that an operation brings along, if it reserves anything. -/
def Operation.limits : Operation Parameters Profile → Option BrokerLimits
  | .admitRequest input => some input.limits
  | .continueAdmission input => some input.limits
  | _ => none

/-- The operation confirms that a device is gone. -/
def Operation.confirms : Operation Parameters Profile → Bool
  | .confirmDestroyed _ => true
  | _ => false

variable {store : Store Parameters Profile} {limits : BrokerLimits}

/-- Every other operation is a sequence of changes under the limits it brings along. -/
theorem Operation.changes {host : BrokerHost Parameters} {surroundings : Surroundings}
    {after : Store Parameters Profile} (owned : Owned store)
    {operation : Operation Parameters Profile}
    (limited : ∀ own, operation.limits = some own → own = limits)
    (other : operation.confirms = false)
    (done : operation.execute host surroundings store = .ok after) :
    Changes limits store after := by
  have one {after : Store Parameters Profile} (change : Change limits store after) :
      Changes limits store after := .single change
  cases operation with
  | recordPreAdmissionFailure input failure => exact one (recordPreAdmissionFailure_change owned done)
  | admitRequest input =>
    obtain ⟨⟨result, outcome⟩, admits, rfl⟩ := ok_of_map done
    exact one (limited _ rfl ▸ (admitRequest_change owned admits).1)
  | abandon requestId owner token =>
    obtain ⟨⟨result, ticket⟩, abandons, rfl⟩ := ok_of_map done
    exact one (abandon_change owned abandons)
  | continueAdmission input =>
    obtain ⟨⟨result, outcome⟩, continues, rfl⟩ := ok_of_map done
    exact one (limited _ rfl ▸ (continueAdmission_change owned continues).1)
  | activate requestId owner sessionId hardware => exact one (activate_change owned done)
  | beginRelease sessionId owner => exact one (beginRelease_change owned done)
  | completeCleanRelease requestId owner limit =>
    obtain ⟨⟨result, tickets⟩, completes, rfl⟩ := ok_of_map done
    exact completeCleanRelease_changes owned completes
  | failWhere requestId owner failure =>
    obtain ⟨⟨result, ticket⟩, fails, rfl⟩ := ok_of_map done
    exact one (failWhere_change owned fails)
  | releaseByDestruction requestId owner =>
    obtain ⟨⟨result, ticket⟩, releases, rfl⟩ := ok_of_map done
    exact one (releaseByDestruction_change owned releases)
  | drainIdle observed =>
    obtain rfl := Except.ok.inj done
    exact drainIdle_changes owned observed
  | confirmDestroyed ticket => cases other
  | recoverRequest requestId owner =>
    obtain ⟨⟨result, ticket⟩, recovers, rfl⟩ := ok_of_map done
    exact one (recoverRequest_change owned recovers)
  | relinquishForRestart requestId owner => exact one (relinquishForRestart_change owned done)
  | adoptRestartHandoff requestId owner =>
    obtain ⟨⟨result, outcome⟩, adopts, rfl⟩ := ok_of_map done
    exact one (adoptRestartHandoff_change owned adopts)
  | linkRequestExport requestId fingerprint identity =>
    obtain ⟨requests, resources⟩ := linkRequestExport_tables done
    exact one (.still requests resources)
  | acknowledgeExport prepareId =>
    obtain rfl := Except.ok.inj done
    obtain ⟨requests, resources⟩ := acknowledgeExport_tables surroundings.now store prepareId
    exact one (.still requests resources)

theorem Operation.steps {host : BrokerHost Parameters} {surroundings : Surroundings}
    {after : Store Parameters Profile} (owned : Owned store)
    {operation : Operation Parameters Profile}
    (limited : ∀ own, operation.limits = some own → own = limits)
    (done : operation.execute host surroundings store = .ok after) : Steps limits store after := by
  cases confirming : operation.confirms with
  | false => exact .of_changes (Operation.changes owned limited confirming done)
  | true =>
    cases operation with
    | confirmDestroyed ticket =>
      obtain rfl := Except.ok.inj done
      exact confirmDestroyed_steps owned ticket
    | _ => cases confirming

theorem Call.steps (owned : Owned store) (call : Call Parameters Profile)
    (limited : ∀ own, call.operation.limits = some own → own = limits) :
    Steps limits store (call.commit store) := by
  unfold Call.commit
  split
  · rename_i after done
    exact Operation.steps owned limited done
  · exact .refl

theorem Call.keeps (owned : Owned store) (call : Call Parameters Profile) :
    Owned (call.commit store) ∧ Follows store (call.commit store) := by
  have steps : Steps (call.operation.limits.getD {}) store (call.commit store) :=
    call.steps owned fun own brings => by rw [brings]; rfl
  exact ⟨steps.owned owned, steps.follows⟩

/-- Every sequence of calls keeps the tables in agreement and the receipts. -/
theorem run_keeps (owned : Owned store) (calls : List (Call Parameters Profile)) :
    Owned (run store calls) ∧ Follows store (run store calls) := by
  induction calls generalizing store with
  | nil => exact ⟨owned, Follows.refl store⟩
  | cons call calls ih =>
    obtain ⟨stays, follows⟩ := call.keeps owned
    obtain ⟨last, further⟩ := ih stays
    exact ⟨last, follows.trans further⟩

/-- The state of the request that uses a resource in a given state. -/
def userState : ResourceState → Option BrokerRequestState
  | .reserved => some .acquiring
  | .active => some .active
  | .resetting => some .releasing
  | _ => none

/-- A resource in use has exactly one request that is not over and names it: its owner,
whose state matches. -/
def UsersMatch (store : Store Parameters Profile) : Prop :=
  ∀ resourceId resource stage, get? store.resources resourceId = some resource →
    userState resource.state = some stage →
    ∃ id row, resource.requestId = some id ∧ get? store.requests id = some row ∧
      row.state = stage ∧ row.resourceId = some resourceId ∧
      ∀ other held, get? store.requests other = some held → isTerminalState held.state = false →
        held.resourceId = some resourceId → other = id

/-- A request that uses a device, or acquires one it names, names exactly one resource that
names it back. -/
def HoldingsMatch (store : Store Parameters Profile) : Prop :=
  ∀ id row, get? store.requests id = some row → row.state = .active ∨ row.state = .releasing ∨
      (row.state = .acquiring ∧ row.resourceId ≠ none) →
    ∃ resourceId resource, row.resourceId = some resourceId ∧
      get? store.resources resourceId = some resource ∧ resource.requestId = some id ∧
      ∀ other held, get? store.resources other = some held → (userState held.state).isSome →
        held.requestId = some id → other = resourceId

/-- An idle resource has no owner. -/
def IdleUnowned (store : Store Parameters Profile) : Prop :=
  ∀ resourceId resource, get? store.resources resourceId = some resource →
    resource.state = .idle → resource.requestId = none

theorem inUse_iff {state : ResourceState} : InUse state ↔ (userState state).isSome = true := by
  cases state <;> simp [InUse, userState]

/-- The state that fits a resource in use is the matching one. -/
theorem state_of_fits {stage matching : BrokerRequestState} {state : ResourceState}
    (fits : Fits stage state) (uses : userState state = some matching) : stage = matching := by
  cases state <;> cases stage <;> simp_all [Fits, userState]

theorem Owned.usersMatch (owned : Owned store) : UsersMatch store := by
  intro resourceId resource stage found uses
  have used : InUse resource.state := inUse_iff.mpr (by simp [uses])
  obtain ⟨id, row, back, known, nonterminal, named⟩ := (owned.resource found).owner used
  have fits := (owned.holds known nonterminal named found).2
  refine ⟨id, row, back, known, state_of_fits fits uses, named, ?_⟩
  intro other held there goesOn names
  have mine := (owned.holds there goesOn names found).1
  exact Option.some.inj (mine.symm.trans back)

theorem Owned.holdingsMatch (owned : Owned store) : HoldingsMatch store := by
  intro id row known stage
  have nonterminal : isTerminalState row.state = false := by
    rcases stage with active | releasing | ⟨acquiring, -⟩ <;> simp [isTerminalState, *]
  have named : row.resourceId ≠ none := by
    rcases stage with active | releasing | ⟨-, named⟩
    · exact (owned.request known).reserved (Or.inl active)
    · exact (owned.request known).reserved (Or.inr releasing)
    · exact named
  obtain ⟨resourceId, names⟩ := Option.ne_none_iff_exists'.mp named
  obtain ⟨resource, found, back, -⟩ := (owned.request known).holds nonterminal resourceId names
  refine ⟨resourceId, resource, names, found, back, fun other held there uses mine => ?_⟩
  obtain ⟨holder, there, -, namesOther⟩ := owned.names there (inUse_iff.mpr uses) mine
  obtain rfl := Option.some.inj (known.symm.trans there)
  exact Option.some.inj (namesOther.symm.trans names)

/-- After any calls of any brokers, resources and requests agree on who uses what, and
whatever calls follow, a receipt keeps its fingerprint, its session and its end. -/
theorem ownership_invariant (earlier later : List (Call Parameters Profile)) :
    UsersMatch (run {} earlier) ∧ HoldingsMatch (run {} earlier) ∧ IdleUnowned (run {} earlier) ∧
      Follows (run {} earlier) (run {} (earlier ++ later)) := by
  have owned := (run_keeps Owned.empty earlier).1
  refine ⟨owned.usersMatch, owned.holdingsMatch,
    fun _ _ found idle => (owned.resource found).idle idle, ?_⟩
  unfold run
  rw [List.foldl_append]
  exact (run_keeps owned later).2

section WaitingRequest

def exampleOwner : BindingProcessIdentity := ⟨"daemon", 1, some (some "token")⟩

def exampleHost : BrokerHost Unit where
  scopeKey := "scope"
  collate := fun _ _ => true
  identity := { sessionRequestFingerprint := fun _ token => token, abandonedParameters := () }

/-- Every slot is ready for the session of the example. -/
def exampleSurroundings : Surroundings where
  slot := fun _ _ => some
    { stableDeviceId := some "device", state := .ready, execSessionUuid := some "session",
      execOwnerDaemonId := some "daemon", execOwnerPid := some 1,
      execOwnerProcessToken := some "token" }
  journalOpen := fun _ _ => false
  isOwnerLive := fun _ => true
  now := 0

def exampleInput (requestId newId : String) (limits : BrokerLimits)
    (readiness : Option ResetReadiness) : BrokerAdmissionInput Unit Unit where
  requestId := requestId
  fingerprint := "fingerprint"
  parameters := ()
  owner := exampleOwner
  limits := limits
  resetReadiness := readiness
  resolveCreation := .ok ()
  compatibleWith := fun _ => true
  newResourceId := if proper : newId ≠ "" then ⟨newId, proper⟩ else ⟨"new", by decide⟩

def exampleCall (operation : Operation Unit Unit) : Call Unit Unit :=
  ⟨exampleHost, exampleSurroundings, operation⟩

/-- A second request comes while the only device resets, and is told to wait for it. -/
def waitingCalls : List (Call Unit Unit) :=
  [exampleCall (.admitRequest (exampleInput "first" "device" {} none)),
   exampleCall (.activate "first" exampleOwner "session" id),
   exampleCall (.beginRelease "session" exampleOwner),
   exampleCall (.admitRequest (exampleInput "second" "other" {}
     (some { thresholdMs := 1000, expectedReadyMs := [("device", 500)] })))]

/-- A request that waits for a reset acquires, but names no resource. -/
theorem waiting_request_holds_nothing :
    ¬∀ (calls : List (Call Unit Unit)) (id : String) (row : RequestRow Unit),
      get? (run {} calls).requests id = some row → isTerminalState row.state = false →
      ∃ resourceId resource, row.resourceId = some resourceId ∧
        get? (run {} calls).resources resourceId = some resource ∧
        resource.requestId = some id := by
  intro holds
  have row : (get? (run {} waitingCalls).requests "second").map
      (fun row => (row.state, row.resourceId)) = some (.acquiring, none) := by
    decide +kernel
  obtain ⟨found, known, equal⟩ := Option.map_eq_some_iff.mp row
  obtain ⟨state, nothing⟩ := Prod.mk.inj equal
  obtain ⟨resourceId, _, named, _⟩ :=
    holds waitingCalls "second" found known (by simp [state, isTerminalState])
  rw [nothing] at named
  cases named

end WaitingRequest

end AutoMobile.SessionBroker
