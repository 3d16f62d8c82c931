import AutoMobile.SessionBrokerChanges

/- Every operation but a confirmed destruction is a chain of changes. -/
namespace AutoMobile.SessionBroker

open InsertionMap ScriptText

variable {Parameters Profile : Type}

variable {α : Type} {store : Store Parameters Profile}

theorem ok_of_bind {β : Type} {first : Except String α} {next : α → Except String β} {result : β}
    (done : first >>= next = .ok result) :
    ∃ value, first = .ok value ∧ next value = .ok result := by
  cases first with
  | error message => cases done
  | ok value => exact ⟨value, rfl, done⟩

theorem ok_of_map {β : Type} {first : Except String α} {change : α → β} {result : β}
    (done : change <$> first = .ok result) :
    ∃ value, first = .ok value ∧ change value = result := by
  cases first with
  | error message => cases done
  | ok value => exact ⟨value, rfl, Except.ok.inj done⟩

theorem requireValue_ok {value : Option α} {message : String} {result : α}
    (done : requireValue value message = .ok result) : value = some result := by
  cases value with
  | none => cases done
  | some value => exact congrArg some (Except.ok.inj done)

theorem ownedRequest_ok {id : String} {owner : BindingProcessIdentity}
    {request : RequestRow Parameters} (done : ownedRequest store id owner = .ok request) :
    get? store.requests id = some request ∧ request.owner = owner := by
  obtain ⟨row, there, checked⟩ := ok_of_bind done
  split at checked
  · rename_i mine
    obtain rfl := Except.ok.inj checked
    exact ⟨requireValue_ok there, mine⟩
  · cases checked

theorem ownedResource_ok {id resourceId : String} {request : RequestRow Parameters}
    {resource : ResourceRow Profile}
    (done : ownedResource store id request = .ok (resourceId, resource)) :
    request.resourceId = some resourceId ∧ get? store.resources resourceId = some resource ∧
      resource.requestId = some id := by
  obtain ⟨named, there, rest⟩ := ok_of_bind done
  obtain ⟨row, found, checked⟩ := ok_of_bind rest
  split at checked
  · rename_i back
    obtain ⟨rfl, rfl⟩ := Prod.mk.inj (Except.ok.inj checked)
    exact ⟨requireValue_ok there, requireValue_ok found, back⟩
  · cases checked

/-- The row that `updateRequest` writes. -/
def stamped (surroundings : Surroundings) (row : RequestRow Parameters) : RequestRow Parameters :=
  if isTerminalState row.state then { row with terminalAtMs := some surroundings.now } else row

section

variable (surroundings : Surroundings) (row : RequestRow Parameters)
include surroundings row

@[simp] theorem stamped_state :
    (stamped surroundings row).state = row.state := by unfold stamped; split <;> rfl

@[simp] theorem stamped_fingerprint :
    (stamped surroundings row).fingerprint = row.fingerprint := by unfold stamped; split <;> rfl

@[simp] theorem stamped_resourceId :
    (stamped surroundings row).resourceId = row.resourceId := by unfold stamped; split <;> rfl

@[simp] theorem stamped_sessionId :
    (stamped surroundings row).sessionId = row.sessionId := by unfold stamped; split <;> rfl

end

theorem updateRequest_requests (surroundings : Surroundings) (store : Store Parameters Profile)
    (id : String) (row : RequestRow Parameters) :
    (updateRequest surroundings store id row).requests =
      put store.requests id (stamped surroundings row) := rfl

theorem updateRequest_resources (surroundings : Surroundings) (store : Store Parameters Profile)
    (id : String) (row : RequestRow Parameters) :
    (updateRequest surroundings store id row).resources = store.resources := rfl

theorem updateResource_requests (store : Store Parameters Profile) (id : String)
    (resource : ResourceRow Profile) : (updateResource store id resource).requests = store.requests :=
  rfl

theorem updateResource_resources (store : Store Parameters Profile) (id : String)
    (resource : ResourceRow Profile) :
    (updateResource store id resource).resources =
      put store.resources id { resource with revision := resource.revision + 1 } := rfl

theorem linkExport_tables {now : Nat} {after : Store Parameters Profile} {requestId : String}
    {identity : Option BrokerExportIdentity}
    (linked : linkExport now store requestId identity = .ok after) :
    after.requests = store.requests ∧ after.resources = store.resources := by
  unfold linkExport at linked
  split at linked
  · obtain rfl := Except.ok.inj linked
    exact ⟨rfl, rfl⟩
  · split at linked
    · obtain rfl := Except.ok.inj linked
      exact ⟨rfl, rfl⟩
    · split at linked
      · obtain rfl := Except.ok.inj linked
        exact ⟨rfl, rfl⟩
      · cases linked
    · cases linked

theorem linkRequestExport_tables {now : Nat} {after : Store Parameters Profile}
    {requestId fingerprint : String} {identity : BrokerExportIdentity}
    (linked : linkRequestExport now store requestId fingerprint identity = .ok after) :
    after.requests = store.requests ∧ after.resources = store.resources := by
  unfold linkRequestExport at linked
  split at linked
  · split at linked
    · exact linkExport_tables linked
    · cases linked
  · cases linked

theorem acknowledgeExport_tables (now : Nat) (store : Store Parameters Profile) (prepareId : String) :
    (acknowledgeExport now store prepareId).requests = store.requests ∧
      (acknowledgeExport now store prepareId).resources = store.resources := by
  unfold acknowledgeExport
  split
  · exact ⟨rfl, rfl⟩
  · split <;> exact ⟨rfl, rfl⟩

section Moves

variable {limits : BrokerLimits} {before after : Store Parameters Profile} {id : String}
  {old row : RequestRow Parameters}

/-- A request that is not over moves on together with the resource it holds. -/
theorem Change.move (owned : Owned before) (known : get? before.requests id = some old)
    (nonterminal : isTerminalState old.state = false) {resourceId : String}
    (named : old.resourceId = some resourceId) {held resource : ResourceRow Profile}
    (found : get? before.resources resourceId = some held) (was : held.state ≠ .destroyed)
    (requests : after.requests = put before.requests id row)
    (resources : after.resources = put before.resources resourceId resource)
    (fingerprint : row.fingerprint = old.fingerprint) (same : row.resourceId = old.resourceId)
    (session : ∀ session, old.sessionId = some session → row.sessionId = some session)
    (unbound : row.state ≠ .acquiring) (live : resource.state ≠ .destroyed)
    (passes : resource.requestId = none ∨ resource.requestId = some id)
    (stays : isTerminalState row.state = false →
      resource.requestId = some id ∧ Fits row.state resource.state)
    (leaves : isTerminalState row.state = true → ¬InUse resource.state)
    (idle : resource.state = .idle → resource.requestId = none) : Change limits before after := by
  have mine : row.resourceId = some resourceId := same.trans named
  refine .pair id row resourceId resource requests resources ?_ ?_ ?_ ?_ ?_ live
    (fun _ => Or.inl ⟨old, known, countsAsSession_of_nonterminal nonterminal⟩) (Or.inr ⟨held, found, was, passes⟩)
  · refine ⟨(owned.request known).nonempty, ?_, fun _ => by simp [mine], fun acquiring =>
      absurd acquiring unbound⟩
    intro goesOn other there
    obtain rfl := Option.some.inj (mine.symm.trans there)
    obtain ⟨back, fits⟩ := stays goesOn
    exact ⟨resource, by rw [resources, get?_put_self], back, fits⟩
  · refine ⟨(owned.resource found).nonempty, fun used => ?_, idle⟩
    cases ended : isTerminalState row.state with
    | true => exact absurd used (leaves ended)
    | false => exact ⟨id, row, (stays ended).1, by rw [requests, get?_put_self], ended, mine⟩
  · intro earlier there
    obtain rfl := Option.some.inj (known.symm.trans there)
    exact ⟨fingerprint, fun ended => by simp [nonterminal] at ended, session⟩
  · intro other used there inUse back
    obtain ⟨holder, found', _, names⟩ := owned.names there inUse back
    obtain rfl := Option.some.inj (known.symm.trans found')
    exact Option.some.inj (names.symm.trans named)
  · intro other holder there goesOn names
    have one := (owned.holds known nonterminal named found).1
    have two := (owned.holds there goesOn names found).1
    exact Option.some.inj (two.symm.trans one)

/-- A request that is not over is written alone: it goes on, or uses nothing and ends. -/
theorem Change.touch (owned : Owned before) (known : get? before.requests id = some old)
    (nonterminal : isTerminalState old.state = false)
    (requests : after.requests = put before.requests id row)
    (resources : after.resources = before.resources)
    (fingerprint : row.fingerprint = old.fingerprint) (same : row.resourceId = old.resourceId)
    (session : row.sessionId = old.sessionId)
    (stage : row.state = old.state ∨ isTerminalState row.state = true ∧
      ∀ resourceId resource, old.resourceId = some resourceId →
        get? before.resources resourceId = some resource → ¬InUse resource.state) :
    Change limits before after := by
  have was := owned.request known
  refine .request id row requests resources ?_ ?_ ?_
    fun _ => Or.inl ⟨old, known, countsAsSession_of_nonterminal nonterminal⟩
  · rcases stage with goesOn | ⟨ended, -⟩
    · refine ⟨was.nonempty, ?_, ?_, ?_⟩ <;> rw [goesOn]
      · rw [same]
        exact was.holds
      · rw [same]
        exact was.reserved
      · rw [session]
        exact was.unbound
    · refine ⟨was.nonempty, fun goesOn => by simp [ended] at goesOn, ?_, ?_⟩
      · rintro (active | releasing) <;> simp_all [isTerminalState]
      · intro acquiring
        simp_all [isTerminalState]
  · intro earlier there
    obtain rfl := Option.some.inj (known.symm.trans there)
    exact ⟨fingerprint, fun ended => by simp [nonterminal] at ended,
      fun bound there => session.trans there⟩
  · intro resourceId resource found used back
    obtain ⟨holder, there, _, names⟩ := owned.names found used back
    obtain rfl := Option.some.inj (known.symm.trans there)
    rcases stage with goesOn | ⟨-, ends⟩
    · exact ⟨goesOn ▸ nonterminal, same.trans names⟩
    · exact absurd used (ends resourceId resource names found)

/-- A fresh receipt that is over from the start. -/
theorem Change.receipt (owned : Owned before) (fresh : get? before.requests id = none)
    (nonempty : id ≠ "") (requests : after.requests = put before.requests id row)
    (resources : after.resources = before.resources) (failed : row.state = .failed)
    (nothing : row.resourceId = none) : Change limits before after := by
  refine .request id row requests resources ⟨nonempty, ?_, ?_, ?_⟩ ?_ ?_ ?_
  · intro goesOn
    simp [failed, isTerminalState] at goesOn
  · simp [failed]
  · simp [failed]
  · intro old there
    rw [fresh] at there
    cases there
  · intro resourceId resource found used back
    obtain ⟨holder, there, -⟩ := owned.names found used back
    rw [fresh] at there
    cases there
  · intro counted
    rw [countsAsSession_iff] at counted
    simp [failed, isTerminalState, nothing] at counted

end Moves

section Destruction

variable {limits : BrokerLimits} {store after : Store Parameters Profile} {id : String}
  {request : RequestRow Parameters}

/-- Either the request uses nothing, or its live resource goes to destruction. -/
theorem destroyOwned_spec (owned : Owned store) {again : Bool} {ticket : Option DestructionTicket}
    (done : destroyOwned store id request again = .ok (after, ticket)) :
    after.requests = store.requests ∧ (after.resources = store.resources ∧
          (∀ resourceId resource, request.resourceId = some resourceId →
            get? store.resources resourceId = some resource → ¬InUse resource.state) ∨
        ∃ resourceId resource, request.resourceId = some resourceId ∧
          get? store.resources resourceId = some resource ∧ resource.requestId = some id ∧
          resource.state ≠ .destroyed ∧
          after.resources = put store.resources resourceId
            { resource with state := .destroying, revision := resource.revision + 1 }) := by
  unfold destroyOwned at done
  split at done
  · obtain ⟨⟨resourceId, resource⟩, held, rest⟩ := ok_of_bind done
    obtain ⟨named, found, back⟩ := ownedResource_ok held
    have unique : ∀ other there, request.resourceId = some other →
        get? store.resources other = some there → there = resource := by
      intro other there names known
      obtain rfl := Option.some.inj (named.symm.trans names)
      exact Option.some.inj (known.symm.trans found)
    dsimp only at rest
    split at rest
    · rename_i gone
      obtain ⟨rfl, -⟩ := Prod.mk.inj (Except.ok.inj rest)
      refine ⟨rfl, Or.inl ⟨rfl, fun other there names known => ?_⟩⟩
      rw [unique other there names known]
      simp [InUse, gone]
    · rename_i live
      split at rest
      · rename_i going
        simp only [Bool.and_eq_true, decide_eq_true_eq] at going
        obtain ⟨rfl, -⟩ := Prod.mk.inj (Except.ok.inj rest)
        refine ⟨rfl, Or.inl ⟨rfl, fun other there names known => ?_⟩⟩
        rw [unique other there names known]
        simp [InUse, going.1]
      · obtain ⟨rfl, -⟩ := Prod.mk.inj (Except.ok.inj rest)
        exact ⟨rfl, Or.inr ⟨resourceId, resource, named, found, back, live, rfl⟩⟩
  · rename_i nameless
    obtain ⟨rfl, -⟩ := Prod.mk.inj (Except.ok.inj done)
    refine ⟨rfl, Or.inl ⟨rfl, fun other there names known => ?_⟩⟩
    -- a name that is not truthy is empty, and no resource has the empty id
    have nonempty := (owned.resource known).nonempty
    rw [names] at nameless
    simp [truthy, nonempty] at nameless

/-- A request that is not over ends, or goes on releasing, with its resource on the way out. -/
theorem Change.ending (owned : Owned store) (known : get? store.requests id = some request)
    (nonterminal : isTerminalState request.state = false) {again : Bool}
    {ticket : Option DestructionTicket}
    (done : destroyOwned store id request again = .ok (after, ticket))
    {surroundings : Surroundings} {row : RequestRow Parameters}
    (fingerprint : row.fingerprint = request.fingerprint)
    (same : row.resourceId = request.resourceId) (session : row.sessionId = request.sessionId)
    (stage : row.state = .failed ∨ request.state = .releasing ∧ row.state = .releasing) :
    Change limits store (updateRequest surroundings after id row) := by
  obtain ⟨requests, idle | ⟨resourceId, resource, named, found, back, live, written⟩⟩ :=
    destroyOwned_spec owned done
  · have written : (updateRequest surroundings after id row).requests =
        put store.requests id (stamped surroundings row) := by
      rw [updateRequest_requests, requests]
    refine Change.touch owned known nonterminal written idle.1 (by simpa using fingerprint)
      (by simpa using same) (by simpa using session) ?_
    rcases stage with failed | ⟨releasing, goesOn⟩
    · exact Or.inr ⟨by simp [failed, isTerminalState], idle.2⟩
    · exact Or.inl (by simp [goesOn, releasing])
  · have requestsAfter : (updateRequest surroundings after id row).requests =
        put store.requests id (stamped surroundings row) := by
      rw [updateRequest_requests, requests]
    refine Change.move owned known nonterminal named found live requestsAfter written
      (by simpa using fingerprint) (by simpa using same) (fun bound there => ?_) ?_ (by simp)
      (Or.inr back) (fun goesOn => ⟨back, ?_⟩) (fun _ => by simp [InUse]) (by simp)
    · simpa [session] using there
    · rcases stage with failed | ⟨-, releasing⟩ <;> simp_all
    · rcases stage with failed | ⟨-, releasing⟩
      · simp [failed, isTerminalState] at goesOn
      · simp [releasing, Fits]

end Destruction

section Operations

variable {limits : BrokerLimits} {host : BrokerHost Parameters} {surroundings : Surroundings}
  {store after : Store Parameters Profile}

theorem recordPreAdmissionFailure_change (owned : Owned store)
    {input : BrokerAdmissionInput Parameters Profile} {failure : SessionBrokerFailure}
    (done : recordPreAdmissionFailure surroundings store input failure = .ok after) :
    Change limits store after := by
  unfold recordPreAdmissionFailure at done
  split at done
  · cases done
  · rename_i valid
    split at done
    · split at done
      · cases done
      · obtain ⟨requests, resources⟩ := linkExport_tables done
        exact .still requests resources
    · rename_i fresh
      obtain ⟨requests, resources⟩ := linkExport_tables done
      refine Change.receipt owned fresh ?_ requests resources rfl rfl
      rintro empty
      simp [invalidIdentity, empty, isBlank] at valid

variable {requestId : String} {owner : BindingProcessIdentity} {ticket : Option DestructionTicket}

section

variable (owned : Owned store)
include owned

theorem abandon_change {token : String}
    (done : abandon host surroundings store requestId owner token = .ok (after, ticket)) :
    Change limits store after := by
  unfold abandon at done
  split at done
  · cases done
  · rename_i valid
    split at done
    · rename_i fresh
      obtain ⟨rfl, -⟩ := Prod.mk.inj (Except.ok.inj done)
      refine Change.receipt owned fresh ?_ rfl rfl rfl rfl
      rintro empty
      simp [empty, isBlank] at valid
    · rename_i previous known
      split at done
      · cases done
      · split at done
        · obtain ⟨rfl, -⟩ := Prod.mk.inj (Except.ok.inj done)
          exact .still rfl rfl
        · rename_i nonterminal
          split at done
          · cases done
          · obtain ⟨⟨doomed, destroyed⟩, destroys, rest⟩ := ok_of_bind done
            obtain ⟨rfl, -⟩ := Prod.mk.inj (Except.ok.inj rest)
            exact Change.ending owned known (by simpa using nonterminal) destroys rfl rfl rfl
              (Or.inl rfl)

theorem failWhere_change {failure : FailureReason}
    (done : failWhere surroundings store requestId owner failure = .ok (after, ticket)) :
    Change limits store after := by
  obtain ⟨request, mine, rest⟩ := ok_of_bind done
  have known := (ownedRequest_ok mine).1
  split at rest
  · obtain ⟨rfl, -⟩ := Prod.mk.inj (Except.ok.inj rest)
    exact .still rfl rfl
  · rename_i nonterminal
    obtain ⟨⟨doomed, destroyed⟩, destroys, last⟩ := ok_of_bind rest
    obtain ⟨rfl, -⟩ := Prod.mk.inj (Except.ok.inj last)
    exact Change.ending owned known (by simpa using fun ended => nonterminal (Or.inl ended)) destroys
      rfl rfl rfl (Or.inl rfl)

theorem recoverRequest_change
    (done : recoverRequest surroundings store requestId owner = .ok (after, ticket)) :
    Change limits store after := by
  obtain ⟨request, there, rest⟩ := ok_of_bind done
  have known := requireValue_ok there
  split at rest
  · obtain ⟨rfl, -⟩ := Prod.mk.inj (Except.ok.inj rest)
    exact .still rfl rfl
  · split at rest
    · obtain ⟨rfl, -⟩ := Prod.mk.inj (Except.ok.inj rest)
      exact .still rfl rfl
    · rename_i nonterminal
      obtain ⟨⟨doomed, destroyed⟩, destroys, last⟩ := ok_of_bind rest
      obtain ⟨rfl, -⟩ := Prod.mk.inj (Except.ok.inj last)
      refine Change.ending owned known (by simpa using nonterminal) destroys rfl rfl rfl ?_
      by_cases releasing : request.state = .releasing
      · exact Or.inr ⟨releasing, by simp [releasing]⟩
      · exact Or.inl (by simp [releasing])

theorem relinquishForRestart_change
    (done : relinquishForRestart surroundings store requestId owner = .ok after) :
    Change limits store after := by
  obtain ⟨request, mine, rest⟩ := ok_of_bind done
  have known := (ownedRequest_ok mine).1
  split at rest
  · obtain rfl := Except.ok.inj rest
    exact .still rfl rfl
  · rename_i active
    obtain rfl := Except.ok.inj rest
    have state : request.state = .active := by
      by_contra other
      exact active (Or.inl other)
    exact Change.touch owned known (by simp [state, isTerminalState])
      (updateRequest_requests _ _ _ _) rfl (by simp) (by simp) (by simp) (Or.inl (by simp))

theorem adoptRestartHandoff_change {outcome : HandoffAdoption}
    (done : adoptRestartHandoff surroundings store requestId owner = .ok (after, outcome)) :
    Change limits store after := by
  obtain ⟨request, there, rest⟩ := ok_of_bind done
  have known := requireValue_ok there
  split at rest
  · obtain ⟨rfl, -⟩ := Prod.mk.inj (Except.ok.inj rest)
    exact .still rfl rfl
  · rename_i handoff
    have state : request.state = .active := by
      by_contra other
      exact handoff (Or.inr (Or.inl other))
    split at rest
    · obtain ⟨rfl, -⟩ := Prod.mk.inj (Except.ok.inj rest)
      exact .still rfl rfl
    · split at rest
      · obtain ⟨rfl, -⟩ := Prod.mk.inj (Except.ok.inj rest)
        exact .still rfl rfl
      · obtain ⟨⟨resourceId, resource⟩, -, last⟩ := ok_of_bind rest
        dsimp only at last
        split at last
        · obtain ⟨rfl, -⟩ := Prod.mk.inj (Except.ok.inj last)
          exact .still rfl rfl
        · obtain ⟨rfl, -⟩ := Prod.mk.inj (Except.ok.inj last)
          exact Change.touch owned known (by simp [state, isTerminalState])
            (updateRequest_requests _ _ _ _) rfl (by simp) (by simp) (by simp) (Or.inl (by simp))

theorem activate_change {sessionId : String} {hardware : Profile → Profile}
    (done : activate surroundings store requestId owner sessionId hardware = .ok after) :
    Change limits store after := by
  unfold activate at done
  split at done
  · cases done
  · obtain ⟨request, mine, rest⟩ := ok_of_bind done
    have known := (ownedRequest_ok mine).1
    split at rest
    · obtain rfl := Except.ok.inj rest
      exact .still rfl rfl
    · obtain ⟨⟨resourceId, resource⟩, held, last⟩ := ok_of_bind rest
      obtain ⟨named, found, back⟩ := ownedResource_ok held
      dsimp only at last
      split at last
      · cases last
      · rename_i staged
        have states : request.state = .acquiring ∧ resource.state = .reserved := by
          simpa only [not_or, not_not] using staged
        split at last
        · cases last
        · split at last
          · cases last
          · obtain rfl := Except.ok.inj last
            have unbound := (owned.request known).unbound states.1
            refine Change.move owned known (by simp [states.1, isTerminalState]) named found
              (by simp [states.2]) (updateRequest_requests _ _ _ _) rfl (by simp) (by simp)
              (fun bound there => ?_) (by simp) (by simp) (Or.inr back) (fun _ => ⟨back, by simp [Fits]⟩) ?_ (by simp)
            · simp [unbound] at there
            · simp [isTerminalState]

theorem beginRelease_change {sessionId : String}
    (done : beginRelease surroundings store sessionId owner = .ok after) :
    Change limits store after := by
  unfold beginRelease at done
  split at done
  · obtain rfl := Except.ok.inj done
    exact .still rfl rfl
  · split at done
    · obtain rfl := Except.ok.inj done
      exact .still rfl rfl
    · obtain ⟨request, mine, rest⟩ := ok_of_bind done
      have known := (ownedRequest_ok mine).1
      split at rest
      · obtain rfl := Except.ok.inj rest
        exact .still rfl rfl
      · rename_i active
        obtain ⟨⟨resourceId, resource⟩, held, last⟩ := ok_of_bind rest
        obtain ⟨named, found, back⟩ := ownedResource_ok held
        dsimp only at last
        split at last
        · cases last
        · rename_i running
          obtain rfl := Except.ok.inj last
          have states : request.state = .active ∧ resource.state = .active :=
            ⟨not_not.mp active, not_not.mp running⟩
          refine Change.move owned known (by simp [states.1, isTerminalState]) named found
            (by simp [states.2]) (updateRequest_requests _ _ _ _) rfl (by simp) (by simp)
            (fun bound there => by simpa using there) (by simp) (by simp) (Or.inr back) (fun _ => ⟨back, by simp [Fits]⟩) ?_ (by simp)
          simp [isTerminalState]

theorem releaseByDestruction_change
    (done : releaseByDestruction store requestId owner = .ok (after, ticket)) :
    Change limits store after := by
  obtain ⟨request, mine, rest⟩ := ok_of_bind done
  have known := (ownedRequest_ok mine).1
  split at rest
  · obtain ⟨rfl, -⟩ := Prod.mk.inj (Except.ok.inj rest)
    exact .still rfl rfl
  · split at rest
    · cases rest
    · rename_i releasing
      obtain ⟨⟨resourceId, resource⟩, held, last⟩ := ok_of_bind rest
      obtain ⟨named, found, back⟩ := ownedResource_ok held
      dsimp only at last
      split at last
      · obtain ⟨rfl, -⟩ := Prod.mk.inj (Except.ok.inj last)
        exact .still rfl rfl
      · obtain ⟨rfl, -⟩ := Prod.mk.inj (Except.ok.inj last)
        have state : request.state = .releasing := not_not.mp releasing
        have nonterminal : isTerminalState request.state = false := by simp [state, isTerminalState]
        have fits := (owned.holds known nonterminal named found).2
        rw [state] at fits
        refine Change.move owned known nonterminal named found ?_ (put_of_get? known).symm rfl rfl rfl
          (fun _ there => there) (by simp [state]) (by simp) (Or.inr back)
          (fun _ => ⟨back, by simp [state, Fits]⟩) (fun ended => by simp [nonterminal] at ended)
          (by simp)
        rcases fits with resetting | destroying <;> simp_all

end

section Pool

/-- Reach a store by changes, one after another. -/
abbrev Changes (limits : BrokerLimits) : Store Parameters Profile → Store Parameters Profile → Prop :=
  Relation.ReflTransGen (Change limits)

variable {resourceId : String} {resource : ResourceRow Profile}
  {returning : Option (String × String)} {tickets : List DestructionTicket}

theorem mem_liveResources : (resourceId, resource) ∈ liveResources store ↔
      (resourceId, resource) ∈ store.resources ∧ resource.state ≠ .destroyed := by
  unfold liveResources
  rw [List.mem_filter, decide_eq_true_iff]

theorem nodup_keys_liveResources (owned : Owned store) : (keys (liveResources store)).Nodup :=
  (List.filter_sublist.map Prod.fst).nodup owned.resourceKeys

theorem get?_liveResources (owned : Owned store)
    (found : get? (liveResources store) resourceId = some resource) :
    get? store.resources resourceId = some resource ∧ resource.state ≠ .destroyed := by
  have member := mem_liveResources.mp (mem_of_get? found)
  exact ⟨get?_of_mem owned.resourceKeys member.1, member.2⟩

/-- Draining evicts the resources of a list one after another. -/
theorem drainResources_changes {observed : Option (List DestructionTicket)}
    {entries : InsertionMap String (ResourceRow Profile)} (distinct : (keys entries).Nodup)
    (known : ∀ resourceId resource, (resourceId, resource) ∈ entries →
      get? store.resources resourceId = some resource) :
    Changes limits store (drainResources observed entries store).1 := by
  induction entries generalizing store with
  | nil => exact .refl
  | cons entry rest ih =>
    obtain ⟨resourceId, resource⟩ := entry
    rw [keys, List.map_cons, List.nodup_cons] at distinct
    unfold drainResources
    split
    · rename_i drainable
      have found := known resourceId resource List.mem_cons_self
      have idle : resource.state = .idle := by
        simp only [drainableIdle, Bool.and_eq_true, decide_eq_true_eq] at drainable
        exact drainable.1
      have evicted : Change limits store
          (updateResource store resourceId { resource with state := .destroying }) :=
        .evict resourceId resource ⟨found, idle⟩ rfl rfl
      refine .head evicted (ih distinct.2 ?_)
      intro other held member
      have apart : resourceId ≠ other := fun same =>
        distinct.1 (List.mem_map.mpr ⟨(other, held), member, same.symm⟩)
      rw [updateResource_resources, get?_put_of_ne _ apart]
      exact known other held (List.mem_cons_of_mem _ member)
    · exact ih distinct.2 fun other held member => known other held (List.mem_cons_of_mem _ member)

theorem drainIdle_changes (owned : Owned store) (observed : Option (List DestructionTicket)) :
    Changes limits store (drainIdle store observed).1 :=
  drainResources_changes (nodup_keys_liveResources owned) fun _ _ member =>
    get?_of_mem owned.resourceKeys (mem_liveResources.mp member).1

/-- An idle resource goes to destruction, unowned or for the receipt that just released it. -/
theorem Change.trim (owned : Owned store) (found : get? store.resources resourceId = some resource)
    (idle : resource.state = .idle) {owner : Option String}
    (released : ∀ requestId, owner = some requestId → ∃ row,
      get? store.requests requestId = some row ∧ row.state = .released ∧
        row.resourceId = some resourceId) (requests : after.requests = store.requests)
    (resources : after.resources = put store.resources resourceId
      { resource with
        state := .destroying, requestId := owner, revision := resource.revision + 1 }) :
    Change limits store after := by
  cases owner with
  | none =>
    have nobody := (owned.resource found).idle idle
    exact .evict resourceId resource ⟨found, idle⟩ requests (nobody ▸ resources)
  | some requestId =>
    obtain ⟨row, known, state, named⟩ := released requestId rfl
    have ended : isTerminalState row.state = true := by simp [state, isTerminalState]
    refine .pair requestId row resourceId _ (requests.trans (put_of_get? known).symm) resources
      ⟨(owned.request known).nonempty, fun goesOn => by simp [ended] at goesOn, by simp [state],
        by simp [state]⟩
      ⟨(owned.resource found).nonempty, by simp [InUse], by simp⟩ ?_ ?_ ?_ (by simp) ?_
      (Or.inr ⟨resource, found, by simp [idle], Or.inr rfl⟩)
    · intro old there
      obtain rfl := Option.some.inj (known.symm.trans there)
      exact RowFollows.refl row
    · intro other held there used back
      obtain ⟨holder, there, goesOn, _⟩ := owned.names there used back
      obtain rfl := Option.some.inj (known.symm.trans there)
      simp [ended] at goesOn
    · intro other holder there goesOn names
      -- nothing that is not over names an idle resource
      have fits := (owned.holds there goesOn names found).2
      rw [idle] at fits
      cases stage : holder.state <;> simp [stage, Fits] at fits
    · intro counted
      rw [countsAsSession_iff, ended, state] at counted
      simp at counted

/-- What is trimmed for a returning device is trimmed for the receipt that released it. -/
def ReturnsReleased (store : Store Parameters Profile) (returning : Option (String × String)) : Prop :=
  ∀ resourceId requestId, returning = some (resourceId, requestId) →
    ∃ row, get? store.requests requestId = some row ∧ row.state = .released ∧
      row.resourceId = some resourceId

theorem trimResource_change (owned : Owned store) (released : ReturnsReleased store returning)
    {live : InsertionMap String (ResourceRow Profile)} {id : String}
    (idle : ∀ resource, get? live id = some resource →
      get? store.resources id = some resource ∧ resource.state = .idle) {ticket : DestructionTicket}
    (done : trimResource returning live store id = .ok (after, ticket)) :
    Change limits store after ∧ after.requests = store.requests ∧
      ∀ other, id ≠ other → get? after.resources other = get? store.resources other := by
  obtain ⟨resource, there, written⟩ := ok_of_bind done
  obtain ⟨rfl, -⟩ := Prod.mk.inj (Except.ok.inj written)
  obtain ⟨found, state⟩ := idle resource (requireValue_ok there)
  refine ⟨Change.trim owned found state ?_ (updateResource_requests _ _ _)
    (updateResource_resources _ _ _), rfl, fun other apart => get?_put_of_ne _ apart _⟩
  have nobody := (owned.resource found).idle state
  intro requestId owner
  dsimp only at owner
  split at owner
  · rename_i came returns
    split at owner
    · rename_i returned
      obtain rfl := Option.some.inj owner
      exact returned.1 ▸ released came _ rfl
    · simp [nobody] at owner
  · simp [nobody] at owner

/-- Trimming evicts idle resources one after another. -/
theorem trimResources_changes {live : InsertionMap String (ResourceRow Profile)} {ids : List String}
    (distinct : ids.Nodup) (owned : Owned store) (released : ReturnsReleased store returning)
    (idle : ∀ id ∈ ids, ∀ resource, get? live id = some resource →
      get? store.resources id = some resource ∧ resource.state = .idle)
    (done : trimResources returning live store ids = .ok (after, tickets)) :
    Changes limits store after := by
  induction ids generalizing store after tickets with
  | nil =>
    obtain ⟨rfl, -⟩ := Prod.mk.inj (Except.ok.inj done)
    exact .refl
  | cons id rest ih =>
    obtain ⟨⟨trimmed, ticket⟩, first, others⟩ := ok_of_bind done
    obtain ⟨⟨final, later⟩, trims, last⟩ := ok_of_bind others
    obtain ⟨rfl, -⟩ := Prod.mk.inj (Except.ok.inj last)
    rw [List.nodup_cons] at distinct
    have step : Change limits store trimmed ∧ trimmed.requests = store.requests ∧
        ∀ other, id ≠ other → get? trimmed.resources other = get? store.resources other :=
      trimResource_change owned released (idle id List.mem_cons_self) first
    obtain ⟨change, requests, frame⟩ := step
    refine .head change (ih distinct.2 (change.owned owned) ?_ ?_ trims)
    · unfold ReturnsReleased
      rw [requests]
      exact released
    · intro other member held known
      have apart : id ≠ other := fun same => distinct.1 (same ▸ member)
      rw [frame other apart]
      exact idle other (List.mem_cons_of_mem _ member) held known

theorem trimIdle_changes (owned : Owned store) {limit : BrokerLimits}
    (released : ReturnsReleased store returning)
    (done : trimIdle host store limit returning = .ok (after, tickets)) :
    Changes limits store after := by
  obtain ⟨selected, chosen, trims⟩ := ok_of_bind done
  have ids : (occupiedResources (liveResources store)).map (·.id) = keys (liveResources store) := by
    simp [occupiedResources, keys, Function.comp_def]
  refine trimResources_changes (chooseIdleEvictions_nodup ?_ chosen) owned released ?_ trims
  · dsimp only
    rw [ids]
    exact nodup_keys_liveResources owned
  · intro id member resource there
    obtain ⟨view, inside, rfl, idle⟩ := chooseIdleEvictions_spec chosen id member
    obtain ⟨⟨resourceId, held⟩, known, rfl⟩ := List.mem_map.mp inside
    have found := get?_of_mem (nodup_keys_liveResources owned) known
    obtain rfl := Option.some.inj (there.symm.trans found)
    exact ⟨(get?_liveResources owned there).1, idle⟩

/-- A release ends with its resource back in the pool. -/
theorem returned_change (owned : Owned store) {requestId : String} {request : RequestRow Parameters}
    (known : get? store.requests requestId = some request) (releasing : request.state = .releasing)
    (named : request.resourceId = some resourceId)
    (found : get? store.resources resourceId = some resource)
    (resetting : resource.state = .resetting) (order : Nat) :
    Change limits store
      (updateRequest surroundings
        (updateResource store resourceId
          { resource with state := .idle, requestId := none, idleOrder := order })
        requestId { request with state := .released }) := by
  refine Change.move owned known (by simp [releasing, isTerminalState]) named found
    (by simp [resetting]) (updateRequest_requests _ _ _ _) (updateResource_resources _ _ _)
    (by simp) (by simp) (fun bound there => by simpa using there) (by simp) (by simp) (Or.inl rfl)
    ?_ (fun _ => by simp [InUse]) (fun _ => rfl)
  simp [isTerminalState]

theorem completeCleanRelease_changes (owned : Owned store) {requestId : String}
    {owner : BindingProcessIdentity} {limit : BrokerLimits}
    (done : completeCleanRelease host surroundings store requestId owner limit =
      .ok (after, tickets)) : Changes limits store after := by
  obtain ⟨request, mine, rest⟩ := ok_of_bind done
  have known := (ownedRequest_ok mine).1
  split at rest
  · obtain ⟨rfl, -⟩ := Prod.mk.inj (Except.ok.inj rest)
    exact .refl
  · obtain ⟨⟨resourceId, resource⟩, held, last⟩ := ok_of_bind rest
    obtain ⟨named, found, back⟩ := ownedResource_ok held
    dsimp only at last
    split at last
    · cases last
    · rename_i staged
      have states : request.state = .releasing ∧ resource.state = .resetting := by
        simpa only [not_or, not_not] using staged
      split at last
      · cases last
      · have change (order : Nat) : Change limits store
            (updateRequest surroundings
              (updateResource store resourceId
                { resource with state := .idle, requestId := none, idleOrder := order })
              requestId { request with state := .released }) :=
          returned_change owned known states.1 named found states.2 order
        refine .head (change _) (trimIdle_changes ((change _).owned owned) ?_ last)
        intro other releasing same
        obtain ⟨rfl, rfl⟩ := Prod.mk.inj (Option.some.inj same)
        exact ⟨stamped surroundings { request with state := .released }, get?_put_self _ _ _,
          by simp, by simp [named]⟩

end Pool

end Operations

section Reservation

/-- A request that waits for its admission: it is new, or acquires and holds nothing live. -/
structure Candidate (before : Store Parameters Profile) (id : String) (row : RequestRow Parameters) :
    Prop where
  nonempty : id ≠ ""
  acquiring : row.state = .acquiring
  unbound : row.sessionId = none
  holdsNothing : get? before.requests id = none ∧ row.resourceId = none ∨
    get? before.requests id = some row ∧ ∀ resourceId resource, row.resourceId = some resourceId →
      get? before.resources resourceId = some resource → resource.state = .destroyed

variable {limits : BrokerLimits} {before after : Store Parameters Profile} {id : String}
  {row : RequestRow Parameters}

namespace Candidate

theorem uses_nothing (candidate : Candidate before id row) (owned : Owned before)
    {resourceId : String} {resource : ResourceRow Profile}
    (found : get? before.resources resourceId = some resource)
    (back : resource.requestId = some id) : ¬InUse resource.state := by
  intro used
  obtain ⟨holder, there, -, names⟩ := owned.names found used back
  rcases candidate.holdsNothing with ⟨fresh, -⟩ | ⟨known, nothing⟩
  · rw [fresh] at there
    cases there
  · obtain rfl := Option.some.inj (known.symm.trans there)
    have gone := nothing resourceId resource names found
    simp [InUse, gone] at used

theorem follows (candidate : Candidate before id row) {later old : RequestRow Parameters}
    (known : get? before.requests id = some old) (fingerprint : later.fingerprint = row.fingerprint) :
    RowFollows old later := by
  rcases candidate.holdsNothing with ⟨fresh, -⟩ | ⟨there, -⟩
  · rw [fresh] at known
    cases known
  · obtain rfl := Option.some.inj (known.symm.trans there)
    refine ⟨fingerprint, fun ended => ?_, fun session bound => ?_⟩
    · simp [candidate.acquiring, isTerminalState] at ended
    · simp [candidate.unbound] at bound

theorem requestOwned (candidate : Candidate before id row) (owned : Owned before) :
    RequestOwned before.resources id row := by
  rcases candidate.holdsNothing with ⟨-, nothing⟩ | ⟨known, -⟩
  · refine ⟨candidate.nonempty, ?_, ?_, fun _ => candidate.unbound⟩
    · intro _ resourceId named
      rw [nothing] at named
      cases named
    · simp [candidate.acquiring]
  · exact owned.request known

variable {written : RequestRow Parameters}

/-- An admission that has to wait only writes its request. -/
theorem waits (candidate : Candidate before id row) (owned : Owned before)
    (room : ∀ cap, limits.sessionCap = some cap → countSessionAdmissions before id < cap)
    (requests : after.requests = put before.requests id written)
    (resources : after.resources = before.resources) (same : written = row) :
    Change limits before after := by
  subst same
  exact .request id written requests resources (candidate.requestOwned owned)
    (fun old known => candidate.follows known rfl)
    (fun resourceId resource found used back =>
      absurd used (candidate.uses_nothing owned found back))
    fun _ => Or.inr room

/-- A refused admission only writes its request, which then occupies nothing. -/
theorem refused (candidate : Candidate before id row) (owned : Owned before)
    (requests : after.requests = put before.requests id written)
    (resources : after.resources = before.resources) (failed : written.state = .failed)
    (fingerprint : written.fingerprint = row.fingerprint)
    (same : written.resourceId = row.resourceId) : Change limits before after := by
  refine .request id written requests resources ⟨candidate.nonempty, ?_, ?_, ?_⟩
    (fun old known => candidate.follows known fingerprint)
    (fun resourceId resource found used back =>
      absurd used (candidate.uses_nothing owned found back)) ?_
  · intro goesOn
    simp [failed, isTerminalState] at goesOn
  · simp [failed]
  · simp [failed]
  · intro counted
    rw [countsAsSession_iff, failed] at counted
    obtain goesOn | ⟨-, resourceId, resource, named, found, back, live⟩ := counted
    · simp [isTerminalState] at goesOn
    · rw [same] at named
      rcases candidate.holdsNothing with ⟨-, nothing⟩ | ⟨-, nothing⟩
      · simp [nothing] at named
      · exact absurd (nothing resourceId resource named found) live

/-- An admitted request gets a new resource or one that was idle. -/
theorem assigned (candidate : Candidate before id row) (owned : Owned before)
    (room : ∀ cap, limits.sessionCap = some cap → countSessionAdmissions before id < cap)
    {resourceId : String} {resource : ResourceRow Profile}
    (requests : after.requests = put before.requests id written)
    (resources : after.resources = put before.resources resourceId resource)
    (acquiring : written.state = .acquiring) (unbound : written.sessionId = none)
    (fingerprint : written.fingerprint = row.fingerprint)
    (named : written.resourceId = some resourceId) (nonempty : resourceId ≠ "")
    (back : resource.requestId = some id)
    (state : resource.state = .reserved ∨ resource.state = .destroying)
    (free : (get? before.resources resourceId = none ∧
        ∀ cap, limits.totalDeviceCap = some cap → (liveResources before).length < cap) ∨
      ∃ old, get? before.resources resourceId = some old ∧ old.state = .idle) :
    Change limits before after := by
  refine .pair id written resourceId resource requests resources ?_ ?_
    (fun old known => candidate.follows known fingerprint)
    (fun other held found used owner => absurd used (candidate.uses_nothing owned found owner)) ?_
    (by rcases state with reserved | destroying <;> simp [*]) (fun _ => Or.inr room) ?_
  · refine ⟨candidate.nonempty, fun _ other there => ?_, by simp [acquiring], fun _ => unbound⟩
    obtain rfl := Option.some.inj (named.symm.trans there)
    refine ⟨resource, by rw [resources, get?_put_self], back, ?_⟩
    rw [acquiring]
    exact state.imp_right Or.inl
  · refine ⟨nonempty, fun _ => ⟨id, written, back, by rw [requests, get?_put_self],
      by simp [acquiring, isTerminalState], named⟩, fun idle => ?_⟩
    rcases state with reserved | destroying <;> simp_all
  · intro other holder known goesOn names
    obtain ⟨held, found, -, fits⟩ := (owned.request known).holds goesOn resourceId names
    rcases free with ⟨fresh, -⟩ | ⟨old, there, idle⟩
    · rw [fresh] at found
      cases found
    · obtain rfl := Option.some.inj (found.symm.trans there)
      rw [idle] at fits
      cases stage : holder.state <;> simp [stage, Fits] at fits
  · rcases free with ⟨fresh, under⟩ | ⟨old, there, idle⟩
    · exact Or.inl ⟨fresh, back, under⟩
    · exact Or.inr ⟨old, there, by simp [idle], Or.inr back⟩

end Candidate

/-- The row that a refusal leaves behind. -/
def refusedRow (surroundings : Surroundings) (row : RequestRow Parameters)
    (reason : AdmissionRefusalReason) : RequestRow Parameters :=
  { row with
    state := .failed, error := some reason.text, errorCode := some "capacity_exhausted",
    retryable := some true, terminalAtMs := some surroundings.now }

/-- Nothing but the receipt of the refused request is written; it occupies no session. -/
def OnlyRefused (surroundings : Surroundings) (before after : Store Parameters Profile) (id : String)
    (reason : AdmissionRefusalReason) : Prop :=
  after.resources = before.resources ∧ ∃ row,
    after.requests = put before.requests id (refusedRow surroundings row reason) ∧
      countsAsSession after.resources id (refusedRow surroundings row reason) = false

theorem Candidate.refused_uncounted (candidate : Candidate before id row) {surroundings : Surroundings}
    {reason : AdmissionRefusalReason} :
    countsAsSession before.resources id (refusedRow surroundings row reason) = false := by
  rw [← Bool.not_eq_true, countsAsSession_iff]
  rintro (goesOn | ⟨-, resourceId, resource, named, found, back, live⟩)
  · simp [refusedRow, isTerminalState] at goesOn
  · have names : row.resourceId = some resourceId := named
    rcases candidate.holdsNothing with ⟨-, nothing⟩ | ⟨-, nothing⟩
    · simp [nothing] at names
    · exact live (nothing resourceId resource names found)

/-- A reservation is one change of the tables as they were before the request was written,
and a refusal leaves the resources alone. -/
theorem reserve_change {host : BrokerHost Parameters} {surroundings : Surroundings}
    {written : Store Parameters Profile} {input : BrokerAdmissionInput Parameters Profile}
    {outcome : BrokerAdmission} (owned : Owned before)
    (candidate : Candidate before input.requestId row)
    (requests : written.requests = put before.requests input.requestId row)
    (resources : written.resources = before.resources)
    (done : reserve host surroundings written row input = .ok (after, outcome)) :
    Change input.limits before after ∧ ∀ reason, outcome = .refused reason →
      OnlyRefused surroundings before after input.requestId reason := by
  obtain ⟨decision, selected, rest⟩ := ok_of_bind done
  obtain ⟨justified, sessions⟩ := selectAdmission_spec selected
  have count : countSessionAdmissions written input.requestId =
      countSessionAdmissions before input.requestId := by
    rw [countSessionAdmissions_eq, countSessionAdmissions_eq, requests, resources, countOthers_put]
  have live : liveResources written = liveResources before := by
    unfold liveResources
    rw [resources]
  have chosen : ∀ id state, (∃ view ∈ (admissionSnapshot written input).resources, view.id = id ∧
      view.state = state) → ∃ resource, get? (liveResources before) id = some resource ∧
        resource.state = state := by
    rintro id state ⟨view, member, rfl, stands⟩
    change view ∈ admissionViews input (liveResources written) at member
    obtain ⟨⟨resourceId, resource⟩, known, rfl⟩ := List.mem_map.mp member
    rw [live] at known
    exact ⟨resource, get?_of_mem (nodup_keys_liveResources owned) known, stands⟩
  have rewritten (later : RequestRow Parameters) :
      put written.requests input.requestId later = put before.requests input.requestId later := by
    rw [requests, put_put]
  have taken (resourceId : String) (state : ResourceState) (reuse : Nat)
      (fits : state = .reserved ∨ state = .destroying)
      (idle : Justified (admissionSnapshot written input) input.limits (.reuse resourceId))
      (room : ∀ cap, input.limits.sessionCap = some cap →
        countSessionAdmissions before input.requestId < cap)
      (takes : takeResource surroundings written input.requestId row resourceId state reuse =
        .ok after) : Change input.limits before after := by
    obtain ⟨resource, there, last⟩ := ok_of_bind takes
    obtain ⟨held, found, stands⟩ := chosen resourceId .idle idle
    rw [live] at there
    obtain rfl := Option.some.inj (found.symm.trans (requireValue_ok there))
    have known := (get?_liveResources owned found).1
    have requestsAfter : after.requests = put before.requests input.requestId
        (stamped surroundings { row with resourceId := some resourceId }) := by
      rw [← Except.ok.inj last, updateRequest_requests, updateResource_requests, rewritten]
    have resourcesAfter : after.resources = put before.resources resourceId
        { held with
          state := state, requestId := some input.requestId, reuseCount := held.reuseCount + reuse,
          revision := held.revision + 1 } := by
      rw [← Except.ok.inj last, updateRequest_resources, updateResource_resources, resources]
    exact candidate.assigned owned room requestsAfter resourcesAfter
      (by simp [candidate.acquiring]) (by simp [candidate.unbound]) (by simp) (by simp)
      (owned.resource known).nonempty rfl fits (Or.inr ⟨held, known, stands⟩)
  have roomy : (∀ reason, decision ≠ .refuse reason) → ∀ cap, input.limits.sessionCap = some cap →
        countSessionAdmissions before input.requestId < cap := by
    intro admitted cap limited
    rcases sessions with ⟨reason, refused⟩ | under
    · exact absurd refused (admitted reason)
    · exact count ▸ under cap limited
  cases decision with
  | wait resourceId waitMs =>
    obtain ⟨rfl, rfl⟩ := Prod.mk.inj (Except.ok.inj rest)
    have row_eq : (updateRequest surroundings written input.requestId row).requests =
        put before.requests input.requestId (stamped surroundings row) := by
      rw [updateRequest_requests, rewritten]
    refine ⟨candidate.waits owned (roomy (by simp)) row_eq resources ?_, by simp⟩
    simp [stamped, candidate.acquiring, isTerminalState]
  | refuse reason =>
    obtain ⟨rfl, rfl⟩ := Prod.mk.inj (Except.ok.inj rest)
    have row_eq : (refuse surroundings written input.requestId row reason).requests =
        put before.requests input.requestId (refusedRow surroundings row reason) := by
      unfold refuse
      rw [updateRequest_requests, rewritten]
      simp [stamped, isTerminalState, refusedRow]
    refine ⟨candidate.refused owned row_eq resources rfl rfl rfl, fun other same => ?_⟩
    obtain rfl := BrokerAdmission.refused.inj same
    have same : (refuse surroundings written input.requestId row reason).resources =
        before.resources := resources
    exact ⟨resources, row, row_eq, same ▸ candidate.refused_uncounted⟩
  | create =>
    obtain ⟨profile, -, last⟩ := ok_of_bind rest
    obtain ⟨created, creates, final⟩ := ok_of_bind last
    obtain ⟨rfl, rfl⟩ := Prod.mk.inj (Except.ok.inj final)
    unfold createResource at creates
    split at creates
    · cases creates
    · rename_i unused
      have fresh : get? before.resources input.newResourceId.val = none := by
        rw [get?_eq_none_iff, ← has_iff, ← resources]
        exact unused
      have requestsAfter : created.requests = put before.requests input.requestId
          (stamped surroundings { row with resourceId := some input.newResourceId.val }) := by
        rw [← Except.ok.inj creates, updateRequest_requests, rewritten]
      have resourcesAfter : created.resources = put before.resources input.newResourceId.val
          { allocationIndex := written.nextAllocationIndex, scopeKey := host.scopeKey,
            profile := profile, state := .reserved, requestId := some input.requestId } := by
        rw [← Except.ok.inj creates, updateRequest_resources, resources]
      have space : ∀ cap, input.limits.totalDeviceCap = some cap →
          (liveResources before).length < cap := by
        intro cap limited
        have under := justified cap limited
        rwa [admissionSnapshot, admissionViews, List.length_map, live] at under
      exact ⟨candidate.assigned owned (roomy (by simp)) requestsAfter resourcesAfter
        (by simp [candidate.acquiring]) (by simp [candidate.unbound]) (by simp) (by simp)
        input.newResourceId.property rfl (Or.inl rfl) (Or.inl ⟨fresh, space⟩), by simp⟩
  | reuse resourceId =>
    obtain ⟨store, takes, final⟩ := ok_of_bind rest
    obtain ⟨rfl, rfl⟩ := Prod.mk.inj (Except.ok.inj final)
    exact ⟨taken resourceId .reserved 1 (Or.inl rfl) justified (roomy (by simp)) takes, by simp⟩
  | evict resourceId =>
    obtain ⟨profile, -, last⟩ := ok_of_bind rest
    obtain ⟨store, takes, final⟩ := ok_of_bind last
    obtain ⟨rfl, rfl⟩ := Prod.mk.inj (Except.ok.inj final)
    exact ⟨taken resourceId .destroying 0 (Or.inr rfl) justified (roomy (by simp)) takes, by simp⟩

end Reservation

section Admission

variable {host : BrokerHost Parameters} {surroundings : Surroundings}
  {store after : Store Parameters Profile} {input : BrokerAdmissionInput Parameters Profile}
  {outcome : BrokerAdmission}

/-- An admission is one change; a refused one only records its receipt. -/
theorem admitRequest_change (owned : Owned store)
    (done : admitRequest host surroundings store input = .ok (after, outcome)) :
    Change input.limits store after ∧ ∀ reason, outcome = .refused reason →
      OnlyRefused surroundings store after input.requestId reason := by
  unfold admitRequest at done
  split at done
  · cases done
  · rename_i valid
    split at done
    · split at done
      · cases done
      · obtain ⟨linked, links, rest⟩ := ok_of_bind done
        obtain ⟨requests, resources⟩ := linkExport_tables links
        obtain ⟨rfl, rfl⟩ := Prod.mk.inj (Except.ok.inj rest)
        exact ⟨.still requests resources, by simp⟩
    · rename_i fresh
      obtain ⟨linked, links, rest⟩ := ok_of_bind done
      obtain ⟨requests, resources⟩ := linkExport_tables links
      have nonempty : input.requestId ≠ "" := by
        rintro empty
        simp [invalidIdentity, empty, isBlank] at valid
      exact reserve_change owned ⟨nonempty, rfl, rfl, Or.inl ⟨fresh, rfl⟩⟩ requests resources rest

theorem continueAdmission_change (owned : Owned store)
    (done : continueAdmission host surroundings store input = .ok (after, outcome)) :
    Change input.limits store after ∧ ∀ reason, outcome = .refused reason →
      OnlyRefused surroundings store after input.requestId reason := by
  obtain ⟨request, mine, rest⟩ := ok_of_bind done
  have known := (ownedRequest_ok mine).1
  split at rest
  · cases rest
  · rename_i unchanged
    have acquiring : request.state = .acquiring := by
      by_contra other
      exact unchanged (Or.inr other)
    have continued (nothing : ∀ resourceId resource, request.resourceId = some resourceId →
          get? store.resources resourceId = some resource → resource.state = .destroyed)
        (reserves : reserve host surroundings store request input = .ok (after, outcome)) :
        Change input.limits store after ∧ ∀ reason, outcome = .refused reason →
          OnlyRefused surroundings store after input.requestId reason :=
      reserve_change owned
        ⟨(owned.request known).nonempty, acquiring, (owned.request known).unbound acquiring,
          Or.inr ⟨known, nothing⟩⟩ (put_of_get? known).symm rfl reserves
    split at rest
    · rename_i nameless
      exact continued (fun resourceId _ named => by simp [nameless] at named) rest
    · rename_i resourceId named
      obtain ⟨resource, there, last⟩ := ok_of_bind rest
      split at last
      · cases last
      · rename_i gone
        have destroyed : resource.state = .destroyed := by
          by_contra other
          exact gone (Or.inl other)
        refine continued (fun other held names found => ?_) last
        obtain rfl := Option.some.inj (named.symm.trans names)
        obtain rfl := Option.some.inj (found.symm.trans (requireValue_ok there))
        exact destroyed

end Admission

end AutoMobile.SessionBroker
