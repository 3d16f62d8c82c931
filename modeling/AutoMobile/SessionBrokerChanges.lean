import AutoMobile.SessionBrokerTransactions

/- What one transaction can do to the tables, and what every such change preserves: the
ownership of resources, the history of receipts, and the capacity limits. -/
namespace AutoMobile.SessionBroker

open InsertionMap

variable {Parameters Profile : Type}

/-- The states of a resource that a request in a given state can hold. -/
def Fits : BrokerRequestState → ResourceState → Prop
  | .acquiring, state => state = .reserved ∨ state = .destroying ∨ state = .destroyed
  | .active, state => state = .active
  | .releasing, state => state = .resetting ∨ state = .destroying
  | _, _ => False

/-- A session is being prepared on the resource, uses it, or is leaving it. -/
def InUse (state : ResourceState) : Prop := state = .reserved ∨ state = .active ∨ state = .resetting

/-- The resource names the request back, in a state that fits. -/
def Holds (resources : InsertionMap String (ResourceRow Profile)) (id : String)
    (state : BrokerRequestState) (resourceId : String) : Prop :=
  ∃ resource, get? resources resourceId = some resource ∧ resource.requestId = some id ∧
    Fits state resource.state

structure RequestOwned (resources : InsertionMap String (ResourceRow Profile)) (id : String)
    (row : RequestRow Parameters) : Prop where
  nonempty : id ≠ ""
  holds : isTerminalState row.state = false → ∀ resourceId, row.resourceId = some resourceId →
    Holds resources id row.state resourceId
  reserved : row.state = .active ∨ row.state = .releasing → row.resourceId ≠ none
  unbound : row.state = .acquiring → row.sessionId = none

structure ResourceOwned (requests : InsertionMap String (RequestRow Parameters)) (resourceId : String)
    (resource : ResourceRow Profile) : Prop where
  nonempty : resourceId ≠ ""
  owner : InUse resource.state → ∃ id row, resource.requestId = some id ∧
    get? requests id = some row ∧ isTerminalState row.state = false ∧
    row.resourceId = some resourceId
  idle : resource.state = .idle → resource.requestId = none

/-- The tables agree on who holds what. -/
structure Owned (store : Store Parameters Profile) : Prop where
  requestKeys : (keys store.requests).Nodup
  resourceKeys : (keys store.resources).Nodup
  request : ∀ {id row}, get? store.requests id = some row → RequestOwned store.resources id row
  resource : ∀ {resourceId resource}, get? store.resources resourceId = some resource →
    ResourceOwned store.requests resourceId resource

/-- A receipt keeps its fingerprint, its session once it has one, and a terminal state. -/
structure RowFollows (before after : RequestRow Parameters) : Prop where
  fingerprint : after.fingerprint = before.fingerprint
  terminal : isTerminalState before.state = true →
    after.state = before.state ∧ after.sessionId = before.sessionId
  session : ∀ session, before.sessionId = some session → after.sessionId = some session

/-- No receipt is lost, and each one follows from what it was. -/
def Follows (before after : Store Parameters Profile) : Prop :=
  ∀ id row, get? before.requests id = some row →
    ∃ later, get? after.requests id = some later ∧ RowFollows row later

def sessionCount (store : Store Parameters Profile) : Nat :=
  store.requests.countP fun (id, request) => countsAsSession store.resources id request

/-- The live resources and the counted sessions are within the limits. -/
structure Capped (limits : BrokerLimits) (store : Store Parameters Profile) : Prop where
  devices : ∀ cap, limits.totalDeviceCap = some cap → (liveResources store).length ≤ cap
  sessions : ∀ cap, limits.sessionCap = some cap → sessionCount store ≤ cap

/-- Writing the request occupies no new session, or there is room for one. -/
def SessionRoom (limits : BrokerLimits) (before : Store Parameters Profile)
    (resources : InsertionMap String (ResourceRow Profile)) (id : String)
    (row : RequestRow Parameters) : Prop :=
  countsAsSession resources id row = true → (∃ old, get? before.requests id = some old ∧
        countsAsSession before.resources id old = true) ∨
      ∀ cap, limits.sessionCap = some cap → countSessionAdmissions before id < cap

/-- A written resource is new under the device limit, or was live already and passes to
nobody but the writing request. -/
def DeviceRoom (limits : BrokerLimits) (before : Store Parameters Profile) (id resourceId : String)
    (requestId : Option String) : Prop :=
  (get? before.resources resourceId = none ∧ requestId = some id ∧
    ∀ cap, limits.totalDeviceCap = some cap → (liveResources before).length < cap) ∨
  ∃ old, get? before.resources resourceId = some old ∧ old.state ≠ .destroyed ∧
    (requestId = none ∨ requestId = some id)

/-- One step of a transaction, as the other brokers can see it. -/
inductive Change (limits : BrokerLimits) (before after : Store Parameters Profile) : Prop
  /-- Neither requests nor resources change. -/
  | still (requests : after.requests = before.requests)
      (resources : after.resources = before.resources)
  /-- One request is written, and keeps what it holds. -/
  | request (id : String) (row : RequestRow Parameters)
      (requests : after.requests = put before.requests id row)
      (resources : after.resources = before.resources)
      (owned : RequestOwned before.resources id row)
      (follows : ∀ old, get? before.requests id = some old → RowFollows old row)
      (keeps : ∀ resourceId resource, get? before.resources resourceId = some resource →
        InUse resource.state → resource.requestId = some id →
        isTerminalState row.state = false ∧ row.resourceId = some resourceId)
      (room : SessionRoom limits before before.resources id row)
  /-- A request and a resource are written together; neither was tied to another. -/
  | pair (id : String) (row : RequestRow Parameters) (resourceId : String)
      (resource : ResourceRow Profile)
      (requests : after.requests = put before.requests id row)
      (resources : after.resources = put before.resources resourceId resource)
      (ownedRequest : RequestOwned after.resources id row)
      (ownedResource : ResourceOwned after.requests resourceId resource)
      (follows : ∀ old, get? before.requests id = some old → RowFollows old row)
      (loneRequest : ∀ other held, get? before.resources other = some held → InUse held.state →
        held.requestId = some id → other = resourceId)
      (loneResource : ∀ other held, get? before.requests other = some held →
        isTerminalState held.state = false → held.resourceId = some resourceId → other = id)
      (live : resource.state ≠ .destroyed)
      (room : SessionRoom limits before after.resources id row)
      (device : DeviceRoom limits before id resourceId resource.requestId)
  /-- An idle resource goes to destruction. -/
  | evict (resourceId : String) (resource : ResourceRow Profile)
      (idle : get? before.resources resourceId = some resource ∧ resource.state = .idle)
      (requests : after.requests = before.requests)
      (resources : after.resources = put before.resources resourceId
        { resource with state := .destroying, revision := resource.revision + 1 })

namespace RowFollows

theorem refl (row : RequestRow Parameters) : RowFollows row row :=
  ⟨rfl, fun _ => ⟨rfl, rfl⟩, fun _ bound => bound⟩

theorem trans {first second third : RequestRow Parameters} (one : RowFollows first second)
    (other : RowFollows second third) : RowFollows first third where
  fingerprint := other.fingerprint.trans one.fingerprint
  terminal := by
    intro ended
    obtain ⟨state, session⟩ := one.terminal ended
    obtain ⟨later, binding⟩ := other.terminal (state ▸ ended)
    exact ⟨later.trans state, binding.trans session⟩
  session := fun session bound => other.session session (one.session session bound)

end RowFollows

namespace Follows

theorem refl (store : Store Parameters Profile) : Follows store store :=
  fun _ row known => ⟨row, known, RowFollows.refl row⟩

theorem trans {first second third : Store Parameters Profile} (one : Follows first second)
    (other : Follows second third) : Follows first third := by
  intro id row known
  obtain ⟨later, there, follows⟩ := one id row known
  obtain ⟨last, found, further⟩ := other id later there
  exact ⟨last, found, follows.trans further⟩

theorem of_requests_eq {before after : Store Parameters Profile}
    (same : after.requests = before.requests) : Follows before after := by
  intro id row known
  exact ⟨row, same ▸ known, RowFollows.refl row⟩

theorem of_put {before after : Store Parameters Profile} {id : String} {row : RequestRow Parameters}
    (written : after.requests = put before.requests id row)
    (follows : ∀ old, get? before.requests id = some old → RowFollows old row) :
    Follows before after := by
  intro other held known
  rw [written, get?_put]
  split
  · rename_i same
    subst same
    exact ⟨row, rfl, follows held known⟩
  · exact ⟨held, known, RowFollows.refl held⟩

end Follows

theorem Change.follows {limits : BrokerLimits} {before after : Store Parameters Profile}
    (change : Change limits before after) : Follows before after := by
  cases change with
  | still requests => exact Follows.of_requests_eq requests
  | request _ _ requests _ _ follows => exact Follows.of_put requests follows
  | pair _ _ _ _ requests _ _ _ follows => exact Follows.of_put requests follows
  | evict _ _ _ requests => exact Follows.of_requests_eq requests

namespace Owned

theorem empty : Owned ({} : Store Parameters Profile) where
  requestKeys := nodup_keys_nil
  resourceKeys := nodup_keys_nil
  request := fun known => by cases known
  resource := fun known => by cases known

/-- What a nonterminal request names is tied to it. -/
theorem holds {store : Store Parameters Profile} (owned : Owned store) {id : String}
    {row : RequestRow Parameters} (known : get? store.requests id = some row)
    (nonterminal : isTerminalState row.state = false) {resourceId : String}
    (named : row.resourceId = some resourceId) {resource : ResourceRow Profile}
    (found : get? store.resources resourceId = some resource) :
    resource.requestId = some id ∧ Fits row.state resource.state := by
  obtain ⟨same, there, back, fits⟩ := (owned.request known).holds nonterminal resourceId named
  obtain rfl := Option.some.inj (there.symm.trans found)
  exact ⟨back, fits⟩

/-- The only resource in use by a request is the one it names. -/
theorem names {store : Store Parameters Profile} (owned : Owned store) {resourceId : String}
    {resource : ResourceRow Profile} (found : get? store.resources resourceId = some resource)
    (used : InUse resource.state) {id : String} (back : resource.requestId = some id) :
    ∃ row, get? store.requests id = some row ∧ isTerminalState row.state = false ∧
      row.resourceId = some resourceId := by
  obtain ⟨owner, row, named, known, nonterminal, there⟩ := (owned.resource found).owner used
  obtain rfl := Option.some.inj (named.symm.trans back)
  exact ⟨row, known, nonterminal, there⟩

theorem of_eq {before after : Store Parameters Profile} (owned : Owned before)
    (requests : after.requests = before.requests) (resources : after.resources = before.resources) :
    Owned after where
  requestKeys := requests ▸ owned.requestKeys
  resourceKeys := resources ▸ owned.resourceKeys
  request := by
    intro id row known
    rw [requests] at known
    exact resources ▸ owned.request known
  resource := by
    intro resourceId resource found
    rw [resources] at found
    exact requests ▸ owned.resource found

end Owned

/-- A request holds what it held when no resource it names is written. -/
theorem RequestOwned.put {resources : InsertionMap String (ResourceRow Profile)} {id : String}
    {row : RequestRow Parameters} (owned : RequestOwned resources id row) {resourceId : String}
    (elsewhere : isTerminalState row.state = false → row.resourceId ≠ some resourceId)
    (resource : ResourceRow Profile) :
    RequestOwned (InsertionMap.put resources resourceId resource) id row where
  nonempty := owned.nonempty
  reserved := owned.reserved
  unbound := owned.unbound
  holds := by
    intro nonterminal named there
    have apart : resourceId ≠ named := fun same => elsewhere nonterminal (same ▸ there)
    obtain ⟨held, found, back, fits⟩ := owned.holds nonterminal named there
    exact ⟨held, (get?_put_of_ne _ apart _).trans found, back, fits⟩

/-- A resource is owned as it was when its user is not written. -/
theorem ResourceOwned.put {requests : InsertionMap String (RequestRow Parameters)}
    {resourceId : String} {resource : ResourceRow Profile}
    (owned : ResourceOwned requests resourceId resource) {id : String}
    (elsewhere : InUse resource.state → resource.requestId ≠ some id) (row : RequestRow Parameters) :
    ResourceOwned (InsertionMap.put requests id row) resourceId resource where
  nonempty := owned.nonempty
  idle := owned.idle
  owner := by
    intro used
    obtain ⟨owner, held, back, known, rest⟩ := owned.owner used
    have apart : id ≠ owner := fun same => elsewhere used (same ▸ back)
    exact ⟨owner, held, back, (get?_put_of_ne _ apart _).trans known, rest⟩

/-- Every change keeps the tables in agreement. -/
theorem Change.owned {limits : BrokerLimits} {before after : Store Parameters Profile}
    (change : Change limits before after) (owned : Owned before) : Owned after := by
  cases change with
  | still requests resources => exact owned.of_eq requests resources
  | request id row requests resources written follows keeps room =>
    refine ⟨requests ▸ nodup_keys_put owned.requestKeys id row, resources ▸ owned.resourceKeys, ?_, ?_⟩
    · intro other held known
      rw [requests] at known
      rw [resources]
      rcases of_get?_put known with ⟨same, rfl⟩ | ⟨_, known⟩
      · exact same ▸ written
      · exact owned.request known
    · intro resourceId resource found
      rw [resources] at found
      have there := owned.resource found
      rw [requests]
      refine ⟨there.nonempty, fun used => ?_, there.idle⟩
      obtain ⟨owner, held, back, known, nonterminal, named⟩ := there.owner used
      by_cases same : id = owner
      · subst same
        obtain ⟨stays, names⟩ := keeps resourceId resource found used back
        exact ⟨id, row, back, get?_put_self _ _ _, stays, names⟩
      · exact ⟨owner, held, back, (get?_put_of_ne _ same _).trans known, nonterminal, named⟩
  | pair id row resourceId resource requests resources ownedRequest ownedResource _ loneRequest
      loneResource =>
      refine ⟨requests ▸ nodup_keys_put owned.requestKeys id row,
        resources ▸ nodup_keys_put owned.resourceKeys resourceId resource, ?_, ?_⟩
      · intro other held known
        rw [requests] at known
        rcases of_get?_put known with ⟨same, rfl⟩ | ⟨apart, known⟩
        · exact same ▸ ownedRequest
        · rw [resources]
          refine (owned.request known).put (fun nonterminal named => apart ?_) resource
          exact (loneResource other held known nonterminal named).symm
      · intro other held found
        rw [resources] at found
        rcases of_get?_put found with ⟨same, rfl⟩ | ⟨apart, found⟩
        · exact same ▸ ownedResource
        · rw [requests]
          refine (owned.resource found).put (fun used back => apart ?_) row
          exact (loneRequest other held found used back).symm
  | evict resourceId resource idle requests resources =>
    obtain ⟨found, state⟩ := idle
    refine ⟨requests ▸ owned.requestKeys,
      resources ▸ nodup_keys_put owned.resourceKeys resourceId _, ?_, ?_⟩
    · intro other held known
      rw [requests] at known
      rw [resources]
      refine (owned.request known).put (fun nonterminal named => ?_) _
      -- nothing nonterminal can name an idle resource
      have fits := (owned.holds known nonterminal named found).2
      rw [state] at fits
      cases stage : held.state <;> simp [stage, Fits] at fits
    · intro other held there
      rw [resources] at there
      rw [requests]
      rcases of_get?_put there with ⟨same, rfl⟩ | ⟨_, there⟩
      · exact ⟨same ▸ (owned.resource found).nonempty, by simp [InUse], by simp⟩
      · exact owned.resource there

section Counts

def isLive (entry : String × ResourceRow Profile) : Bool := entry.2.state ≠ .destroyed

def isCounted (resources : InsertionMap String (ResourceRow Profile))
    (entry : String × RequestRow Parameters) : Bool :=
  countsAsSession resources entry.1 entry.2

theorem length_liveResources (store : Store Parameters Profile) :
    (liveResources store).length = store.resources.countP isLive :=
  List.countP_eq_length_filter.symm

theorem sessionCount_eq (store : Store Parameters Profile) :
    sessionCount store = store.requests.countP (isCounted store.resources) := rfl

theorem countSessionAdmissions_eq (store : Store Parameters Profile) (id : String) :
    countSessionAdmissions store id = countOthers (isCounted store.resources) store.requests id := rfl

variable {resources : InsertionMap String (ResourceRow Profile)} {id resourceId : String}
  {row : RequestRow Parameters} {resource : ResourceRow Profile} {limits : BrokerLimits}
  {before after : Store Parameters Profile}

theorem countsAsSession_of_nonterminal (nonterminal : isTerminalState row.state = false) :
    countsAsSession resources id row = true := by
  cases state : row.state <;> simp_all [isTerminalState, countsAsSession]

/-- A failed request is counted for a live resource that names it back. -/
theorem countsAsSession_iff : countsAsSession resources id row = true ↔
      isTerminalState row.state = false ∨ row.state = .failed ∧
        ∃ resourceId resource, row.resourceId = some resourceId ∧
          get? resources resourceId = some resource ∧ resource.requestId = some id ∧
          resource.state ≠ .destroyed := by
  unfold countsAsSession
  cases named : row.resourceId with
  | none => cases row.state <;> simp [isTerminalState]
  | some resourceId =>
    rw [Option.bind_some]
    cases found : get? resources resourceId with
    | none => cases row.state <;> simp [isTerminalState, found]
    | some resource => cases row.state <;> simp [isTerminalState, found]

/-- Writing a resource for one request counts no other request anew. -/
theorem countsAsSession_put {other : String} (apart : other ≠ id)
    (passes : resource.requestId = none ∨ resource.requestId = some id)
    (counted : countsAsSession (put resources resourceId resource) other row = true) :
    countsAsSession resources other row = true := by
  rw [countsAsSession_iff] at counted ⊢
  refine counted.imp_right fun ⟨failed, named, held, there, found, back, live⟩ => ?_
  rcases of_get?_put found with ⟨_, rfl⟩ | ⟨_, found⟩
  · rcases passes with nobody | mine
    · simp [nobody] at back
    · rw [mine] at back
      exact absurd (Option.some.inj back).symm apart
  · exact ⟨failed, named, held, there, found, back, live⟩

/-- A write that leaves the other requests uncounted keeps to the session limit. -/
theorem sessions_le_of_put (owned : Owned before) (capped : Capped limits before)
    (requests : after.requests = put before.requests id row)
    (others : ∀ other (held : RequestRow Parameters), other ≠ id → countsAsSession after.resources other held = true →
      countsAsSession before.resources other held = true)
    (room : SessionRoom limits before after.resources id row) :
    ∀ cap, limits.sessionCap = some cap → sessionCount after ≤ cap := by
  intro cap limited
  have before_le := capped.sessions cap limited
  have fewer : countOthers (isCounted after.resources) before.requests id ≤
      countOthers (isCounted before.resources) before.requests id :=
    countOthers_mono _ fun entry _ apart counted => others entry.1 entry.2 apart counted
  rw [sessionCount_eq, requests, countP_put _ owned.requestKeys]
  rw [sessionCount_eq] at before_le
  split
  · rename_i counted
    rcases room counted with ⟨old, known, was⟩ | space
    · -- the request was counted before
      have total := countP_of_get? (isCounted before.resources) owned.requestKeys known
      have same : isCounted before.resources (id, old) = true := was
      rw [if_pos same] at total
      omega
    · have under := space cap limited
      rw [countSessionAdmissions_eq] at under
      omega
  · have all := countOthers_le (isCounted before.resources) before.requests id
    omega

/-- A live resource that is written again is still one resource. -/
theorem devices_put_live (distinct : (keys resources).Nodup) {old : ResourceRow Profile}
    (found : get? resources resourceId = some old) (was : old.state ≠ .destroyed)
    (live : resource.state ≠ .destroyed) :
    (put resources resourceId resource).countP isLive = resources.countP isLive := by
  rw [countP_put _ distinct, countP_of_get? isLive distinct found]
  simp [isLive, was, live]

/-- Every change keeps within the limits. -/
theorem Change.capped (change : Change limits before after) (owned : Owned before)
    (capped : Capped limits before) :
    Capped limits after := by
  cases change with
  | still requests resources =>
    refine ⟨?_, ?_⟩
    · rw [length_liveResources, resources, ← length_liveResources]
      exact capped.devices
    · rw [sessionCount_eq, requests, resources]
      exact capped.sessions
  | request id row requests resources _ _ _ room =>
    refine ⟨?_, sessions_le_of_put owned capped requests ?_ (resources ▸ room)⟩
    · rw [length_liveResources, resources, ← length_liveResources]
      exact capped.devices
    · intro other held _ counted
      exact resources ▸ counted
  | pair id row resourceId resource requests resources _ _ _ _ _ live room device =>
    have passes : resource.requestId = none ∨ resource.requestId = some id :=
      device.elim (fun fresh => Or.inr fresh.2.1) fun ⟨_, _, _, passes⟩ => passes
    refine ⟨?_, sessions_le_of_put owned capped requests ?_ room⟩
    · intro cap limited
      rw [length_liveResources, resources]
      rcases device with ⟨fresh, -, space⟩ | ⟨old, found, was, -⟩
      · have under := space cap limited
        rw [length_liveResources] at under
        rw [countP_put _ owned.resourceKeys,
          countOthers_of_fresh _ ((get?_eq_none_iff _ _).mp fresh)]
        split <;> omega
      · rw [devices_put_live owned.resourceKeys found was live, ← length_liveResources]
        exact capped.devices cap limited
    · intro other held apart counted
      rw [resources] at counted
      exact countsAsSession_put apart passes counted
  | evict resourceId resource idle requests resources =>
    obtain ⟨found, state⟩ := idle
    have nobody := (owned.resource found).idle state
    refine ⟨?_, ?_⟩
    · intro cap limited
      rw [length_liveResources, resources,
        devices_put_live owned.resourceKeys found (by simp [state]) (by simp),
        ← length_liveResources]
      exact capped.devices cap limited
    · intro cap limited
      have fewer : sessionCount after ≤ sessionCount before := by
        rw [sessionCount_eq, sessionCount_eq, requests, resources]
        refine List.countP_mono_left fun entry _ counted => ?_
        -- an evicted idle resource names no request
        rw [isCounted, countsAsSession_iff] at counted ⊢
        refine counted.imp_right fun ⟨failed, named, held, there, known, back, live⟩ => ?_
        rcases of_get?_put known with ⟨_, rfl⟩ | ⟨_, known⟩
        · simp [nobody] at back
        · exact ⟨failed, named, held, there, known, back, live⟩
      exact fewer.trans (capped.sessions cap limited)

/-- No change ends a live resource. -/
theorem Change.live (change : Change limits before after)
    (found : get? before.resources resourceId = some resource)
    (live : resource.state ≠ .destroyed) :
    ∃ later, get? after.resources resourceId = some later ∧ later.state ≠ .destroyed := by
  cases change with
  | still _ resources => exact ⟨resource, resources ▸ found, live⟩
  | request _ _ _ resources => exact ⟨resource, resources ▸ found, live⟩
  | pair _ _ written held _ resources _ _ _ _ _ stays =>
    rw [resources, get?_put]
    split
    · exact ⟨held, rfl, stays⟩
    · exact ⟨resource, found, live⟩
  | evict written held _ _ resources =>
    rw [resources, get?_put]
    split
    · exact ⟨_, rfl, by simp⟩
    · exact ⟨resource, found, live⟩

end Counts

end AutoMobile.SessionBroker
