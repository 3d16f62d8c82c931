import AutoMobile.ScriptText
import Mathlib.Data.List.Sort

/- `sessionBroker/admission`: the next admission action, chosen from one view of the
resources. It is not a reservation; the store evaluates it inside a transaction. -/
namespace AutoMobile.SessionBroker

open List ScriptText

structure BrokerLimits where
  sessionCap : Option Nat := none
  totalDeviceCap : Option Nat := none
  idlePoolCap : Option Nat := none
  maxConcurrentResetBoots : Option Nat := none
deriving DecidableEq, Repr

/-- The state of a resource row; admission never sees a destroyed one. -/
inductive ResourceState where
  | reserved
  | active
  | idle
  | resetting
  | destroying
  | unknown
  | destroyed
deriving DecidableEq, Repr

structure ResourceView where
  id : String
  state : ResourceState
  /-- Larger values are newer. -/
  idleOrder : Nat
  compatible : Bool
  expectedReadyMs : Option Int := none
deriving DecidableEq, Repr

structure BrokerSnapshot where
  activeOrAcquiringSessions : Nat
  resources : List ResourceView
  resetWaitThresholdMs : Option Int := none
deriving DecidableEq, Repr

inductive AdmissionRefusalReason where
  | sessionCapReached
  | totalDeviceCapReached
  | totalDeviceCapExceeded
deriving DecidableEq, Repr

def AdmissionRefusalReason.text : AdmissionRefusalReason → String
  | .sessionCapReached => "session-cap-reached"
  | .totalDeviceCapReached => "total-device-cap-reached"
  | .totalDeviceCapExceeded => "total-device-cap-exceeded"

inductive AdmissionDecision where
  | reuse (resourceId : String)
  | create
  | wait (resourceId : String) (waitMs : Int)
  | evict (resourceId : String)
  | refuse (reason : AdmissionRefusalReason)
deriving DecidableEq, Repr

/-- Caps are natural numbers here; only the number of boots can still be out of range, which
ends with the safe integers. -/
def validateLimits (limits : BrokerLimits) : Except String Unit :=
  match limits.maxConcurrentResetBoots with
  | some boots =>
    if boots < 1 ∨ 9007199254740992 ≤ boots then
      .error "limits.maxConcurrentResetBoots must be a positive integer"
    else .ok ()
  | none => .ok ()

def validateResource (resource : ResourceView) (index : Nat) : Except String Unit :=
  let field := "snapshot.resources[" ++ toString index ++ "]"
  if isBlank resource.id then .error (field ++ ".id must be a non-blank string")
  else if resource.state = .destroyed then .error (field ++ ".state is invalid")
  else
    match resource.expectedReadyMs with
    | some ready =>
      if ready < 0 then .error (field ++ ".expectedReadyMs must be nonnegative and finite")
      else .ok ()
    | none => .ok ()

/-- Each resource is valid, and no id comes twice. -/
def validateResources : List ResourceView → Nat → List String → Except String Unit
  | [], _, _ => .ok ()
  | resource :: rest, index, ids => do
    validateResource resource index
    if resource.id ∈ ids then
      .error ("snapshot.resources contains duplicate id '" ++ resource.id ++ "'")
    else validateResources rest (index + 1) (resource.id :: ids)

def validateSnapshot (snapshot : BrokerSnapshot) : Except String Unit :=
  match snapshot.resetWaitThresholdMs with
  | some threshold =>
    if threshold < 0 then .error "snapshot.resetWaitThresholdMs must be nonnegative and finite"
    else validateResources snapshot.resources 0 []
  | none => validateResources snapshot.resources 0 []

section Selection

/- `collate` is `localeCompare` of the two ids, not greater. -/
variable (collate : String → String → Bool)

def idleResources (snapshot : BrokerSnapshot) : List ResourceView :=
  (snapshot.resources.filter (·.state = .idle)).insertionSort fun left right =>
    left.idleOrder < right.idleOrder ∨
      left.idleOrder = right.idleOrder ∧ collate left.id right.id = true

def oldestIdle (snapshot : BrokerSnapshot) : Option ResourceView :=
  (idleResources collate snapshot).head?

def newestCompatibleIdle (snapshot : BrokerSnapshot) : Option ResourceView :=
  (((idleResources collate snapshot).filter (·.compatible)).insertionSort fun left right =>
    right.idleOrder < left.idleOrder ∨
      left.idleOrder = right.idleOrder ∧ collate left.id right.id = true).head?

/-- A zero total cap admits nothing, so there is nothing to reuse. -/
def reusableIdle (snapshot : BrokerSnapshot) (limits : BrokerLimits) : Option ResourceView :=
  if limits.totalDeviceCap = some 0 then none else newestCompatibleIdle collate snapshot

/-- A compatible device whose reset finishes within the wait threshold is waited for. -/
def resettingWait (snapshot : BrokerSnapshot) (limits : BrokerLimits) : Option AdmissionDecision :=
  if limits.totalDeviceCap = some 0 then none
  else
    match snapshot.resetWaitThresholdMs with
    | none => none
    | some threshold =>
      let ready := snapshot.resources.filterMap fun resource =>
        match resource.expectedReadyMs with
        | some expected =>
          if resource.state = .resetting && resource.compatible && 0 < threshold &&
              0 < expected && expected ≤ threshold then some (resource.id, expected)
          else none
        | none => none
      let soonest := (ready.insertionSort fun left right =>
        left.2 < right.2 ∨ left.2 = right.2 ∧ collate left.1 right.1 = true).head?
      soonest.map fun (id, expected) => .wait id (min expected threshold)

/-- Evict the oldest idle resource, or refuse when there is none. -/
def evictOldest (snapshot : BrokerSnapshot) (reason : AdmissionRefusalReason) : AdmissionDecision :=
  match oldestIdle collate snapshot with
  | some candidate => .evict candidate.id
  | none => .refuse reason

/-- Without a reusable resource: create under the total cap, else evict the oldest idle one. -/
def totalCapDecision (snapshot : BrokerSnapshot) (limits : BrokerLimits) : AdmissionDecision :=
  match limits.totalDeviceCap with
  | none => .create
  | some cap =>
    if cap < snapshot.resources.length then evictOldest collate snapshot .totalDeviceCapExceeded
    else if snapshot.resources.length < cap then .create
    else evictOldest collate snapshot .totalDeviceCapReached

def sessionsFull (snapshot : BrokerSnapshot) (limits : BrokerLimits) : Bool :=
  match limits.sessionCap with
  | some cap => cap ≤ snapshot.activeOrAcquiringSessions
  | none => false

def selectAdmission (snapshot : BrokerSnapshot) (limits : BrokerLimits) :
    Except String AdmissionDecision := do
  validateLimits limits
  validateSnapshot snapshot
  if sessionsFull snapshot limits then .ok (.refuse .sessionCapReached)
  else
    match reusableIdle collate snapshot limits with
    | some reusable => .ok (.reuse reusable.id)
    | none =>
      .ok ((resettingWait collate snapshot limits).getD (totalCapDecision collate snapshot limits))

/-- The oldest idle resources whose removal enforces the idle and total limits. -/
def chooseIdleEvictions (snapshot : BrokerSnapshot) (limits : BrokerLimits) :
    Except String (List String) := do
  validateLimits limits
  validateSnapshot snapshot
  let idle := idleResources collate snapshot
  let totalExcess := match limits.totalDeviceCap with
    | some cap => snapshot.resources.length - cap
    | none => 0
  let idleExcess := match limits.idlePoolCap with
    | some cap => idle.length - cap
    | none => 0
  .ok ((idle.take (max totalExcess idleExcess)).map (·.id))

/-- What a decision says about the snapshot it was made from. -/
def Justified (snapshot : BrokerSnapshot) (limits : BrokerLimits) : AdmissionDecision → Prop
  | .reuse id => ∃ view ∈ snapshot.resources, view.id = id ∧ view.state = .idle
  | .evict id => ∃ view ∈ snapshot.resources, view.id = id ∧ view.state = .idle
  | .wait id _ => ∃ view ∈ snapshot.resources, view.id = id ∧ view.state = .resetting
  | .create => ∀ cap, limits.totalDeviceCap = some cap → snapshot.resources.length < cap
  | .refuse _ => True

variable {collate}

variable {snapshot : BrokerSnapshot} {view : ResourceView} {limits : BrokerLimits}

theorem mem_idleResources :
    view ∈ idleResources collate snapshot ↔ view ∈ snapshot.resources ∧ view.state = .idle := by
  unfold idleResources
  rw [(perm_insertionSort _ _).mem_iff, mem_filter, decide_eq_true_iff]

theorem oldestIdle_spec (oldest : oldestIdle collate snapshot = some view) :
    view ∈ snapshot.resources ∧ view.state = .idle :=
  mem_idleResources.mp (mem_of_mem_head? oldest)

theorem reusableIdle_spec (reusable : reusableIdle collate snapshot limits = some view) :
    view ∈ snapshot.resources ∧ view.state = .idle := by
  unfold reusableIdle at reusable
  split at reusable
  · cases reusable
  · have member := mem_of_mem_head? reusable
    rw [(perm_insertionSort _ _).mem_iff] at member
    exact mem_idleResources.mp (mem_filter.mp member).1

theorem resettingWait_spec {decision : AdmissionDecision}
    (waits : resettingWait collate snapshot limits = some decision) :
    Justified snapshot limits decision := by
  unfold resettingWait at waits
  split at waits
  · cases waits
  · split at waits
    · cases waits
    · obtain ⟨⟨id, expected⟩, first, rfl⟩ := Option.map_eq_some_iff.mp waits
      have member := mem_of_mem_head? first
      rw [(perm_insertionSort _ _).mem_iff] at member
      obtain ⟨view, inside, here⟩ := mem_filterMap.mp member
      split at here
      · split at here
        · rename_i fits
          obtain ⟨rfl, -⟩ := Prod.mk.inj (Option.some.inj here)
          simp only [Bool.and_eq_true, decide_eq_true_eq] at fits
          exact ⟨view, inside, rfl, fits.1.1.1.1⟩
        · cases here
      · cases here

theorem totalCapDecision_spec (snapshot : BrokerSnapshot) (limits : BrokerLimits) :
    Justified snapshot limits (totalCapDecision collate snapshot limits) := by
  have evicts : ∀ reason, Justified snapshot limits (evictOldest collate snapshot reason) := by
    intro reason
    unfold evictOldest
    split
    · rename_i candidate oldest
      obtain ⟨inside, idle⟩ := oldestIdle_spec oldest
      exact ⟨candidate, inside, rfl, idle⟩
    · trivial
  unfold totalCapDecision
  split
  · rename_i uncapped
    intro cap capped
    rw [uncapped] at capped
    cases capped
  · rename_i cap capped
    split
    · exact evicts _
    · split
      · rename_i below
        intro other same
        obtain rfl := Option.some.inj (capped.symm.trans same)
        exact below
      · exact evicts _

/-- An admission is justified by the snapshot, and comes under the session cap unless it is
a refusal. -/
theorem selectAdmission_spec {decision : AdmissionDecision}
    (selected : selectAdmission collate snapshot limits = .ok decision) :
    Justified snapshot limits decision ∧ ((∃ reason, decision = .refuse reason) ∨
        ∀ cap, limits.sessionCap = some cap → snapshot.activeOrAcquiringSessions < cap) := by
  unfold selectAdmission at selected
  cases limited : validateLimits limits with
  | error message =>
    rw [limited] at selected
    cases selected
  | ok _ =>
    cases valid : validateSnapshot snapshot with
    | error message =>
      rw [limited, valid] at selected
      cases selected
    | ok _ =>
      rw [limited, valid] at selected
      change (if sessionsFull snapshot limits = true then _ else _) = _ at selected
      split at selected
      · obtain rfl := Except.ok.inj selected
        exact ⟨trivial, Or.inl ⟨_, rfl⟩⟩
      · rename_i room
        have under : ∀ cap, limits.sessionCap = some cap →
            snapshot.activeOrAcquiringSessions < cap := by
          intro cap capped
          simpa [sessionsFull, capped] using room
        refine ⟨?_, Or.inr under⟩
        split at selected
        · rename_i reusable found
          obtain rfl := Except.ok.inj selected
          obtain ⟨inside, idle⟩ := reusableIdle_spec found
          exact ⟨reusable, inside, rfl, idle⟩
        · obtain rfl := Except.ok.inj selected
          cases waits : resettingWait collate snapshot limits with
          | none => exact totalCapDecision_spec snapshot limits
          | some decision => exact resettingWait_spec waits

/-- Evictions are of idle resources. -/
theorem chooseIdleEvictions_spec {ids : List String}
    (chosen : chooseIdleEvictions collate snapshot limits = .ok ids) :
    ∀ id ∈ ids, ∃ view ∈ snapshot.resources, view.id = id ∧ view.state = .idle := by
  unfold chooseIdleEvictions at chosen
  cases limited : validateLimits limits with
  | error message =>
    rw [limited] at chosen
    cases chosen
  | ok _ =>
    cases valid : validateSnapshot snapshot with
    | error message =>
      rw [limited, valid] at chosen
      cases chosen
    | ok _ =>
      rw [limited, valid] at chosen
      obtain rfl := Except.ok.inj chosen
      intro id member
      obtain ⟨view, taken, rfl⟩ := mem_map.mp member
      obtain ⟨inside, idle⟩ := mem_idleResources.mp (mem_of_mem_take taken)
      exact ⟨view, inside, rfl, idle⟩

/-- No resource is evicted twice. -/
theorem chooseIdleEvictions_nodup {ids : List String}
    (distinct : (snapshot.resources.map (·.id)).Nodup)
    (chosen : chooseIdleEvictions collate snapshot limits = .ok ids) : ids.Nodup := by
  unfold chooseIdleEvictions at chosen
  cases limited : validateLimits limits with
  | error message =>
    rw [limited] at chosen
    cases chosen
  | ok _ =>
    cases valid : validateSnapshot snapshot with
    | error message =>
      rw [limited, valid] at chosen
      cases chosen
    | ok _ =>
      rw [limited, valid] at chosen
      obtain rfl := Except.ok.inj chosen
      have idle : ((idleResources collate snapshot).map (·.id)).Nodup :=
        ((perm_insertionSort _ _).map _).nodup_iff.mpr
          ((filter_sublist.map _).nodup distinct)
      exact ((take_sublist _ _).map _).nodup idle

end Selection

end AutoMobile.SessionBroker
