import AutoMobile.MultiDeviceDeadlock
import AutoMobile.Runs

/- The rounds of `executeMultiDeviceAllocation`: a queued ticket looks again which of its
sessions hold a device, asks whether it may claim, and tries to allocate. -/
namespace AutoMobile.MultiDevice

variable {σ δ : Type}

/-- What one attempt to assign a device comes to. -/
inductive AssignResult (δ : Type) where
  | assigned (deviceId : δ)
  | shouldWait
  | refused
deriving DecidableEq, Repr

/-- What the pool and its allocation answer during one round. -/
structure MultiAllocationCallbacks (σ δ : Type) where
  sortBySpecificity : List (DeviceAllocationRequest σ) → List (DeviceAllocationRequest σ)
  sorts : ∀ requests, (sortBySpecificity requests).Perm requests
  isBindingDevice : δ → Bool
  isDrivenByForeignDaemon : δ → Bool
  isIdleDeviceEligible : δ → Bool
  selectIdleDevice : List δ → Option δ
  /-- `assertHealthyAllocationPossible` does not throw. -/
  healthyAllocationPossible : List δ → Option δ → Bool
  countBusyDevices : List δ → Nat
  shouldWaitForDevice : Nat → Bool → Bool
  tryAssignDeviceWithCriteria : σ → Option DeviceAllocationCriteria → AssignResult δ

/-- The queue and the holdings as time goes on; the rest of the pool stays. -/
structure World (σ δ : Type) where
  queue : List (MultiDeviceAllocationTicket σ)
  held : σ → Option δ

/-- What may happen to them: a session takes or loses a device, a ticket is queued, leaves,
or goes through a round. -/
inductive Change (σ δ : Type) where
  | hold (sessionId : σ) (deviceId : Option δ)
  | enqueue (id : Nat) (requests : List (DeviceAllocationRequest σ))
  | remove (id : Nat)
  | round (id : Nat) (callbacks : MultiAllocationCallbacks σ δ)

/-- How a round ends. -/
inductive Outcome (σ δ : Type) where
  | waits (id : Nat)
  | fails (id : Nat)
  | granted (id : Nat) (assignments : List (σ × δ))
deriving DecidableEq, Repr

section Rounds

variable [DecidableEq σ] [DecidableEq δ] (port : MultiDeviceAllocationQueuePort σ δ)
  (callbacks : MultiAllocationCallbacks σ δ)

/-- The claims, most specific first, each with an idle device that no earlier one counted;
none when the health check throws. -/
def claimLoop : List (DeviceAllocationRequest σ) → List δ → Bool → Option Bool
  | [], _, canClaim => some canClaim
  | request :: rest, available, canClaim =>
    let matching := (port.getDevicesMatchingCriteria request.criteria).filter
      (fun candidate => !callbacks.isBindingDevice candidate)
    let candidates := matching.filter (fun candidate => !callbacks.isDrivenByForeignDaemon candidate)
    match candidates.find? (fun candidate =>
        callbacks.isIdleDeviceEligible candidate && decide (candidate ∉ available)) with
    | some device => claimLoop rest (available ++ [device]) canClaim
    | none =>
      let idle := callbacks.selectIdleDevice candidates
      if matching.length = candidates.length ∧
          callbacks.healthyAllocationPossible candidates idle = false then none
      else if idle.isNone && !callbacks.shouldWaitForDevice
          (callbacks.countBusyDevices candidates + (matching.length - candidates.length))
          (port.hasPendingAndroidRecoveryMatching request.criteria) then some true
      else claimLoop rest available false

/-- The requests of a ticket whose sessions hold nothing. -/
def freshClaims (ticket : MultiDeviceAllocationTicket σ) : List (DeviceAllocationRequest σ) :=
  ticket.requests.filter
    (fun request => (port.deviceHeldByExistingSession request.sessionId).isNone)

def canClaimMultiDeviceAllocation (queue : List (MultiDeviceAllocationTicket σ))
    (ticket : MultiDeviceAllocationTicket σ) : Option Bool :=
  if ticket.requests.any (disqualified port) then some true
  else if (freshClaims port ticket).isEmpty then some true
  else if (earlierConflictingTickets queue ticket).isEmpty then
    claimLoop port callbacks (callbacks.sortBySpecificity (freshClaims port ticket)) [] true
  else some false

/-- The requests one after another; none when one throws. -/
def allocate : List (DeviceAllocationRequest σ) → List (σ × δ) → Option (List (σ × δ))
  | [], assignments => some assignments
  | request :: rest, assignments =>
    if request.sessionId ∈ assignments.map Prod.fst then allocate rest assignments
    else
      match port.deviceHeldByExistingSession request.sessionId with
      | some held =>
        if (port.heldDeviceDisqualification request held).isSome then none
        else allocate rest (assignments ++ [(request.sessionId, held)])
      | none =>
        match callbacks.tryAssignDeviceWithCriteria request.sessionId request.criteria with
        | .assigned device => allocate rest (assignments ++ [(request.sessionId, device)])
        | .shouldWait => allocate rest assignments
        | .refused => none

/-- A ticket's turn: partial claims are given back before it waits again. -/
def executeMultiDeviceAllocation (queue : List (MultiDeviceAllocationTicket σ))
    (ticket : MultiDeviceAllocationTicket σ) : Outcome σ δ :=
  match canClaimMultiDeviceAllocation port callbacks queue ticket with
  | none => .fails ticket.id
  | some false =>
    if (throwIfMultiDeviceAllocationDeadlocked port queue ticket).isSome then .fails ticket.id
    else .waits ticket.id
  | some true =>
    match allocate port callbacks (callbacks.sortBySpecificity ticket.requests) [] with
    | none => .fails ticket.id
    | some assignments =>
      if assignments.length < ticket.requests.length then .waits ticket.id
      else .granted ticket.id assignments

def World.pool (world : World σ δ) : MultiDeviceAllocationQueuePort σ δ :=
  { port with deviceHeldByExistingSession := world.held }

def World.remove (world : World σ δ) (id : Nat) : World σ δ :=
  { world with queue := world.queue.filter (fun other => decide (other.id ≠ id)) }

/-- The ticket with what its sessions hold now, in its place in the queue. -/
def World.look (world : World σ δ) (ticket : MultiDeviceAllocationTicket σ) : World σ δ :=
  { world with
    queue := world.queue.map (fun other =>
      if other.id = ticket.id then recordHeldSessions (world.pool port) ticket else other) }

/-- The sessions of a granted ticket hold what was assigned to them. -/
def World.grant (world : World σ δ) (assignments : List (σ × δ)) : World σ δ :=
  { world with held := fun sessionId => (world.held sessionId).or (assignments.lookup sessionId) }

def World.step (world : World σ δ) : Change σ δ → World σ δ × List (Outcome σ δ)
  | .hold sessionId deviceId =>
    ({ world with held := Function.update world.held sessionId deviceId }, [])
  | .enqueue id requests =>
    let ticket := recordHeldSessions (world.pool port) ⟨id, requests, [], by simp⟩
    ({ world with queue := world.queue ++ [ticket] }, [])
  | .remove id => (world.remove id, [])
  | .round id callbacks =>
    match world.queue.find? (fun ticket => decide (ticket.id = id)) with
    | none => (world, [])
    | some ticket =>
      let looked := world.look port ticket
      let outcome := executeMultiDeviceAllocation (world.pool port) callbacks looked.queue
        (recordHeldSessions (world.pool port) ticket)
      match outcome with
      | .waits _ => (looked, [outcome])
      | .fails _ => (looked.remove id, [outcome])
      | .granted _ assignments => ((looked.remove id).grant assignments, [outcome])

/-- What an attempt assigns is a device of its claim that no session holds, and different
sessions get different devices. -/
structure AssignsFree (world : World σ δ) : Prop where
  free : ∀ request : DeviceAllocationRequest σ, ∀ deviceId,
    callbacks.tryAssignDeviceWithCriteria request.sessionId request.criteria = .assigned deviceId →
      deviceId ∈ port.potentialSupplyFor request ∧ ∀ sessionId, world.held sessionId ≠ some deviceId
  distinct : ∀ one other : DeviceAllocationRequest σ, ∀ deviceId,
    callbacks.tryAssignDeviceWithCriteria one.sessionId one.criteria = .assigned deviceId →
    callbacks.tryAssignDeviceWithCriteria other.sessionId other.criteria = .assigned deviceId →
      one.sessionId = other.sessionId

/-- A session of the group's tickets. -/
def SessionOf (group : Set (MultiDeviceAllocationTicket σ)) (sessionId : σ) : Prop :=
  ∃ ticket ∈ group, ∃ request ∈ ticket.requests, request.sessionId = sessionId

/-- The group stays queued and its sessions keep what they hold and take nothing outside their
own tickets' rounds; all others do as they like. -/
def Permitted (group : Set (MultiDeviceAllocationTicket σ)) (world : World σ δ) : Change σ δ → Prop
  | .hold sessionId _ => ¬ SessionOf group sessionId
  | .enqueue id _ => id ∉ world.queue.map (·.id)
  | .remove id => ∀ ticket ∈ group, ticket.id ≠ id
  | .round id callbacks => AssignsFree port callbacks world ∧
      ∀ ticket ∈ world.queue, ticket.id = id →
        (∃ member ∈ group, member.id = id) ∧
            (∀ failed, executeMultiDeviceAllocation (world.pool port) callbacks
              (world.look port ticket).queue (recordHeldSessions (world.pool port) ticket) ≠
                .fails failed) ∨
          (∀ member ∈ group, member.id ≠ id) ∧
            ∀ request ∈ freshClaims (world.pool port) ticket, ¬ SessionOf group request.sessionId

/-- Every session of the ticket that holds a device was recorded as holding one. -/
def Recorded (ticket : MultiDeviceAllocationTicket σ) : Prop :=
  ∀ request ∈ ticket.requests, (port.deviceHeldByExistingSession request.sessionId).isSome →
    request.sessionId ∈ ticket.heldSessionIds

end Rounds

section Allocation

variable {port : MultiDeviceAllocationQueuePort σ δ} {callbacks : MultiAllocationCallbacks σ δ}

/-- Claims of different sessions that were assigned devices are served together. -/
theorem AssignsFree.servable {world : World σ δ} (assigns : AssignsFree port callbacks world)
    {claims : List (DeviceAllocationRequest σ)} (distinct : (claims.map (·.sessionId)).Nodup)
    (served : ∀ request ∈ claims, ∃ deviceId,
      callbacks.tryAssignDeviceWithCriteria request.sessionId request.criteria = .assigned deviceId) :
    Servable port claims (fun deviceId => ∀ sessionId, world.held sessionId ≠ some deviceId) := by
  suffices chosen : ∃ devices : List δ, List.Forall₂ (fun deviceId request =>
      callbacks.tryAssignDeviceWithCriteria request.sessionId request.criteria =
        .assigned deviceId) devices claims ∧ devices.Nodup by
    obtain ⟨devices, assigned, nodup⟩ := chosen
    exact ⟨devices, assigned.imp fun deviceId request => assigns.free request deviceId, nodup⟩
  induction claims with
  | nil => exact ⟨[], List.Forall₂.nil, List.nodup_nil⟩
  | cons request rest ih =>
    rw [List.map_cons, List.nodup_cons] at distinct
    rw [List.forall_mem_cons] at served
    obtain ⟨⟨deviceId, first⟩, later⟩ := served
    obtain ⟨devices, assigned, nodup⟩ := ih distinct.2 later
    refine ⟨deviceId :: devices, List.Forall₂.cons first assigned,
      List.nodup_cons.mpr ⟨fun again => distinct.1 ?_, nodup⟩⟩
    obtain ⟨other, inside, same⟩ : ∃ other ∈ rest,
        callbacks.tryAssignDeviceWithCriteria other.sessionId other.criteria = .assigned deviceId := by
      clear ih first later distinct nodup
      induction assigned with
      | nil => cases again
      | cons here _ ih =>
        rcases List.mem_cons.mp again with rfl | again
        · exact ⟨_, List.mem_cons_self, here⟩
        · obtain ⟨other, inside, same⟩ := ih again
          exact ⟨other, List.mem_cons_of_mem _ inside, same⟩
    rw [assigns.distinct request other deviceId first same]
    exact List.mem_map_of_mem inside

variable [DecidableEq σ]

/-- What the first request of an attempt adds. -/
theorem allocate_cons {request : DeviceAllocationRequest σ}
    {rest : List (DeviceAllocationRequest σ)} {before assignments : List (σ × δ)}
    (done : allocate port callbacks (request :: rest) before = some assignments) :
    allocate port callbacks rest before = some assignments ∨
      request.sessionId ∉ before.map Prod.fst ∧ ∃ deviceId,
        (port.deviceHeldByExistingSession request.sessionId = none →
          callbacks.tryAssignDeviceWithCriteria request.sessionId request.criteria =
            .assigned deviceId) ∧
        allocate port callbacks rest (before ++ [(request.sessionId, deviceId)]) =
          some assignments := by
  unfold allocate at done
  split at done
  · exact Or.inl done
  · rename_i fresh
    split at done
    · rename_i held found
      split at done
      · cases done
      · refine Or.inr ⟨fresh, held, fun idle => ?_, done⟩
        rw [idle] at found
        cases found
    · split at done
      · rename_i deviceId assigned
        exact Or.inr ⟨fresh, deviceId, fun _ => assigned, done⟩
      · exact Or.inl done
      · cases done

theorem allocate_sessions {requests : List (DeviceAllocationRequest σ)}
    {before assignments : List (σ × δ)}
    (done : allocate port callbacks requests before = some assignments) :
    ∀ pair ∈ assignments, pair ∈ before ∨ pair.1 ∈ requests.map (·.sessionId) := by
  induction requests generalizing before with
  | nil =>
    obtain rfl := Option.some.inj done
    exact fun pair member => Or.inl member
  | cons request rest ih =>
    intro pair member
    rw [List.map_cons, List.mem_cons]
    rcases allocate_cons done with done | ⟨-, deviceId, -, done⟩
    · exact (ih done pair member).imp_right Or.inr
    · rcases ih done pair member with known | later
      · rcases List.mem_append.mp known with old | new
        · exact Or.inl old
        · exact Or.inr (Or.inl (congrArg Prod.fst (List.mem_singleton.mp new)))
      · exact Or.inr (Or.inr later)

theorem allocate_length {requests : List (DeviceAllocationRequest σ)}
    {before assignments : List (σ × δ)}
    (done : allocate port callbacks requests before = some assignments) :
    assignments.length ≤ before.length + requests.length := by
  induction requests generalizing before with
  | nil =>
    obtain rfl := Option.some.inj done
    exact Nat.le_refl _
  | cons request rest ih =>
    rw [List.length_cons]
    rcases allocate_cons done with done | ⟨-, deviceId, -, done⟩
    · have bound := ih done
      omega
    · have bound := ih done
      rw [List.length_append, List.length_singleton] at bound
      omega

/-- When as many sessions were served as there are requests, each claim was assigned a device
of its own. -/
theorem allocate_full {requests : List (DeviceAllocationRequest σ)}
    {before assignments : List (σ × δ)}
    (done : allocate port callbacks requests before = some assignments)
    (enough : before.length + requests.length ≤ assignments.length) :
    (requests.map (·.sessionId)).Nodup ∧
    ∀ request ∈ requests, request.sessionId ∉ before.map Prod.fst ∧
      (port.deviceHeldByExistingSession request.sessionId = none → ∃ deviceId,
        callbacks.tryAssignDeviceWithCriteria request.sessionId request.criteria =
          .assigned deviceId) := by
  induction requests generalizing before with
  | nil => simp
  | cons request rest ih =>
    rw [List.length_cons] at enough
    rcases allocate_cons done with done | ⟨fresh, deviceId, served, done⟩
    · have most := allocate_length done
      omega
    · obtain ⟨distinct, each⟩ := ih done (by rw [List.length_append, List.length_singleton]; omega)
      rw [List.map_cons, List.nodup_cons, List.forall_mem_cons]
      refine ⟨⟨fun again => ?_, distinct⟩, ⟨fresh, fun none => ⟨deviceId, served none⟩⟩,
        fun other inside => ?_⟩
      · obtain ⟨other, inside, same⟩ := List.mem_map.mp again
        exact (each other inside).1 (by simp [same])
      · obtain ⟨outside, served⟩ := each other inside
        refine ⟨fun old => outside ?_, served⟩
        rw [List.map_append]
        exact List.mem_append_left _ old

variable [DecidableEq δ]

/-- A round that grants served every claim of the ticket. -/
theorem servable_of_granted {world : World σ δ} {queue : List (MultiDeviceAllocationTicket σ)}
    {ticket : MultiDeviceAllocationTicket σ} {id : Nat} {assignments : List (σ × δ)}
    (assigns : AssignsFree port callbacks world)
    (granted : executeMultiDeviceAllocation (world.pool port) callbacks queue ticket =
      .granted id assignments) :
    ticket.id = id ∧
    canClaimMultiDeviceAllocation (world.pool port) callbacks queue ticket = some true ∧
    (∀ pair ∈ assignments, pair.1 ∈ ticket.requests.map (·.sessionId)) ∧
    Servable port (freshClaims (world.pool port) ticket)
      (fun deviceId => ∀ sessionId, world.held sessionId ≠ some deviceId) := by
  unfold executeMultiDeviceAllocation at granted
  split at granted
  · cases granted
  · split at granted <;> cases granted
  · rename_i allowed
    split at granted
    · cases granted
    · rename_i result done
      split at granted
      · cases granted
      · rename_i enough
        obtain ⟨rfl, rfl⟩ : ticket.id = id ∧ result = assignments := by
          simpa only [Outcome.granted.injEq] using granted
        have sorted := callbacks.sorts ticket.requests
        obtain ⟨distinct, each⟩ := allocate_full done (by
          rw [sorted.length_eq]
          simpa using enough)
        refine ⟨rfl, allowed, fun pair member => ?_, ?_⟩
        · rcases allocate_sessions done pair member with old | known
          · cases old
          · exact (sorted.map _).subset known
        · have sessions : ((freshClaims (world.pool port) ticket).map (·.sessionId)).Nodup :=
            ((sorted.map _).nodup_iff.mp distinct).sublist (List.filter_sublist.map _)
          have served : ∀ request ∈ freshClaims (world.pool port) ticket, ∃ deviceId,
              callbacks.tryAssignDeviceWithCriteria request.sessionId request.criteria =
                .assigned deviceId := by
            intro request claim
            obtain ⟨inside, none⟩ := List.mem_filter.mp claim
            exact (each request (sorted.symm.subset inside)).2 (Option.isNone_iff_eq_none.mp none)
          exact assigns.servable sessions served

end Allocation

section Future

variable {group : Set (MultiDeviceAllocationTicket σ)} {start world : World σ δ}

/-- What the group can rely on in every later world. -/
structure Persists (group : Set (MultiDeviceAllocationTicket σ)) (start world : World σ δ) :
    Prop where
  distinct : (world.queue.map (·.id)).Nodup
  queued : ∀ ticket ∈ group, ∃ now ∈ world.queue, now.id = ticket.id ∧
    now.requests = ticket.requests
  ordered : ∀ first ∈ group, ∀ second ∈ group, [first, second].Sublist start.queue →
    [first.id, second.id].Sublist (world.queue.map (·.id))
  keeps : ∀ sessionId, SessionOf group sessionId → world.held sessionId = start.held sessionId

theorem Persists.remove (persists : Persists group start world) {id : Nat}
    (outside : ∀ member ∈ group, member.id ≠ id) : Persists group start (world.remove id) := by
  have ids : (world.remove id).queue.map (·.id) =
      (world.queue.map (·.id)).filter (fun other => decide (other ≠ id)) := by
    rw [List.filter_map]
    rfl
  constructor
  case distinct =>
    rw [ids]
    exact persists.distinct.filter _
  case queued =>
    intro member inside
    obtain ⟨now, there, same, asked⟩ := persists.queued member inside
    refine ⟨now, List.mem_filter.mpr ⟨there, decide_eq_true ?_⟩, same, asked⟩
    rw [same]
    exact outside member inside
  case ordered =>
    intro first member second member' ordered
    rw [ids]
    have kept := (persists.ordered first member second member' ordered).filter
      (fun other => decide (other ≠ id))
    rwa [List.filter_eq_self.mpr (by simp [outside first member, outside second member'])] at kept
  case keeps => exact persists.keeps

variable [DecidableEq σ] {port : MultiDeviceAllocationQueuePort σ δ}
  {ticket : MultiDeviceAllocationTicket σ}

theorem look_ids (world : World σ δ) (ticket : MultiDeviceAllocationTicket σ) :
    (world.look port ticket).queue.map (·.id) = world.queue.map (·.id) := by
  unfold World.look
  rw [List.map_map]
  refine List.map_congr_left fun other _ => ?_
  rw [Function.comp_apply]
  split
  · rename_i same
    exact same.symm
  · rfl

/-- To look again changes neither the order nor what is asked for. -/
theorem Persists.look (persists : Persists group start world) (queued : ticket ∈ world.queue) :
    Persists group start (world.look port ticket) where
  distinct := by
    rw [look_ids]
    exact persists.distinct
  queued member inside := by
    obtain ⟨now, there, same, asked⟩ := persists.queued member inside
    refine ⟨_, List.mem_map_of_mem there, ?_⟩
    split
    · rename_i here
      obtain rfl : now = ticket := List.inj_on_of_nodup_map persists.distinct there queued here
      exact ⟨same, asked⟩
    · exact ⟨same, asked⟩
  ordered first member second member' ordered := by
    rw [look_ids]
    exact persists.ordered first member second member' ordered
  keeps := persists.keeps

/-- A grant to an outsider takes nothing for the sessions of the group. -/
theorem Persists.grant (persists : Persists group start world) {assignments : List (σ × δ)}
    (others : ∀ pair ∈ assignments, world.held pair.1 = none → ¬ SessionOf group pair.1) :
    Persists group start (world.grant assignments) where
  distinct := persists.distinct
  queued := persists.queued
  ordered := persists.ordered
  keeps sessionId mine := by
    rw [← persists.keeps sessionId mine]
    cases held : world.held sessionId with
    | some deviceId => simp [World.grant, held]
    | none =>
      have absent : assignments.lookup sessionId = none := by
        rw [List.lookup_eq_none_iff]
        intro pair member
        rw [bne_iff_ne]
        rintro rfl
        exact others pair member held mine
      simp [World.grant, held, absent]

variable [DecidableEq δ]

/-- A member that looks again finds its claims and its place: it is not granted, since the
group still holds what it held. -/
theorem Persists.not_granted (persists : Persists group start world)
    (waits : ∀ ticket ∈ group, ticket ∈ start.queue ∧
      WaitsIn (start.pool port) start.queue group ticket)
    (recorded : ∀ ticket ∈ group, Recorded (start.pool port) ticket)
    {now : MultiDeviceAllocationTicket σ} (member : ticket ∈ group) (queued : now ∈ world.queue)
    (same : now.id = ticket.id) (asked : now.requests = ticket.requests)
    {callbacks : MultiAllocationCallbacks σ δ} (assigns : AssignsFree port callbacks world)
    {id : Nat} {assignments : List (σ × δ)} :
    executeMultiDeviceAllocation (world.pool port) callbacks (world.look port now).queue
      (recordHeldSessions (world.pool port) now) ≠ .granted id assignments := by
  intro granted
  obtain ⟨-, allowed, -, served⟩ := servable_of_granted assigns granted
  obtain ⟨-, claims, unmet, waiting⟩ := waits ticket member
  have held : ∀ request ∈ now.requests,
      world.held request.sessionId = start.held request.sessionId := by
    intro request inside
    exact persists.keeps _ ⟨ticket, member, request, asked ▸ inside, rfl⟩
  -- the claims are those of the start
  have same_claims : freshClaims (world.pool port) (recordHeldSessions (world.pool port) now) =
      ticket.requests.filter (claimed (start.pool port) ticket) := by
    unfold freshClaims
    rw [← asked]
    refine List.filter_congr fun request inside => ?_
    simp only [claimed, World.pool, held request inside]
    cases found : start.held request.sessionId with
    | none => rfl
    | some deviceId =>
      have known := recorded ticket member request (asked ▸ inside)
        (by simp only [World.pool, found]; rfl)
      simp [known]
  obtain ⟨fit, claims_eq, some'⟩ :
      ticket.requests.any (disqualified (start.pool port)) = false ∧
      ticket.requests.filter (claimed (start.pool port) ticket) = claims ∧ claims ≠ [] := by
    unfold unmetMultiDeviceClaims at unmet
    split at unmet
    · cases unmet
    · rename_i fit
      dsimp only at unmet
      split at unmet
      · cases unmet
      · rename_i known
        obtain rfl := Option.some.inj unmet
        refine ⟨Bool.not_eq_true _ ▸ fit, rfl, fun none => known ?_⟩
        rw [none]
        rfl
  rcases waiting with ⟨other, member', ordered, conflicting⟩ | ⟨short, -⟩
  · have sound : now.requests.any (disqualified (world.pool port)) = false := by
      rw [List.any_eq_false] at fit ⊢
      intro request inside
      have known := fit request (asked ▸ inside)
      simpa only [disqualified, World.pool, held request inside] using known
    -- an earlier member is still in the way
    have looked : Persists group start (world.look port now) := persists.look queued
    obtain ⟨pair, inQueue, ids⟩ :=
      List.sublist_map_iff.mp (looked.ordered other member' ticket member ordered)
    obtain ⟨first, second, rfl⟩ : ∃ first second, pair = [first, second] := by
      rcases pair with _ | ⟨first, _ | ⟨second, _ | ⟨third, rest⟩⟩⟩ <;> simp at ids
      exact ⟨first, second, rfl⟩
    obtain ⟨same_first, same_second⟩ : other.id = first.id ∧ ticket.id = second.id := by
      simpa using ids
    have here : first ∈ (world.look port now).queue := inQueue.mem List.mem_cons_self
    have mine : recordHeldSessions (world.pool port) now ∈ (world.look port now).queue := by
      refine List.mem_map.mpr ⟨now, queued, if_pos rfl⟩
    obtain rfl : recordHeldSessions (world.pool port) now = second :=
      List.inj_on_of_nodup_map looked.distinct mine
        (inQueue.mem (List.mem_cons_of_mem _ List.mem_cons_self)) (same.trans same_second)
    obtain ⟨there, listed, place, wants⟩ := looked.queued other member'
    obtain rfl : there = first :=
      List.inj_on_of_nodup_map looked.distinct listed here (place.trans same_first)
    have earlier := (mem_earlierConflictingTickets_iff looked.distinct.of_map mine).mpr
      ⟨inQueue, by
        unfold MultiDeviceAllocationTicket.conflicts at conflicting ⊢
        rw [wants]
        simpa only [recordHeldSessions, asked] using conflicting⟩
    have waiting : (earlierConflictingTickets (world.look port now).queue
        (recordHeldSessions (world.pool port) now)).isEmpty = false := by
      cases behind : earlierConflictingTickets (world.look port now).queue
          (recordHeldSessions (world.pool port) now) with
      | nil =>
        rw [behind] at earlier
        cases earlier
      | cons _ _ => rfl
    have claiming : (freshClaims (world.pool port)
        (recordHeldSessions (world.pool port) now)).isEmpty = false := by
      rw [same_claims, claims_eq]
      simpa using some'
    have sound' : (recordHeldSessions (world.pool port) now).requests.any
        (disqualified (world.pool port)) = false := sound
    unfold canClaimMultiDeviceAllocation at allowed
    rw [sound', claiming, waiting] at allowed
    cases allowed
  · -- what was handed out is nothing that the group holds
    rw [same_claims, claims_eq] at served
    refine short (@Servable.mono _ _ (start.pool port) _ _ _ served
      fun deviceId idle other _ blocker pins => ?_)
    obtain ⟨sessionId, known, holds⟩ := pins
    have inside : other ∈ group := by
      rcases blocker with rfl | inside
      · exact member
      · exact inside
    obtain ⟨request, asking, rfl⟩ := List.mem_map.mp (other.recorded sessionId known)
    refine idle request.sessionId ?_
    rw [persists.keeps _ ⟨other, inside, request, asking, rfl⟩]
    exact holds

/-- One permitted step keeps what the group relies on and grants no member. -/
theorem Persists.step (persists : Persists group start world)
    (waits : ∀ ticket ∈ group, ticket ∈ start.queue ∧
      WaitsIn (start.pool port) start.queue group ticket)
    (recorded : ∀ ticket ∈ group, Recorded (start.pool port) ticket) {event : Change σ δ}
    (permitted : Permitted port group world event) :
    Persists group start (world.step port event).1 ∧
      ∀ ticket ∈ group, ∀ assignments, .granted ticket.id assignments ∉ (world.step port event).2 := by
  cases event with
  | hold sessionId deviceId =>
    refine ⟨⟨persists.distinct, persists.queued, persists.ordered, fun other mine => ?_⟩, by
      simp [World.step]⟩
    have apart : other ≠ sessionId := fun same => permitted (same ▸ mine)
    simpa [World.step, apart] using persists.keeps other mine
  | enqueue id requests =>
    refine ⟨⟨?_, fun member inside => ?_, fun first member second member' ordered => ?_,
      persists.keeps⟩, by simp [World.step]⟩
    · simp only [World.step, List.map_append, List.map_cons, List.map_nil]
      refine List.nodup_append.mpr ⟨persists.distinct, List.nodup_singleton _, ?_⟩
      intro other known new single same
      rw [List.mem_singleton] at single
      rw [same, single] at known
      exact permitted known
    · obtain ⟨now, there, known⟩ := persists.queued member inside
      exact ⟨now, List.mem_append_left _ there, known⟩
    · simp only [World.step, List.map_append]
      exact (persists.ordered first member second member' ordered).trans
        (List.sublist_append_left _ _)
  | remove id => exact ⟨persists.remove permitted, by simp [World.step]⟩
  | round id callbacks =>
    obtain ⟨assigns, turn⟩ := permitted
    unfold World.step
    dsimp only
    cases found : world.queue.find? (fun ticket => decide (ticket.id = id)) with
    | none => exact ⟨persists, by simp⟩
    | some now =>
      have queued := List.mem_of_find?_eq_some found
      obtain rfl : now.id = id := by simpa using List.find?_some found
      dsimp only
      generalize ended : executeMultiDeviceAllocation (world.pool port) callbacks
        (world.look port now).queue (recordHeldSessions (world.pool port) now) = outcome
      have looked : Persists group start (world.look port now) := persists.look queued
      rcases turn now queued rfl with ⟨⟨member, inside, same⟩, lasts⟩ | ⟨outside, others⟩
      · obtain ⟨there, listed, place, asked⟩ := persists.queued member inside
        obtain rfl : there = now :=
          List.inj_on_of_nodup_map persists.distinct listed queued (place.trans same)
        cases outcome with
        | waits id => exact ⟨looked, by simp⟩
        | fails failed => exact absurd ended (lasts failed)
        | granted id assignments =>
          exact absurd ended (persists.not_granted waits recorded inside queued place asked assigns)
      · cases outcome with
        | waits id => exact ⟨looked, by simp⟩
        | fails failed => exact ⟨looked.remove outside, by simp⟩
        | granted id assignments =>
          obtain ⟨same, -, sessions, -⟩ := servable_of_granted assigns ended
          refine ⟨(looked.remove outside).grant fun pair member idle => ?_, fun ticket inside => ?_⟩
          · obtain ⟨request, asking, here⟩ := List.mem_map.mp (sessions pair member)
            rw [← here]
            refine others request (List.mem_filter.mpr ⟨asking, ?_⟩)
            rw [here]
            exact Option.isNone_iff_eq_none.mpr idle
          · have apart := outside ticket inside
            rintro assignments member
            obtain ⟨rfl, -⟩ : ticket.id = id ∧ _ := by simpa using member
            exact apart same.symm

end Future

/-- `findDeadlockedTickets` answers with the greatest set of queued tickets that are each
queued behind a conflicting member or short of devices that members pin. If all their sessions
that hold a device were recorded as holding one, then whatever else happens while they stay
queued and their sessions take and release nothing, none of them is granted its claims. -/
theorem deadlocked_tickets_greatest_and_hopeless [DecidableEq σ] [DecidableEq δ]
    (port : MultiDeviceAllocationQueuePort σ δ) (queue : List (MultiDeviceAllocationTicket σ))
    (distinct : (queue.map (·.id)).Nodup) :
    let start : World σ δ := ⟨queue, port.deviceHeldByExistingSession⟩
    IsGreatest {group : Set (MultiDeviceAllocationTicket σ) |
        ∀ ticket ∈ group, ticket ∈ queue ∧ WaitsIn port queue group ticket}
      (Deadlocked port queue) ∧
    ((∀ ticket ∈ Deadlocked port queue, Recorded port ticket) →
      ∀ changes, Runs.Meets (World.step port) (Permitted port (Deadlocked port queue)) start
          changes →
        ∀ ticket ∈ Deadlocked port queue, ∀ assignments, .granted ticket.id assignments ∉
          (Runs.run (World.step port) start changes).2) := by
  intro start
  have greatest := deadlocked_isGreatest port queue distinct.of_map
  refine ⟨greatest, fun recorded changes permitted ticket member => ?_⟩
  have waits := greatest.1
  have begins : Persists (Deadlocked port queue) start start :=
    ⟨distinct, fun other inside => ⟨other, (waits other inside).1, rfl, rfl⟩,
      fun _ _ _ _ ordered => ordered.map _, fun _ _ => rfl⟩
  have kept := Runs.Meets.invariant (World.step port)
    (fun world outputs => Persists (Deadlocked port queue) start world ∧
      ∀ ticket ∈ Deadlocked port queue, ∀ assignments, .granted ticket.id assignments ∉ outputs)
    (fun world event past holds allowed => by
      obtain ⟨persists, nobody⟩ := holds.1.step waits recorded allowed
      refine ⟨persists, fun ticket member assignments inside => ?_⟩
      rcases List.mem_append.mp inside with earlier | now
      · exact holds.2 ticket member assignments earlier
      · exact nobody ticket member assignments now)
    [] ⟨begins, by simp⟩ permitted
  simpa using kept.2 ticket member

/-- A pool of phones, by identifier, model and version, with some sessions on them. -/
def phonePool (held : List (Nat × Nat)) : MultiDeviceAllocationQueuePort Nat Nat :=
  let phones := [(1, "iPhone SE", "17.0"), (2, "iPhone 15", "17.0"), (3, "iPhone 15", "18.0"),
    (5, "iPhone 13", "17.0")]
  let matching (criteria : Option DeviceAllocationCriteria) := (phones.filter (fun phone =>
    decide ((criteria.bind (·.simulatorType)).getD phone.2.1 = phone.2.1) &&
      decide ((criteria.bind (·.iosVersion)).getD phone.2.2 = phone.2.2))).map (·.1)
  { deviceHeldByExistingSession := fun sessionId => held.lookup sessionId
    heldDeviceDisqualification := fun _ _ => none
    getDevicesMatchingCriteria := matching
    hasPendingAndroidRecoveryMatching := fun _ => false
    potentialSupplyFor := fun request => matching request.criteria }

def crossedFirst : MultiDeviceAllocationTicket Nat :=
  ⟨0, [⟨10, none⟩, ⟨11, some { simulatorType := some "iPhone 13" }⟩], [10], by decide⟩

/-- Holds phone 5, the only one the first ticket can use, and needs phone 1. -/
def crossedSecond : MultiDeviceAllocationTicket Nat :=
  ⟨1, [⟨20, none⟩, ⟨21, some { simulatorType := some "iPhone SE" }⟩], [20], by decide⟩

/-- Answers of a pool in which no phone is idle. -/
def busyCallbacks : MultiAllocationCallbacks Nat Nat where
  sortBySpecificity requests := requests
  sorts _ := List.Perm.refl _
  isBindingDevice _ := false
  isDrivenByForeignDaemon _ := false
  isIdleDeviceEligible _ := false
  selectIdleDevice _ := none
  healthyAllocationPossible _ _ := true
  countBusyDevices := List.length
  shouldWaitForDevice busy recovering := decide (0 < busy) || recovering
  tryAssignDeviceWithCriteria _ _ := .shouldWait

theorem busyCallbacks_assignsFree (port : MultiDeviceAllocationQueuePort Nat Nat)
    (world : World Nat Nat) : AssignsFree port busyCallbacks world :=
  ⟨fun _ _ assigned => (by cases assigned), fun _ _ _ assigned => (by cases assigned)⟩

/-- Two tickets that each hold the only phone the other can use stay deadlocked while a third
session releases its phone and the first ticket takes its turn. -/
theorem deadlocked_pair_hopeless : let port := phonePool [(10, 1), (20, 5), (30, 3)]
    crossedFirst ∈ Deadlocked port [crossedFirst, crossedSecond] ∧ ∀ assignments,
      .granted 0 assignments ∉ (Runs.run (World.step port)
        ⟨[crossedFirst, crossedSecond], port.deviceHeldByExistingSession⟩
        [.hold 30 none, .round 0 busyCallbacks]).2 := by
  intro port
  have first : crossedFirst ∈ Deadlocked port [crossedFirst, crossedSecond] := by
    rw [mem_deadlocked_answer]
    decide +kernel
  have claim := deadlocked_tickets_greatest_and_hopeless port [crossedFirst, crossedSecond] (by decide)
  have known : ∀ ticket ∈ Deadlocked port [crossedFirst, crossedSecond],
      ticket ∈ [crossedFirst, crossedSecond] := fun ticket inside => (claim.1.1 ticket inside).1
  refine ⟨first, claim.2 (fun ticket inside => ?_) [.hold 30 none, .round 0 busyCallbacks]
    ⟨?_, ?_, trivial⟩ crossedFirst first⟩
  · have recorded : ∀ ticket ∈ [crossedFirst, crossedSecond], ∀ request ∈ ticket.requests,
        (port.deviceHeldByExistingSession request.sessionId).isSome →
          request.sessionId ∈ ticket.heldSessionIds := by decide
    exact recorded ticket (known ticket inside)
  · rintro ⟨ticket, inside, request, asking, same⟩
    have apart : ∀ ticket ∈ [crossedFirst, crossedSecond], ∀ request ∈ ticket.requests,
        request.sessionId ≠ 30 := by decide
    exact apart ticket (known ticket inside) request asking same
  · refine ⟨busyCallbacks_assignsFree _ _, fun ticket queued same => Or.inl ⟨⟨_, first, rfl⟩, ?_⟩⟩
    obtain rfl : ticket = crossedFirst := by
      have only : ∀ ticket ∈ [crossedFirst, crossedSecond], ticket.id = 0 → ticket = crossedFirst := by
        decide
      exact only ticket queued same
    let later : World Nat Nat :=
      (World.step port ⟨[crossedFirst, crossedSecond], port.deviceHeldByExistingSession⟩
        (.hold 30 none)).1
    have waits : executeMultiDeviceAllocation (later.pool port) busyCallbacks
        (later.look port crossedFirst).queue (recordHeldSessions (later.pool port) crossedFirst) =
          .waits 0 := by decide +kernel
    intro failed fails
    rw [waits] at fails
    cases fails

/-- A ticket queued while its session held nothing, and behind the deadlocked pair. -/
def staleTicket : MultiDeviceAllocationTicket Nat := ⟨2, [⟨40, none⟩], [], by decide⟩

/-- The session of a deadlocked ticket gained a phone after the ticket was queued: its next
round claims nothing and is granted, although nobody released anything. -/
theorem stale_snapshot_granted : let port := phonePool []
    let world := (Runs.run (World.step port)
      ⟨[crossedFirst, crossedSecond], fun sessionId => [(10, 1), (20, 5)].lookup sessionId⟩
      [.enqueue 2 [⟨40, none⟩], .hold 40 (some 2)]).1
    staleTicket ∈ Deadlocked (world.pool port) world.queue ∧
      Permitted port (Deadlocked (world.pool port) world.queue) world (.round 2 busyCallbacks) ∧
      (world.step port (.round 2 busyCallbacks)).2 = [.granted staleTicket.id [(40, 2)]] := by
  intro port world
  have queue : world.queue = [crossedFirst, crossedSecond, staleTicket] := by decide +kernel
  have member : staleTicket ∈ Deadlocked (world.pool port) world.queue := by
    rw [mem_deadlocked_answer]
    decide +kernel
  have outcome : (world.step port (.round 2 busyCallbacks)).2 =
      [.granted staleTicket.id [(40, 2)]] := by decide +kernel
  refine ⟨member, ⟨busyCallbacks_assignsFree _ _, fun ticket queued same =>
    Or.inl ⟨⟨_, member, rfl⟩, fun failed fails => ?_⟩⟩, outcome⟩
  obtain rfl : ticket = staleTicket := by
    have only : ∀ ticket ∈ [crossedFirst, crossedSecond, staleTicket], ticket.id = 2 →
        ticket = staleTicket := by decide
    exact only ticket (queue ▸ queued) same
  have granted : executeMultiDeviceAllocation (world.pool port) busyCallbacks
      (world.look port staleTicket).queue (recordHeldSessions (world.pool port) staleTicket) =
        .granted 2 [(40, 2)] := by decide +kernel
  rw [granted] at fails
  cases fails

end AutoMobile.MultiDevice
