import AutoMobile.MultiDeviceQueue

/- The deadlocked tickets are the greatest set of tickets that wait for one another. -/
namespace AutoMobile.MultiDevice

open List
open DistinctChoice (Fills)

variable {σ δ : Type}

section Waiting

variable (port : MultiDeviceAllocationQueuePort σ δ)
  (queue : List (MultiDeviceAllocationTicket σ))

/-- A session the ticket recorded as holding a device holds this one. -/
def Pins (ticket : MultiDeviceAllocationTicket σ) (deviceId : δ) : Prop :=
  ∃ sessionId ∈ ticket.heldSessionIds, port.deviceHeldByExistingSession sessionId = some deviceId

/-- The claims can be served together, each with a free device of its own. -/
def Servable (claims : List (DeviceAllocationRequest σ)) (free : δ → Prop) : Prop :=
  ∃ devices : List δ, List.Forall₂ (fun deviceId request =>
    deviceId ∈ port.potentialSupplyFor request ∧ free deviceId) devices claims ∧ devices.Nodup

/-- Short of devices only because the group pins them. -/
def DeviceBlocked (group : Set (MultiDeviceAllocationTicket σ))
    (ticket : MultiDeviceAllocationTicket σ) (claims : List (DeviceAllocationRequest σ)) : Prop :=
  ¬ Servable port claims (fun deviceId =>
      ∀ other ∈ queue, other = ticket ∨ other ∈ group → ¬ Pins port other deviceId) ∧
    Servable port claims (fun deviceId =>
      ∀ other ∈ queue, other = ticket → ¬ Pins port other deviceId)

/-- An earlier conflicting ticket belongs to the group. -/
def QueuedBehind (group : Set (MultiDeviceAllocationTicket σ))
    (ticket : MultiDeviceAllocationTicket σ) : Prop :=
  ∃ other ∈ group, [other, ticket].Sublist queue ∧ other.conflicts ticket = true

/-- The ticket has unmet claims and waits for the group. -/
def WaitsIn [DecidableEq σ] (group : Set (MultiDeviceAllocationTicket σ))
    (ticket : MultiDeviceAllocationTicket σ) : Prop :=
  ∃ claims, unmetMultiDeviceClaims port ticket = some claims ∧
    (QueuedBehind queue group ticket ∨ DeviceBlocked port queue group ticket claims)

/-- The tickets `findDeadlockedTickets` answers with. -/
def Deadlocked [DecidableEq σ] [DecidableEq δ] : Set (MultiDeviceAllocationTicket σ) :=
  {ticket | ticket ∈ (findDeadlockedTickets port queue (pinnedDevicesByTicket port queue)).map
    (·.1)}

variable {port queue} {claims : List (DeviceAllocationRequest σ)}
  {ticket other : MultiDeviceAllocationTicket σ} {group : Set (MultiDeviceAllocationTicket σ)}

theorem Servable.mono {free more : δ → Prop} (servable : Servable port claims free)
    (weaker : ∀ deviceId, free deviceId → more deviceId) : Servable port claims more := by
  obtain ⟨devices, served, nodup⟩ := servable
  refine ⟨devices, served.imp ?_, nodup⟩
  exact fun deviceId request both => ⟨both.1, weaker deviceId both.2⟩

theorem servable_iff (free : δ → Bool) :
    Fills (claims.map (fun request => (port.potentialSupplyFor request).filter free)) ↔
      Servable port claims (fun deviceId => free deviceId = true) := by
  simp only [Fills, Servable, forall₂_map_right_iff, mem_filter]

variable [DecidableEq δ]

theorem pinnedBy_iff (deviceId : δ) (test : MultiDeviceAllocationTicket σ → Bool) :
    pinnedBy (pinnedDevicesByTicket port queue) deviceId test = true ↔
      ∃ holder ∈ queue, test holder = true ∧ Pins port holder deviceId := by
  simp only [pinnedBy, pinnedDevicesByTicket, any_eq_true, mem_flatMap,
    mem_filterMap, Option.ite_none_right_eq_some, Option.some.injEq, Pins]
  constructor
  · rintro ⟨_, ⟨holder, queued, sessionId, recorded, held, rfl⟩, passes⟩
    exact ⟨holder, queued, passes, sessionId, recorded, held⟩
  · rintro ⟨holder, queued, passes, sessionId, recorded, held⟩
    exact ⟨⟨holder, sessionId⟩, ⟨holder, queued, sessionId, recorded, held, rfl⟩, passes⟩

theorem unpinned_iff (deviceId : δ) (test : MultiDeviceAllocationTicket σ → Bool) :
    (!pinnedBy (pinnedDevicesByTicket port queue) deviceId test) = true ↔
      ∀ other ∈ queue, test other = true → ¬ Pins port other deviceId := by
  rw [Bool.not_eq_true', ← Bool.not_eq_true, pinnedBy_iff]
  constructor
  · intro none other queued passes pins
    exact none ⟨other, queued, passes, pins⟩
  · rintro none ⟨other, queued, passes, pins⟩
    exact none other queued passes pins

variable [DecidableEq σ]

/-- The two matchings of `isDeviceBlockedBy`, by what they decide. -/
theorem isDeviceBlockedBy_iff (blockers : List (MultiDeviceAllocationTicket σ)) :
    isDeviceBlockedBy port ticket claims blockers (pinnedDevicesByTicket port queue) = true ↔
      DeviceBlocked port queue {other | other ∈ blockers} ticket claims := by
  have candidates : Fills (claims.map (fun request => (port.potentialSupplyFor request).filter
      (fun deviceId => !pinnedBy (pinnedDevicesByTicket port queue) deviceId
        (fun other => other = ticket)))) ↔
      Servable port claims (fun deviceId =>
        ∀ other ∈ queue, other = ticket → ¬ Pins port other deviceId) := by
    rw [servable_iff]
    simp only [unpinned_iff, decide_eq_true_eq]
  have supply : Fills ((claims.map (fun request => (port.potentialSupplyFor request).filter
      (fun deviceId => !pinnedBy (pinnedDevicesByTicket port queue) deviceId
        (fun other => other = ticket)))).map (fun ids => ids.filter (fun deviceId =>
          !pinnedBy (pinnedDevicesByTicket port queue) deviceId
            (fun other => other ∈ blockers)))) ↔
      Servable port claims (fun deviceId => ∀ other ∈ queue,
        other = ticket ∨ other ∈ {other | other ∈ blockers} → ¬ Pins port other deviceId) := by
    rw [List.map_map]
    simp only [Function.comp_def, filter_filter]
    rw [servable_iff]
    simp only [Bool.and_eq_true, unpinned_iff, decide_eq_true_eq, Set.mem_ofPred_eq]
    refine ⟨fun servable => servable.mono ?_, fun servable => servable.mono ?_⟩
    · rintro deviceId ⟨apart, own⟩ other queued (same | blocker)
      · exact own other queued same
      · exact apart other queued blocker
    · intro deviceId free
      exact ⟨fun other queued blocker => free other queued (Or.inr blocker),
        fun other queued same => free other queued (Or.inl same)⟩
  unfold isDeviceBlockedBy DeviceBlocked
  rw [Bool.and_eq_true, Bool.not_eq_true', ← Bool.not_eq_true, hasCompleteMatching_iff,
    hasCompleteMatching_iff, candidates, supply]

end Waiting

section Order

variable [DecidableEq σ] {queue : List (MultiDeviceAllocationTicket σ)}
  {ticket other : MultiDeviceAllocationTicket σ}

/-- Being earlier in the queue, by position and by order. -/
theorem mem_take_idxOf_iff (distinct : queue.Nodup) (queued : ticket ∈ queue) :
    other ∈ queue.take (queue.idxOf ticket) ↔ [other, ticket].Sublist queue := by
  have bound := idxOf_lt_length_of_mem queued
  have split : queue = queue.take (queue.idxOf ticket) ++
      ticket :: queue.drop (queue.idxOf ticket + 1) := by
    conv_lhs => rw [← take_append_drop (queue.idxOf ticket) queue,
      drop_eq_getElem_cons bound, getElem_idxOf bound]
  have apart : (queue.take (queue.idxOf ticket) ++
      ticket :: queue.drop (queue.idxOf ticket + 1)).Nodup := split ▸ distinct
  constructor
  · intro earlier
    rw [split]
    exact (singleton_sublist.mpr earlier).append
      (singleton_sublist.mpr mem_cons_self)
  · intro ordered
    rw [split, sublist_append_iff] at ordered
    obtain ⟨front, back, parts, inFront, inBack⟩ := ordered
    rw [nodup_append, nodup_cons] at apart
    obtain ⟨-, ⟨notBack, -⟩, disjoint⟩ := apart
    rcases front with _ | ⟨first, _ | ⟨second, rest⟩⟩
    · -- both after the front: the ticket would occur twice
      obtain rfl : [other, ticket] = back := by simpa using parts
      rcases List.sublist_cons_iff.mp inBack with deeper | ⟨tail, same, deeper⟩
      · exact absurd (deeper.mem (by simp)) notBack
      · simp only [List.cons.injEq] at same
        obtain ⟨-, rfl⟩ := same
        exact absurd (deeper.mem (by simp)) notBack
    · simp only [List.singleton_append, List.cons.injEq] at parts
      obtain ⟨rfl, -⟩ := parts
      exact inFront.mem (by simp)
    · simp only [List.cons_append, List.cons.injEq] at parts
      obtain ⟨-, rfl, -⟩ := parts
      exact absurd rfl (disjoint ticket (inFront.mem (by simp)) ticket List.mem_cons_self)

theorem mem_earlierConflictingTickets_iff (distinct : queue.Nodup) (queued : ticket ∈ queue) :
    other ∈ earlierConflictingTickets queue ticket ↔
      [other, ticket].Sublist queue ∧ other.conflicts ticket = true := by
  unfold earlierConflictingTickets sliceEnd
  rw [if_pos queued, List.mem_filter, mem_take_idxOf_iff distinct queued]

end Order

section Greatest

variable [DecidableEq σ] {port : MultiDeviceAllocationQueuePort σ δ}
  {queue : List (MultiDeviceAllocationTicket σ)} {ticket : MultiDeviceAllocationTicket σ}

theorem mem_waiting_iff : ticket ∈ (claimsByTicket port queue).map (·.1) ↔
    ticket ∈ queue ∧ ∃ claims, unmetMultiDeviceClaims port ticket = some claims := by
  simp only [claimsByTicket, List.mem_map, List.mem_filterMap, Option.map_eq_some_iff]
  constructor
  · rintro ⟨_, ⟨other, queued, claims, unmet, rfl⟩, rfl⟩
    exact ⟨queued, claims, unmet⟩
  · rintro ⟨queued, claims, unmet⟩
    exact ⟨(ticket, claims), ⟨ticket, queued, claims, unmet, rfl⟩, rfl⟩

theorem claimsOf_eq {claims : List (DeviceAllocationRequest σ)} (queued : ticket ∈ queue)
    (unmet : unmetMultiDeviceClaims port ticket = some claims) :
    claimsOf port queue ticket = claims := by
  unfold claimsOf claimsByTicket
  induction queue with
  | nil => simp at queued
  | cons first rest ih =>
    by_cases same : ticket = first
    · subst same
      simp [unmet]
    · have later : ticket ∈ rest := (List.mem_cons.mp queued).resolve_left same
      cases head : unmetMultiDeviceClaims port first with
      | none => simpa [List.filterMap_cons, head] using ih later
      | some _ =>
        have other : (ticket == first) = false := by simpa using same
        simpa [List.filterMap_cons, head, List.lookup_cons, other] using ih later

/-- The code's `stuck` over the claims it looked up. -/
def StaysIn (port : MultiDeviceAllocationQueuePort σ δ)
    (queue : List (MultiDeviceAllocationTicket σ)) (group : Set (MultiDeviceAllocationTicket σ))
    (ticket : MultiDeviceAllocationTicket σ) : Prop :=
  (∃ other ∈ group, other ∈ earlierConflictingTickets queue ticket) ∨
    DeviceBlocked port queue group ticket (claimsOf port queue ticket)

/-- More blockers leave less supply and the same candidates. -/
theorem StaysIn.mono {small large : Set (MultiDeviceAllocationTicket σ)}
    (stays : StaysIn port queue small ticket) (within : small ⊆ large) :
    StaysIn port queue large ticket := by
  rcases stays with ⟨other, member, earlier⟩ | ⟨short, candidates⟩
  · exact Or.inl ⟨other, within member, earlier⟩
  · refine Or.inr ⟨fun served => short (served.mono ?_), candidates⟩
    intro deviceId free other queued blocker
    apply free other queued
    rcases blocker with own | blocker
    · exact Or.inl own
    · exact Or.inr (within blocker)

theorem staysIn_iff (distinct : queue.Nodup) (group : Set (MultiDeviceAllocationTicket σ)) :
    (ticket ∈ (claimsByTicket port queue).map (·.1) ∧ StaysIn port queue group ticket) ↔
      ticket ∈ queue ∧ WaitsIn port queue group ticket := by
  rw [mem_waiting_iff]
  constructor
  · rintro ⟨⟨queued, claims, unmet⟩, stays⟩
    refine ⟨queued, claims, unmet, ?_⟩
    rw [StaysIn, claimsOf_eq queued unmet] at stays
    rcases stays with ⟨other, member, earlier⟩ | blocked
    · exact Or.inl ⟨other, member, (mem_earlierConflictingTickets_iff distinct queued).mp earlier⟩
    · exact Or.inr blocked
  · rintro ⟨queued, claims, unmet, waits⟩
    refine ⟨⟨queued, claims, unmet⟩, ?_⟩
    rw [StaysIn, claimsOf_eq queued unmet]
    rcases waits with ⟨other, member, earlier⟩ | blocked
    · exact Or.inl ⟨other, member, (mem_earlierConflictingTickets_iff distinct queued).mpr earlier⟩
    · exact Or.inr blocked

variable [DecidableEq δ]

theorem mem_deadlocked_answer : ticket ∈ Deadlocked port queue ↔
    ticket ∈ (findDeadlockedTickets port queue (pinnedDevicesByTicket port queue)).map (·.1) :=
  Iff.rfl

theorem mem_deadlocked_iff : ticket ∈ Deadlocked port queue ↔
    ticket ∈ IteratedRemoval.settle (stuck port queue (pinnedDevicesByTicket port queue))
      ((claimsByTicket port queue).map (·.1)).length ((claimsByTicket port queue).map (·.1)) := by
  simp only [Deadlocked, findDeadlockedTickets, List.map_map, Function.comp_def, List.map_id',
    Set.mem_ofPred_eq]

theorem stuck_iff (deadlocked : List (MultiDeviceAllocationTicket σ))
    (ticket : MultiDeviceAllocationTicket σ) :
    stuck port queue (pinnedDevicesByTicket port queue) deadlocked ticket = true ↔
      StaysIn port queue {other | other ∈ deadlocked} ticket := by
  unfold stuck StaysIn
  rw [Bool.or_eq_true, isDeviceBlockedBy_iff]
  simp only [List.any_eq_true, decide_eq_true_eq, Set.mem_ofPred_eq]
  constructor
  · rintro (⟨other, earlier, member⟩ | blocked)
    · exact Or.inl ⟨other, member, earlier⟩
    · exact Or.inr blocked
  · rintro (⟨other, member, earlier⟩ | blocked)
    · exact Or.inl ⟨other, earlier, member⟩
    · exact Or.inr blocked

/-- The fixpoint of the removal rounds, in the terms of the tickets. -/
theorem deadlocked_isGreatest (port : MultiDeviceAllocationQueuePort σ δ)
    (queue : List (MultiDeviceAllocationTicket σ)) (distinct : queue.Nodup) :
    IsGreatest {group : Set (MultiDeviceAllocationTicket σ) |
      ∀ ticket ∈ group, ticket ∈ queue ∧ WaitsIn port queue group ticket}
      (Deadlocked port queue) := by
  have monotone : ∀ small large member, (∀ other ∈ small, other ∈ large) →
      stuck port queue (pinnedDevicesByTicket port queue) small member = true →
      stuck port queue (pinnedDevicesByTicket port queue) large member = true := by
    intro small large member within stays
    rw [stuck_iff] at stays ⊢
    exact stays.mono within
  have greatest := IteratedRemoval.settle_isGreatest monotone
    ((claimsByTicket port queue).map (·.1)) (StaysIn port queue) stuck_iff
  have answer : Deadlocked port queue = {member | member ∈ IteratedRemoval.settle
      (stuck port queue (pinnedDevicesByTicket port queue))
      ((claimsByTicket port queue).map (·.1)).length ((claimsByTicket port queue).map (·.1))} := by
    ext member
    exact mem_deadlocked_iff
  rw [answer]
  simpa only [staysIn_iff distinct] using greatest

end Greatest

end AutoMobile.MultiDevice
