import AutoMobile.CycleVictims
import AutoMobile.MultiDeviceRounds

/- Which ticket fails when tickets deadlock. The recorded waits count every pinned
device a claim could use; a ticket is really kept waiting only by devices that it
cannot get elsewhere. -/
namespace AutoMobile.MultiDevice

open CycleVictims (Mutual Latest)
open Relation (TransGen)

variable {σ δ : Type} [DecidableEq σ] [DecidableEq δ]

section Waits

variable (port : MultiDeviceAllocationQueuePort σ δ)
  (queue : List (MultiDeviceAllocationTicket σ))

/-- No deadlocked ticket and not the ticket itself pins the device. -/
def Unpinned (ticket : MultiDeviceAllocationTicket σ) (deviceId : δ) : Prop :=
  ∀ other ∈ queue, other = ticket ∨ other ∈ Deadlocked port queue → ¬ Pins port other deviceId

/-- With this device one more of the claims could be served than with unpinned
devices alone. -/
def Needed (ticket : MultiDeviceAllocationTicket σ) (claims : List (DeviceAllocationRequest σ))
    (deviceId : δ) : Prop :=
  ∃ served, served.Sublist claims ∧
    Servable port served (fun device => device = deviceId ∨ Unpinned port queue ticket device) ∧
    ∀ fewer, fewer.Sublist claims → Servable port fewer (Unpinned port queue ticket) →
      fewer.length < served.length

/-- One deadlocked ticket waits for another: it is queued behind it, or it is short
of devices of which the other pins one of this kind. -/
def Waits (kind : MultiDeviceAllocationTicket σ → List (DeviceAllocationRequest σ) → δ → Prop)
    (ticket other : MultiDeviceAllocationTicket σ) : Prop :=
  ticket ∈ Deadlocked port queue ∧ other ∈ Deadlocked port queue ∧
    ([other, ticket].Sublist queue ∧ other.conflicts ticket = true ∨
      ∃ claims, unmetMultiDeviceClaims port ticket = some claims ∧
        DeviceBlocked port queue (Deadlocked port queue) ticket claims ∧ other ≠ ticket ∧
        ∃ deviceId, Pins port other deviceId ∧ kind ticket claims deviceId)

/-- The other ticket prevents this one: it pins a device that this one needs. -/
abbrev RealWait := Waits port queue (Needed port queue)

/-- The other ticket pins a device that some claim of this one could use. -/
abbrev RecordedWait := Waits port queue
  (fun _ claims deviceId => ∃ request ∈ claims, deviceId ∈ port.potentialSupplyFor request)

/-- The ticket fails when it runs `throwIfMultiDeviceAllocationDeadlocked`. -/
def Throws (ticket : MultiDeviceAllocationTicket σ) : Prop :=
  (throwIfMultiDeviceAllocationDeadlocked port queue ticket).isSome = true

/-- Somebody fails, who fails is on a cycle of real waits, and of tickets that share
such cycles exactly the latest in the queue fails. -/
def ResolvesRightly : Prop :=
  ((Deadlocked port queue).Nonempty → ∃ ticket ∈ queue, Throws port queue ticket) ∧
    (∀ ticket, Throws port queue ticket → TransGen (RealWait port queue) ticket ticket) ∧
    ∀ ticket, TransGen (RealWait port queue) ticket ticket →
      (Throws port queue ticket ↔ ∀ other, Mutual (RealWait port queue) ticket other →
        queue.idxOf other ≤ queue.idxOf ticket)

/-- What keeps a ticket short is needed: each device that another deadlocked ticket pins and
that some claim of the ticket could use lets one more of its claims be served. -/
def PinsAreNeeded : Prop :=
  ∀ ticket ∈ Deadlocked port queue, ∀ claims, unmetMultiDeviceClaims port ticket = some claims →
    DeviceBlocked port queue (Deadlocked port queue) ticket claims →
    ∀ other ∈ Deadlocked port queue, other ≠ ticket → ∀ deviceId, Pins port other deviceId →
      (∃ request ∈ claims, deviceId ∈ port.potentialSupplyFor request) →
        Needed port queue ticket claims deviceId

variable {port queue} {ticket other : MultiDeviceAllocationTicket σ}

/-- A device that raises the number of served claims is one of their candidates. -/
theorem Needed.candidate {claims : List (DeviceAllocationRequest σ)} {deviceId : δ}
    (needed : Needed port queue ticket claims deviceId) :
    ∃ request ∈ claims, deviceId ∈ port.potentialSupplyFor request := by
  obtain ⟨served, within, ⟨devices, served_, nodup⟩, most⟩ := needed
  by_contra none
  -- otherwise the unpinned devices serve as many claims
  have unpinned : Servable port served (Unpinned port queue ticket) := by
    refine ⟨devices, ?_, nodup⟩
    rw [List.forall₂_iff_get] at served_ ⊢
    refine ⟨served_.1, fun index bound bound' => ?_⟩
    obtain ⟨candidate, same | free⟩ := served_.2 index bound bound'
    · rw [same] at candidate
      exact absurd ⟨_, within.mem (List.get_mem served ⟨index, bound'⟩), candidate⟩ none
    · exact ⟨candidate, free⟩
  exact absurd (most served within unpinned) (Nat.lt_irrefl _)

/-- Where the pinned devices are needed, the recorded waits are the real ones. -/
theorem PinsAreNeeded.realWait_iff (needed : PinsAreNeeded port queue) :
    RealWait port queue ticket other ↔ RecordedWait port queue ticket other := by
  constructor
  · rintro ⟨member, member', behind | ⟨claims, unmet, blocked, apart, deviceId, pins, useful⟩⟩
    · exact ⟨member, member', Or.inl behind⟩
    · exact ⟨member, member', Or.inr ⟨claims, unmet, blocked, apart, deviceId, pins,
        useful.candidate⟩⟩
  · rintro ⟨member, member', behind | ⟨claims, unmet, blocked, apart, deviceId, pins, candidate⟩⟩
    · exact ⟨member, member', Or.inl behind⟩
    · exact ⟨member, member', Or.inr ⟨claims, unmet, blocked, apart, deviceId, pins,
        needed ticket member claims unmet blocked other member' apart deviceId pins candidate⟩⟩

/-- A pinned device is needed by a claim that no unpinned device can serve: it serves that
claim beside the most claims that unpinned devices serve. -/
theorem needed_of_noSpare {claims : List (DeviceAllocationRequest σ)} {deviceId : δ}
    (pinned : ¬ Unpinned port queue ticket deviceId) {request : DeviceAllocationRequest σ}
    (claim : request ∈ claims) (candidate : deviceId ∈ port.potentialSupplyFor request)
    (noSpare : ∀ device ∈ port.potentialSupplyFor request, ¬ Unpinned port queue ticket device) :
    Needed port queue ticket claims deviceId := by
  classical
  let Served (size : ℕ) : Prop := ∃ served, served.Sublist claims ∧
    Servable port served (Unpinned port queue ticket) ∧ served.length = size
  have none : Served 0 := ⟨[], List.nil_sublist _, ⟨[], List.Forall₂.nil, List.nodup_nil⟩, rfl⟩
  obtain ⟨best, within, ⟨devices, chosen, distinct⟩, size⟩ :=
    Nat.findGreatest_spec (P := Served) (Nat.zero_le claims.length) none
  have fresh : request ∉ best := by
    intro member
    obtain ⟨index, bound, same⟩ := List.getElem_of_mem member
    obtain ⟨-, each⟩ := List.forall₂_iff_get.mp chosen
    obtain ⟨possible, free⟩ := each index (by rw [chosen.length_eq]; exact bound) bound
    have taken : best.get ⟨index, bound⟩ = request := same
    rw [taken] at possible
    exact noSpare _ possible free
  have apart : deviceId ∉ devices := by
    intro member
    obtain ⟨index, bound, same⟩ := List.getElem_of_mem member
    obtain ⟨-, each⟩ := List.forall₂_iff_get.mp chosen
    obtain ⟨-, free⟩ := each index bound (by rw [← chosen.length_eq]; exact bound)
    rw [List.get_eq_getElem, same] at free
    exact pinned free
  obtain ⟨front, rest, rfl⟩ := List.append_of_mem claim
  obtain ⟨early, late, rfl, before, after⟩ := List.sublist_append_iff.mp within
  have after : late.Sublist rest := by
    rcases List.sublist_cons_iff.mp after with after | ⟨tail, rfl, -⟩
    · exact after
    · exact absurd (List.mem_append_right _ List.mem_cons_self) fresh
  have weaker : ∀ device claim, device ∈ port.potentialSupplyFor claim ∧
      Unpinned port queue ticket device → device ∈ port.potentialSupplyFor claim ∧
        (device = deviceId ∨ Unpinned port queue ticket device) :=
    fun device claim both => ⟨both.1, Or.inr both.2⟩
  refine ⟨early ++ request :: late, before.append (after.cons_cons _),
    ⟨devices.take early.length ++ deviceId :: devices.drop early.length, ?_, ?_⟩, ?_⟩
  · exact List.rel_append ((List.forall₂_take_append _ _ _ chosen).imp weaker)
      (List.Forall₂.cons ⟨candidate, Or.inl rfl⟩
        ((List.forall₂_drop_append _ _ _ chosen).imp weaker))
  · rw [List.nodup_middle, List.take_append_drop]
    exact List.nodup_cons.mpr ⟨apart, distinct⟩
  · intro fewer part served
    have most := Nat.le_findGreatest (P := Served) part.length_le ⟨fewer, part, served, rfl⟩
    rw [← size] at most
    simp only [List.length_append, List.length_cons] at most ⊢
    omega

theorem deadlocked_queued (distinct : queue.Nodup) (member : ticket ∈ Deadlocked port queue) :
    ticket ∈ queue :=
  ((deadlocked_isGreatest port queue distinct).1 ticket member).1

/-- Every deadlocked ticket records a wait for another. -/
theorem exists_recordedWait (distinct : queue.Nodup) (member : ticket ∈ Deadlocked port queue) :
    ∃ other, RecordedWait port queue ticket other := by
  obtain ⟨-, claims, unmet, behind | blocked⟩ :=
    (deadlocked_isGreatest port queue distinct).1 ticket member
  · obtain ⟨other, member', ordered, conflicting⟩ := behind
    exact ⟨other, member, member', Or.inl ⟨ordered, conflicting⟩⟩
  · by_contra none
    obtain ⟨short, devices, served, nodup⟩ := blocked
    apply short
    refine ⟨devices, ?_, nodup⟩
    rw [List.forall₂_iff_get] at served ⊢
    refine ⟨served.1, fun index bound bound' => ?_⟩
    obtain ⟨candidate, own⟩ := served.2 index bound bound'
    refine ⟨candidate, ?_⟩
    rintro other queued (same | member') pins
    · exact own other queued same pins
    · by_cases apart : other = ticket
      · exact own other queued apart pins
      · exact none ⟨other, member, member', Or.inr ⟨claims, unmet, ⟨short, devices,
          List.forall₂_iff_get.mpr served, nodup⟩, apart, _, pins, _,
          List.get_mem claims ⟨index, bound'⟩, candidate⟩⟩

theorem lookup_map_self {α β : Type} [DecidableEq α] (f : α → β) {a : α} {keys : List α}
    (member : a ∈ keys) : (keys.map (fun key => (key, f key))).lookup a = some (f a) := by
  induction keys with
  | nil => simp at member
  | cons key rest ih =>
    by_cases same : a = key
    · subst same
      simp
    · have other : (a == key) = false := by simpa using same
      simpa [List.lookup_cons, other] using ih ((List.mem_cons.mp member).resolve_left same)

theorem exists_holder_iff (deviceId : δ) :
    (∃ holder ∈ pinnedDevicesByTicket port queue deviceId, holder.ticket = other) ↔
      other ∈ queue ∧ Pins port other deviceId := by
  have pinned : pinnedBy (pinnedDevicesByTicket port queue) deviceId
      (fun holder => decide (holder = other)) = true ↔ ∃ holder ∈ queue,
        decide (holder = other) = true ∧ Pins port holder deviceId := pinnedBy_iff deviceId _
  simp only [pinnedBy, List.any_eq_true, decide_eq_true_eq] at pinned
  rw [pinned]
  constructor
  · rintro ⟨holder, queued, rfl, pins⟩
    exact ⟨queued, pins⟩
  · rintro ⟨queued, pins⟩
    exact ⟨other, queued, rfl, pins⟩

/-- The recorded holders of a claim's candidates. -/
theorem mem_pinnedWaits_iff (members : List (MultiDeviceAllocationTicket σ))
    (request : DeviceAllocationRequest σ) :
    (∃ entry ∈ pinnedWaits port (pinnedDevicesByTicket port queue) members ticket request,
        other ∈ entry.holders.map (·.ticket)) ↔
      other ≠ ticket ∧ other ∈ members ∧ other ∈ queue ∧
        ∃ deviceId ∈ port.potentialSupplyFor request, Pins port other deviceId := by
  unfold pinnedWaits
  constructor
  · rintro ⟨entry, listed, holds⟩
    obtain ⟨deviceId, candidate, listed⟩ := List.mem_flatMap.mp listed
    dsimp only at listed
    split at listed
    · obtain rfl := List.mem_singleton.mp listed
      obtain ⟨holder, kept, rfl⟩ := List.mem_map.mp holds
      obtain ⟨pinned, tests⟩ := List.mem_filter.mp kept
      rw [Bool.and_eq_true, decide_eq_true_eq, decide_eq_true_eq] at tests
      obtain ⟨queued, pins⟩ := (exists_holder_iff deviceId).mp ⟨holder, pinned, rfl⟩
      exact ⟨tests.1, tests.2, queued, deviceId, candidate, pins⟩
    · simp at listed
  · rintro ⟨apart, member, queued, deviceId, candidate, pins⟩
    obtain ⟨holder, pinned, rfl⟩ := (exists_holder_iff deviceId).mpr ⟨queued, pins⟩
    have kept : holder ∈ (pinnedDevicesByTicket port queue deviceId).filter (fun holder =>
        decide (holder.ticket ≠ ticket) && decide (holder.ticket ∈ members)) :=
      List.mem_filter.mpr ⟨pinned, by simp [apart, member]⟩
    refine ⟨⟨request, deviceId, _⟩, List.mem_flatMap.mpr ⟨deviceId, candidate, ?_⟩,
      List.mem_map.mpr ⟨holder, kept, rfl⟩⟩
    dsimp only
    rw [if_pos (List.length_pos_of_mem kept)]
    exact List.mem_singleton.mpr rfl

/-- The successor lists of the code are the recorded waits. -/
theorem mem_waitSuccessors_iff (distinct : queue.Nodup) (member : ticket ∈ Deadlocked port queue) :
    other ∈ waitSuccessors (deadlockWaits port queue
        (findDeadlockedTickets port queue (pinnedDevicesByTicket port queue))
        (pinnedDevicesByTicket port queue)) ticket ↔
      RecordedWait port queue ticket other := by
  obtain ⟨queued, claims, unmet, -⟩ := (deadlocked_isGreatest port queue distinct).1 ticket member
  have settled := mem_deadlocked_iff.mp member
  have found : (deadlockWaits port queue
      (findDeadlockedTickets port queue (pinnedDevicesByTicket port queue))
      (pinnedDevicesByTicket port queue)).lookup ticket = some {
        queuedBehind := (earlierConflictingTickets queue ticket).filter (fun other =>
          other ∈ (findDeadlockedTickets port queue (pinnedDevicesByTicket port queue)).map (·.1))
        blockedOn := if isDeviceBlockedBy port ticket claims ((findDeadlockedTickets port queue
              (pinnedDevicesByTicket port queue)).map (·.1)) (pinnedDevicesByTicket port queue) then
            claims.flatMap (pinnedWaits port (pinnedDevicesByTicket port queue)
              ((findDeadlockedTickets port queue (pinnedDevicesByTicket port queue)).map (·.1))
              ticket)
          else [] } := by
    unfold deadlockWaits
    conv_lhs => rw [findDeadlockedTickets]
    rw [List.map_map]
    dsimp only [Function.comp_def]
    rw [lookup_map_self _ settled, claimsOf_eq queued unmet]
    rfl
  have group : {one | one ∈ (findDeadlockedTickets port queue
      (pinnedDevicesByTicket port queue)).map (·.1)} = Deadlocked port queue := rfl
  have answers : ∀ one, one ∈ (findDeadlockedTickets port queue
      (pinnedDevicesByTicket port queue)).map (·.1) ↔ one ∈ Deadlocked port queue :=
    fun one => Iff.rfl
  simp only [waitSuccessors, found, List.mem_append, List.mem_flatMap]
  constructor
  · rintro (behind | ⟨entry, listed, holds⟩)
    · obtain ⟨earlier, member'⟩ := List.mem_filter.mp behind
      exact ⟨member, (answers other).mp (of_decide_eq_true member'),
        Or.inl ((mem_earlierConflictingTickets_iff distinct queued).mp earlier)⟩
    · split at listed
      · rename_i blocked
        rw [isDeviceBlockedBy_iff, group] at blocked
        obtain ⟨request, claim, listed⟩ := List.mem_flatMap.mp listed
        obtain ⟨apart, member', -, deviceId, candidate, pins⟩ :=
          (mem_pinnedWaits_iff _ request).mp ⟨entry, listed, holds⟩
        exact ⟨member, member', Or.inr ⟨claims, unmet, blocked, apart, deviceId, pins, request,
          claim, candidate⟩⟩
      · simp at listed
  · rintro ⟨-, member', behind | ⟨claims', unmet', blocked, apart, deviceId, pins, request, claim,
      candidate⟩⟩
    · refine Or.inl (List.mem_filter.mpr ⟨?_, decide_eq_true ((answers other).mpr member')⟩)
      exact (mem_earlierConflictingTickets_iff distinct queued).mpr behind
    · obtain rfl : claims = claims' := Option.some.inj (unmet.symm.trans unmet')
      obtain ⟨entry, listed, holds⟩ := (mem_pinnedWaits_iff ((findDeadlockedTickets port queue
        (pinnedDevicesByTicket port queue)).map (·.1)) request).mpr
        ⟨apart, (answers other).mpr member', deadlocked_queued distinct member', deviceId, candidate, pins⟩
      refine Or.inr ⟨entry, ?_, holds⟩
      rw [← group, ← isDeviceBlockedBy_iff] at blocked
      rw [if_pos blocked]
      exact List.mem_flatMap.mpr ⟨request, claim, listed⟩

theorem recordedWait_irrefl (distinct : queue.Nodup) : ¬ RecordedWait port queue ticket ticket := by
  rintro ⟨-, -, ⟨ordered, -⟩ | ⟨_, _, _, apart, -⟩⟩
  · have twice := distinct.sublist ordered
    simp at twice
  · exact apart rfl

end Waits

section Cycles

variable {α : Type} [DecidableEq α] {nodes : List α} {successors : α → List α} {start node : α}

/-- The class of a node, by mutual reachability. -/
theorem mem_stronglyConnectedWith_iff
    (closed : ∀ node ∈ nodes, ∀ next ∈ successors node, next ∈ nodes) (known : start ∈ nodes)
    (cycle : TransGen (fun a b => b ∈ successors a) start start) :
    node ∈ stronglyConnectedWith nodes start successors ↔
      Mutual (fun a b => b ∈ successors a) start node := by
  have reaches : ∀ from_ ∈ nodes, ∀ to_, to_ ∈ GraphSearch.reachableFrom successors nodes from_ ↔
      TransGen (fun a b => b ∈ successors a) from_ to_ :=
    fun from_ inside to_ => GraphSearch.mem_reachableFrom_iff closed inside to_
  have stays : ∀ to_, TransGen (fun a b => b ∈ successors a) start to_ → to_ ∈ nodes := by
    intro to_ path
    induction path with
    | single step => exact closed start known _ step
    | tail _ step ih => exact closed _ ih _ step
  unfold stronglyConnectedWith
  dsimp only
  rw [if_pos ((reaches start known start).mpr cycle), List.mem_filter, reaches start known,
    Bool.or_eq_true, decide_eq_true_eq, decide_eq_true_eq]
  constructor
  · rintro ⟨forward, rfl | back⟩
    · exact ⟨forward, forward⟩
    · exact ⟨forward, (reaches node (stays node forward) start).mp back⟩
  · rintro ⟨forward, back⟩
    exact ⟨forward, Or.inr ((reaches node (stays node forward) start).mpr back)⟩

theorem stronglyConnectedWith_alone
    (closed : ∀ node ∈ nodes, ∀ next ∈ successors node, next ∈ nodes) (known : start ∈ nodes)
    (none : ¬ TransGen (fun a b => b ∈ successors a) start start) :
    stronglyConnectedWith nodes start successors = [start] := by
  unfold stronglyConnectedWith
  dsimp only
  rw [if_neg]
  rw [GraphSearch.mem_reachableFrom_iff closed known]
  exact none

end Cycles

section Victims

variable {port : MultiDeviceAllocationQueuePort σ δ}
  {queue : List (MultiDeviceAllocationTicket σ)} {ticket : MultiDeviceAllocationTicket σ}

/-- A ticket fails when it is the latest of a class of recorded waits. -/
theorem throws_iff (distinct : queue.Nodup) :
    Throws port queue ticket ↔ Latest (RecordedWait port queue) (queue.idxOf ·) ticket := by
  let members := (findDeadlockedTickets port queue (pinnedDevicesByTicket port queue)).map (·.1)
  let successors := waitSuccessors (deadlockWaits port queue
    (findDeadlockedTickets port queue (pinnedDevicesByTicket port queue))
    (pinnedDevicesByTicket port queue))
  have answers : ∀ one, one ∈ members ↔ one ∈ Deadlocked port queue := fun one => Iff.rfl
  have edges : ∀ one ∈ members, ∀ next, next ∈ successors one ↔ RecordedWait port queue one next :=
    fun one inside next => mem_waitSuccessors_iff distinct ((answers one).mp inside)
  have closed : ∀ one ∈ members, ∀ next ∈ successors one, next ∈ members :=
    fun one inside next step => (answers next).mpr ((edges one inside next).mp step).2.1
  have paths : ∀ one ∈ members, ∀ next, TransGen (fun a b => b ∈ successors a) one next ↔
      TransGen (RecordedWait port queue) one next := by
    intro one inside next
    constructor
    · intro path
      have both : TransGen (RecordedWait port queue) one next ∧ next ∈ members := by
        induction path with
        | single step =>
          exact ⟨TransGen.single ((edges one inside _).mp step), closed one inside _ step⟩
        | tail _ step ih => exact ⟨ih.1.tail ((edges _ ih.2 _).mp step), closed _ ih.2 _ step⟩
      exact both.1
    · intro path
      refine TransGen.mono ?_ _ _ path
      exact fun a b wait => (edges a ((answers a).mpr wait.1) b).mpr wait
  have reached : ∀ one next, TransGen (RecordedWait port queue) one next → next ∈ members := by
    intro one next path
    cases path with
    | single step => exact (answers next).mpr step.2.1
    | tail _ step => exact (answers next).mpr step.2.1
  unfold Throws throwIfMultiDeviceAllocationDeadlocked
  dsimp only
  by_cases member : ticket ∈ members
  · rw [if_pos member]
    by_cases cycle : TransGen (RecordedWait port queue) ticket ticket
    · -- on a cycle: the class is the code's cycle, and holds a second ticket
      have inClass : ∀ other, other ∈ stronglyConnectedWith members ticket successors ↔
          Mutual (RecordedWait port queue) ticket other := by
        intro other
        rw [mem_stronglyConnectedWith_iff closed member ((paths ticket member ticket).mpr cycle)]
        constructor
        · rintro ⟨forward, back⟩
          have onward := (paths ticket member other).mp forward
          exact ⟨onward, (paths other (reached _ _ onward) ticket).mp back⟩
        · rintro ⟨forward, back⟩
          exact ⟨(paths ticket member other).mpr forward,
            (paths other (reached _ _ forward) ticket).mpr back⟩
      obtain ⟨second, apart, shared⟩ : ∃ second, second ≠ ticket ∧
          Mutual (RecordedWait port queue) ticket second := by
        obtain ⟨second, step, back⟩ := TransGen.head'_iff.mp cycle
        have apart : second ≠ ticket := by
          rintro rfl
          exact recordedWait_irrefl distinct step
        rcases Relation.reflTransGen_iff_eq_or_transGen.mp back with same | back
        · exact absurd same.symm apart
        · exact ⟨second, apart, TransGen.single step, back⟩
      have several : ¬ (stronglyConnectedWith members ticket successors).length < 2 := by
        have first := (inClass ticket).mpr ⟨cycle, cycle⟩
        have other := (inClass second).mpr shared
        revert first other
        rcases stronglyConnectedWith members ticket successors with _ | ⟨only, _ | ⟨_, _⟩⟩ <;>
          intro first other
        · simp at first
        · rw [List.mem_singleton] at first other
          exact absurd (other.trans first.symm) apart
        · simp
      rw [decide_eq_false several, Bool.false_or]
      constructor
      · intro fails
        refine ⟨cycle, fun other shared' => ?_⟩
        by_contra later
        have later' : (stronglyConnectedWith members ticket successors).any (fun other =>
            decide (queue.idxOf other > queue.idxOf ticket)) = true :=
          List.any_eq_true.mpr ⟨other, (inClass other).mpr shared',
            decide_eq_true (Nat.lt_of_not_le later)⟩
        rw [if_pos later'] at fails
        simp at fails
      · rintro ⟨-, highest⟩
        rw [if_neg]
        · rfl
        · intro later
          obtain ⟨other, inside, above⟩ := List.any_eq_true.mp later
          have below : queue.idxOf other ≤ queue.idxOf ticket :=
            highest other ((inClass other).mp inside)
          have above := of_decide_eq_true above
          omega
    · have alone := stronglyConnectedWith_alone closed member
        (fun path => cycle ((paths ticket member ticket).mp path))
      rw [alone]
      constructor
      · intro fails
        simp at fails
      · exact fun latest => absurd latest.1 cycle
  · rw [if_neg member]
    constructor
    · intro fails
      simp at fails
    · exact fun latest => absurd (reached _ _ latest.1) member

/-- The right tickets fail where every pinned device that is waited for is needed. -/
theorem deadlock_victims_right (port : MultiDeviceAllocationQueuePort σ δ)
    (queue : List (MultiDeviceAllocationTicket σ)) (distinct : (queue.map (·.id)).Nodup)
    (needed : PinsAreNeeded port queue) : ResolvesRightly port queue := by
  have nodup : queue.Nodup := distinct.of_map
  have real : RealWait port queue = RecordedWait port queue :=
    funext fun _ => funext fun _ => propext needed.realWait_iff
  refine ⟨?_, fun ticket fails => ?_, fun ticket cycle => ?_⟩
  · -- somebody is the latest of a recorded cycle
    rintro ⟨ticket, member⟩
    let members := (findDeadlockedTickets port queue (pinnedDevicesByTicket port queue)).map (·.1)
    have onward : ∀ one ∈ members, ∃ next ∈ members, RecordedWait port queue one next := by
      intro one inside
      obtain ⟨next, wait⟩ := exists_recordedWait nodup inside
      exact ⟨next, wait.2.1, wait⟩
    obtain ⟨node, inside, cycle⟩ :=
      CycleVictims.exists_cycle members (List.ne_nil_of_mem member) onward
    have queued : ∀ other, TransGen (RecordedWait port queue) node other → other ∈ queue := by
      intro other path
      cases path with
      | single step => exact deadlocked_queued nodup step.2.1
      | tail _ step => exact deadlocked_queued nodup step.2.1
    obtain ⟨last, shared, latest⟩ : ∃ last, Mutual (RecordedWait port queue) node last ∧
        Latest (RecordedWait port queue) (queue.idxOf ·) last :=
      CycleVictims.exists_latest queue (fun other shared => queued other shared.1) cycle
    exact ⟨last, queued last shared.1, (throws_iff nodup).mpr latest⟩
  · rw [real]
    exact ((throws_iff nodup).mp fails).1
  · rw [real] at cycle ⊢
    rw [throws_iff nodup]
    exact ⟨fun latest => latest.2, fun highest => ⟨cycle, highest⟩⟩

end Victims

/-- A pool where the second ticket can serve one claim from the idle phone 2. -/
def sparePort : MultiDeviceAllocationQueuePort Nat Nat := phonePool [(10, 1), (20, 5), (30, 3)]

def crossedQueue : List (MultiDeviceAllocationTicket Nat) := [crossedFirst, crossedSecond]

/-- Two tickets that hold each other's only phone: the later one fails. -/
theorem deadlock_victims_right_crossed : crossedSecond ∈ Deadlocked sparePort crossedQueue ∧
      ResolvesRightly sparePort crossedQueue := by
  refine ⟨?_, deadlock_victims_right sparePort crossedQueue (by decide) ?_⟩
  · rw [mem_deadlocked_answer]
    decide +kernel
  -- each claim has one candidate
  have only : ∀ ticket ∈ crossedQueue,
      ∀ request ∈ (unmetMultiDeviceClaims sparePort ticket).getD [],
        ∀ one ∈ sparePort.potentialSupplyFor request,
          ∀ two ∈ sparePort.potentialSupplyFor request, one = two := by decide +kernel
  rintro ticket member claims unmet - other member' - deviceId pins ⟨request, claim, candidate⟩
  have pinned : ¬ Unpinned sparePort crossedQueue ticket deviceId := fun free =>
    free other (deadlocked_queued (by decide) member') (Or.inr member') pins
  refine needed_of_noSpare pinned claim candidate fun device another => ?_
  have same : device = deviceId := only ticket (deadlocked_queued (by decide) member) request
    (by rw [unmet]; exact claim) device another deviceId candidate
  rw [same]
  exact pinned

def spareSecond : MultiDeviceAllocationTicket Nat :=
  ⟨1, [⟨20, none⟩, ⟨21, some { simulatorType := some "iPhone SE" }⟩,
    ⟨22, some { simulatorType := some "iPhone 15" }⟩], [20], by decide⟩

def spareThird : MultiDeviceAllocationTicket Nat :=
  ⟨2, [⟨30, none⟩,
    ⟨31, some { simulatorType := some "iPhone 15", iosVersion := some "17.0" }⟩], [30], by decide⟩

def spareQueue : List (MultiDeviceAllocationTicket Nat) := [crossedFirst, spareSecond, spareThird]

/-- Both claims of the second ticket cannot be served, with the third one's phone or
without: the first ticket pins the only candidate of one of them. -/
theorem spare_not_needed (first : crossedFirst ∈ Deadlocked sparePort spareQueue)
    {claims : List (DeviceAllocationRequest Nat)}
    (unmet : unmetMultiDeviceClaims sparePort spareSecond = some claims) :
    ¬ Needed sparePort spareQueue spareSecond claims 3 := by
  let pinned : DeviceAllocationRequest Nat := ⟨21, some { simulatorType := some "iPhone SE" }⟩
  let spare : DeviceAllocationRequest Nat := ⟨22, some { simulatorType := some "iPhone 15" }⟩
  have known : unmetMultiDeviceClaims sparePort spareSecond = some [pinned, spare] := by
    decide +kernel
  obtain rfl : [pinned, spare] = claims := Option.some.inj (known.symm.trans unmet)
  rintro ⟨served, within, ⟨devices, chosen, -⟩, most⟩
  -- the idle phone 2 serves one claim
  have idle : Servable sparePort [spare] (Unpinned sparePort spareQueue spareSecond) := by
    refine ⟨[2], List.Forall₂.cons ⟨by decide +kernel, ?_⟩ List.Forall₂.nil, by decide⟩
    rintro other queued - ⟨sessionId, recorded, held⟩
    have none : ∀ ticket ∈ spareQueue, ∀ sessionId ∈ ticket.heldSessionIds,
        sparePort.deviceHeldByExistingSession sessionId ≠ some 2 := by decide +kernel
    exact none other queued sessionId recorded held
  have more := most [spare] (by decide) idle
  rw [List.length_singleton] at more
  have all : served = [pinned, spare] := within.eq_of_length_le more
  subst all
  obtain ⟨deviceId, rest, ⟨candidate, cases⟩, -, -⟩ := List.forall₂_cons_right_iff.mp chosen
  have only : ∀ device ∈ sparePort.potentialSupplyFor pinned, device = 1 := by decide +kernel
  obtain rfl := only deviceId candidate
  rcases cases with same | unpinned
  · cases same
  · exact unpinned crossedFirst (by decide) (Or.inr first) ⟨10, by decide, by decide⟩

theorem spareQueue_cases (ticket : MultiDeviceAllocationTicket Nat) (queued : ticket ∈ spareQueue) :
    ticket = crossedFirst ∨ ticket = spareSecond ∨ ticket = spareThird := by
  simpa [spareQueue] using queued

/-- The third ticket merely waits on the cycle of the other two, and fails: its phone
is recorded as a wait of the second one, which does not need it. -/
theorem spare_device_fails_bystander : ¬ ResolvesRightly sparePort spareQueue := by
  rintro ⟨-, onCycle, -⟩
  have fails : Throws sparePort spareQueue spareThird := by
    unfold Throws
    decide +kernel
  obtain ⟨waiter, -, wait⟩ := TransGen.tail'_iff.mp (onCycle spareThird fails)
  obtain ⟨member, -, cases⟩ := wait
  have queued : waiter ∈ spareQueue := deadlocked_queued (by decide) member
  have first : crossedFirst ∈ Deadlocked sparePort spareQueue := by
    rw [mem_deadlocked_answer]
    decide +kernel
  rcases cases with ⟨ordered, -⟩ | ⟨claims, unmet, -, apart, deviceId, ⟨sessionId, recorded, held⟩,
    needed⟩
  · -- it is the last of the queue
    have none : ∀ ticket ∈ spareQueue, ¬ [spareThird, ticket].Sublist spareQueue := by decide
    exact none waiter queued ordered
  · obtain rfl : sessionId = 30 := List.mem_singleton.mp recorded
    obtain rfl : 3 = deviceId := Option.some.inj held
    rcases spareQueue_cases waiter queued with rfl | rfl | rfl
    · have known : unmetMultiDeviceClaims sparePort crossedFirst =
          some [⟨11, some { simulatorType := some "iPhone 13" }⟩] := by decide +kernel
      obtain rfl := Option.some.inj (known.symm.trans unmet)
      obtain ⟨request, claim, candidate⟩ := needed.candidate
      rw [List.mem_singleton.mp claim] at candidate
      revert candidate
      decide +kernel
    · exact spare_not_needed first unmet needed
    · exact absurd rfl apart

end AutoMobile.MultiDevice
