import AutoMobile.CoordinatorState

namespace AutoMobile.CriticalSection

open RendezvousHistory

variable {κ δ M : Type} [DecidableEq κ] [DecidableEq δ]

/-- The barrier let the call through and the call has not failed since. -/
def Phase.passed : Phase → Bool
  | .lifted | .queued _ | .abandoned _ | .inside _ | .left _ => true
  | .waiting _ | .settled => false

/-- Fresh names are fresh, a set belongs to one key, and so does a parked call. -/
structure Shape (st : Coordinator κ δ M) : Prop where
  calls_fresh : ∀ id, st.nextCall ≤ id → st.calls id = none
  counts_lt : ∀ key set, st.barrierCounts key = some set → set < st.nextSet
  counts_inj : ∀ first second set, st.barrierCounts first = some set →
    st.barrierCounts second = some set → first = second
  captured_lt : ∀ id call set, st.calls id = some call → call.phase = .waiting set →
    set < st.nextSet
  captured_key : ∀ id call set key, st.calls id = some call → call.phase = .waiting set →
    st.barrierCounts key = some set → key = call.key
  parked_key : ∀ key, ∀ waiter ∈ st.waiters key,
    ∃ call, st.calls waiter.call = some call ∧ call.key = key

/-- The barrier record of `key` is what its history says it is. -/
structure BarrierInv (count : Nat) (key : κ) (st : Coordinator κ δ M)
    (history : List (Note δ)) : Prop where
  valid : Valid count history
  waiters : st.waiters key = waiting history
  registered : ∀ expected, st.expectedDeviceCounts key = some expected →
    expected = count ∧ (waiting history).length < count
  unregistered : st.expectedDeviceCounts key = none → waiting history = []
  counted : ∀ set, st.barrierCounts key = some set → st.sets set = (waiting history).map (·.party)
  uncounted : st.barrierCounts key = none → waiting history = []
  parked : ∀ waiter ∈ waiting history, ∃ call set, st.calls waiter.call = some call ∧
    call.key = key ∧ call.deviceId = waiter.party ∧ call.phase = .waiting set ∧
      st.barrierCounts key = some set
  waits : ∀ id call set, st.calls id = some call → call.key = key → call.phase = .waiting set →
    ⟨id, call.deviceId⟩ ∈ waiting history
  passed : ∀ id call, st.calls id = some call → call.key = key → call.phase.passed = true →
    ∃ waiter ∈ releasedWaiters history, waiter.call = id
  arrived_lt : ∀ waiter, Note.arrived waiter ∈ history → waiter.call < st.nextCall

/-- Nothing the barrier of `key` looks at has changed. -/
structure SameKey (key : κ) (st next : Coordinator κ δ M) : Prop where
  resolvers : next.barrierResolvers key = st.barrierResolvers key
  expected : next.expectedDeviceCounts key = st.expectedDeviceCounts key
  counts : next.barrierCounts key = st.barrierCounts key
  sets : ∀ set, st.barrierCounts key = some set → next.sets set = st.sets set
  calls_le : st.nextCall ≤ next.nextCall
  stays : ∀ id call set, st.calls id = some call → call.key = key → call.phase = .waiting set →
    ∃ later, next.calls id = some later ∧ later.key = key ∧ later.deviceId = call.deviceId ∧
      later.phase = .waiting set
  origin : ∀ id later, next.calls id = some later → later.key = key →
    (∃ call, st.calls id = some call ∧ call.key = key ∧ call.deviceId = later.deviceId ∧
      (∀ set, later.phase = .waiting set → call.phase = .waiting set) ∧
      (later.phase.passed = true → call.phase.passed = true))

/-- Calls move on, records only go, no name is handed out. -/
structure Settles (st next : Coordinator κ δ M) : Prop where
  counts : ∀ key set, next.barrierCounts key = some set → st.barrierCounts key = some set
  nextSet : next.nextSet = st.nextSet
  nextCall : next.nextCall = st.nextCall
  waiters : ∀ key, ∀ waiter ∈ next.waiters key, waiter ∈ st.waiters key
  keys : ∀ id, (next.calls id).map (·.key) = (st.calls id).map (·.key)
  phases : ∀ id later set, next.calls id = some later → later.phase = .waiting set →
    ∃ call, st.calls id = some call ∧ call.phase = .waiting set

omit [DecidableEq κ] [DecidableEq δ] in
theorem Shape.settles {st next : Coordinator κ δ M} (shape : Shape st)
    (settles : Settles st next) : Shape next where
  calls_fresh id fresh := by
    have old := shape.calls_fresh id (settles.nextCall ▸ fresh)
    simpa [old] using settles.keys id
  counts_lt key set counted := settles.nextSet ▸ shape.counts_lt key set (settles.counts _ _ counted)
  counts_inj first second set one two :=
    shape.counts_inj first second set (settles.counts _ _ one) (settles.counts _ _ two)
  captured_lt id later set found phase := by
    obtain ⟨call, found', phase'⟩ := settles.phases id later set found phase
    exact settles.nextSet ▸ shape.captured_lt id call set found' phase'
  captured_key id later set key found phase counted := by
    obtain ⟨call, found', phase'⟩ := settles.phases id later set found phase
    have same : later.key = call.key := by simpa [found, found'] using settles.keys id
    rw [same]
    exact shape.captured_key id call set key found' phase' (settles.counts _ _ counted)
  parked_key key waiter member := by
    obtain ⟨call, found, ofKey⟩ := shape.parked_key key waiter (settles.waiters key waiter member)
    have same := settles.keys waiter.call
    rw [found] at same
    obtain ⟨later, found', ofKey'⟩ := Option.map_eq_some_iff.mp same
    exact ⟨later, found', ofKey'.trans ofKey⟩

omit [DecidableEq κ] [DecidableEq δ] in
theorem BarrierInv.same {count : Nat} {key : κ} {st next : Coordinator κ δ M}
    {history : List (Note δ)} (inv : BarrierInv count key st history)
    (same : SameKey key st next) : BarrierInv count key next history where
  valid := inv.valid
  waiters := by rw [← inv.waiters, Coordinator.waiters, same.resolvers, Coordinator.waiters]
  registered := by rw [same.expected]; exact inv.registered
  unregistered := by rw [same.expected]; exact inv.unregistered
  counted set counted := by
    rw [same.counts] at counted
    rw [same.sets set counted]
    exact inv.counted set counted
  uncounted := by rw [same.counts]; exact inv.uncounted
  parked waiter member := by
    obtain ⟨call, set, found, ofKey, device, phase, counted⟩ := inv.parked waiter member
    obtain ⟨later, found', ofKey', device', phase'⟩ := same.stays _ call set found ofKey phase
    exact ⟨later, set, found', ofKey', device'.trans device, phase', same.counts ▸ counted⟩
  waits id later set found ofKey phase := by
    obtain ⟨call, found', ofKey', device, phases, -⟩ := same.origin id later found ofKey
    rw [← device]
    exact inv.waits id call set found' ofKey' (phases set phase)
  passed id later found ofKey passed := by
    obtain ⟨call, found', ofKey', -, -, before⟩ := same.origin id later found ofKey
    exact inv.passed id call found' ofKey' (before passed)
  arrived_lt waiter member := Nat.lt_of_lt_of_le (inv.arrived_lt waiter member) same.calls_le

/-- A step no barrier notices. -/
def Quiet (key : κ) (st next : Coordinator κ δ M) : Prop := SameKey key st next ∧ Settles st next

section Frames

variable {ops : MutexOps M} {key : κ} {st : Coordinator κ δ M}

variable {next middle : Coordinator κ δ M} {id : Nat} {call : Call κ δ}

omit [DecidableEq κ] [DecidableEq δ] in
/-- Writing only locks, mutexes, timers or generations is quiet. -/
theorem Quiet.of_eq (resolvers : next.barrierResolvers = st.barrierResolvers)
    (expected : next.expectedDeviceCounts = st.expectedDeviceCounts)
    (counts : next.barrierCounts = st.barrierCounts) (sets : next.sets = st.sets)
    (calls : next.calls = st.calls) (nextCall : next.nextCall = st.nextCall)
    (nextSet : next.nextSet = st.nextSet) : Quiet key st next := by
  constructor
  · constructor
    case resolvers => rw [resolvers]
    case expected => rw [expected]
    case counts => rw [counts]
    case sets => exact fun _ _ => by rw [sets]
    case calls_le => exact Nat.le_of_eq nextCall.symm
    case stays =>
      exact fun _ call _ found ofKey phase => ⟨call, by rw [calls]; exact found, ofKey, rfl, phase⟩
    case origin =>
      exact fun _ later found ofKey =>
        ⟨later, by rw [← calls]; exact found, ofKey, rfl, fun _ phase => phase, fun phase => phase⟩
  · constructor
    case counts => rw [counts]; exact fun _ _ counted => counted
    case nextSet => exact nextSet
    case nextCall => exact nextCall
    case waiters => simp only [Coordinator.waiters, resolvers]; exact fun _ _ member => member
    case keys => rw [calls]; exact fun _ => rfl
    case phases => rw [calls]; exact fun _ later _ found phase => ⟨later, found, phase⟩

omit [DecidableEq κ] [DecidableEq δ] in
theorem Quiet.refl (key : κ) (st : Coordinator κ δ M) : Quiet key st st :=
  Quiet.of_eq rfl rfl rfl rfl rfl rfl rfl

omit [DecidableEq κ] [DecidableEq δ] in
theorem Settles.refl (st : Coordinator κ δ M) : Settles st st where
  counts _ _ counted := counted
  nextSet := rfl
  nextCall := rfl
  waiters _ _ member := member
  keys _ := rfl
  phases _ later _ found phase := ⟨later, found, phase⟩

omit [DecidableEq κ] [DecidableEq δ] in
/-- A call that is not parked moves on without entering a barrier. -/
theorem Quiet.setCall {later : Call κ δ} (found : st.calls id = some call)
    (sameKey : later.key = call.key) (device : later.deviceId = call.deviceId)
    (wasFree : ∀ set, call.phase ≠ .waiting set) (free : ∀ set, later.phase ≠ .waiting set)
    (passed : later.phase.passed = true → call.phase.passed = true) :
    Quiet key st (st.setCall id later) := by
  constructor
  · constructor
    case resolvers => rfl
    case expected => rfl
    case counts => rfl
    case sets => exact fun _ _ => rfl
    case calls_le => exact Nat.le_refl _
    case stays =>
      intro other parked set foundOther ofKey phase
      have apart : other ≠ id := by
        rintro rfl
        rw [found] at foundOther
        cases foundOther
        exact wasFree set phase
      exact ⟨parked, by simpa [Coordinator.setCall, apart] using foundOther, ofKey, rfl, phase⟩
    case origin =>
      intro other after foundAfter ofKey
      by_cases same : other = id
      · subst same
        obtain rfl : later = after := by simpa [Coordinator.setCall] using foundAfter
        exact ⟨call, found, sameKey ▸ ofKey, device.symm, fun set phase => absurd phase (free set),
          passed⟩
      · exact ⟨after, by simpa [Coordinator.setCall, same] using foundAfter, ofKey, rfl,
          fun _ phase => phase, fun phase => phase⟩
  · constructor
    case counts => exact fun _ _ counted => counted
    case nextSet => rfl
    case nextCall => rfl
    case waiters => exact fun _ _ member => member
    case keys =>
      intro other
      by_cases same : other = id
      · subst same
        simp [Coordinator.setCall, found, sameKey]
      · simp [Coordinator.setCall, same]
    case phases =>
      intro other after set foundAfter phase
      by_cases same : other = id
      · subst same
        obtain rfl : later = after := by simpa [Coordinator.setCall] using foundAfter
        exact absurd phase (free set)
      · exact ⟨after, by simpa [Coordinator.setCall, same] using foundAfter, phase⟩

omit [DecidableEq κ] [DecidableEq δ] in
theorem SameKey.trans (first : SameKey key st middle) (second : SameKey key middle next) :
    SameKey key st next where
  resolvers := second.resolvers.trans first.resolvers
  expected := second.expected.trans first.expected
  counts := second.counts.trans first.counts
  sets set counted := (second.sets set (first.counts ▸ counted)).trans (first.sets set counted)
  calls_le := Nat.le_trans first.calls_le second.calls_le
  stays id call set found ofKey phase := by
    obtain ⟨call', found', ofKey', device', phase'⟩ := first.stays id call set found ofKey phase
    obtain ⟨later, found'', ofKey'', device'', phase''⟩ :=
      second.stays id call' set found' ofKey' phase'
    exact ⟨later, found'', ofKey'', device''.trans device', phase''⟩
  origin id later found ofKey := by
    obtain ⟨call', found', ofKey', device', phase', passed'⟩ := second.origin id later found ofKey
    obtain ⟨call, found'', ofKey'', device'', phase'', passed''⟩ :=
      first.origin id call' found' ofKey'
    exact ⟨call, found'', ofKey'', device''.trans device',
      fun set parked => phase'' set (phase' set parked), fun passed => passed'' (passed' passed)⟩

omit [DecidableEq κ] [DecidableEq δ] in
theorem Settles.trans (first : Settles st middle) (second : Settles middle next) :
    Settles st next where
  counts key set counted := first.counts key set (second.counts key set counted)
  nextSet := second.nextSet.trans first.nextSet
  nextCall := second.nextCall.trans first.nextCall
  waiters key waiter member := first.waiters key waiter (second.waiters key waiter member)
  keys id := (second.keys id).trans (first.keys id)
  phases id later set found phase := by
    obtain ⟨call, found', phase'⟩ := second.phases id later set found phase
    exact first.phases id call set found' phase'

omit [DecidableEq κ] [DecidableEq δ] in
theorem Quiet.trans (first : Quiet key st middle) (second : Quiet key middle next) :
    Quiet key st next :=
  ⟨first.1.trans second.1, first.2.trans second.2⟩

omit [DecidableEq δ] in
theorem quiet_ensureLock (name : κ) : Quiet key st (st.ensureLock ops name) := by
  unfold Coordinator.ensureLock
  split
  · exact Quiet.refl key st
  · exact Quiet.of_eq rfl rfl rfl rfl rfl rfl rfl

omit [DecidableEq κ] [DecidableEq δ] in
theorem quiet_setMutex (id : Nat) (mutex : M) : Quiet key st (st.setMutex id mutex) :=
  Quiet.of_eq rfl rfl rfl rfl rfl rfl rfl

omit [DecidableEq δ] in
theorem quiet_scheduleCleanup (name : κ) (generation : Nat) :
    Quiet key st (st.scheduleCleanup name generation) :=
  Quiet.of_eq rfl rfl rfl rfl rfl rfl rfl

omit [DecidableEq δ] in
theorem quiet_clearCleanup (name : κ) : Quiet key st (st.clearCleanup name) :=
  Quiet.of_eq rfl rfl rfl rfl rfl rfl rfl

omit [DecidableEq δ] in
theorem settles_deleteKey (name : κ) : Settles st (st.deleteKey name) where
  counts key set counted := by
    by_cases same : key = name
    · simp [Coordinator.deleteKey, same] at counted
    · simpa [Coordinator.deleteKey, same] using counted
  nextSet := rfl
  nextCall := rfl
  waiters key waiter member := by
    by_cases same : key = name
    · simp [Coordinator.deleteKey, Coordinator.waiters, same] at member
    · simpa [Coordinator.deleteKey, Coordinator.waiters, same] using member
  keys _ := rfl
  phases _ later _ found phase := ⟨later, found, phase⟩

omit [DecidableEq δ] in
theorem Shape.cleanup (shape : Shape st) (name : κ) : Shape (st.cleanup name) := by
  unfold Coordinator.cleanup
  split
  · exact shape
  · split
    · have quiet : Quiet name st (st.clearCleanup name) := quiet_clearCleanup name
      exact shape.settles quiet.2
    · exact shape.settles (settles_deleteKey name)

omit [DecidableEq δ] in
theorem quiet_proceed (id : Nat) : Quiet key st (st.proceed ops id) := by
  unfold Coordinator.proceed
  split
  · exact Quiet.refl key st
  · rename_i call found
    split
    · rename_i lifted
      have free : ∀ set, call.phase ≠ .waiting set := by simp [lifted]
      have settles : Quiet key st (st.setCall id { call with phase := .settled }) :=
        Quiet.setCall found rfl rfl free (by simp) (by simp [Phase.passed])
      split
      · exact settles
      · split
        · exact settles.trans (quiet_scheduleCleanup _ _)
        · split
          · exact settles
          · rename_i mutex locked
            have found' : (st.setMutex mutex (ops.acquire (st.mutexes mutex) id)).calls id =
                some call := found
            exact (quiet_setMutex _ _).trans
              (Quiet.setCall found' rfl rfl free (by simp) (by simp [lifted, Phase.passed]))
    · exact Quiet.refl key st

omit [DecidableEq κ] [DecidableEq δ] in
theorem quiet_acquired (id : Nat) : Quiet key st (st.acquired ops id) := by
  unfold Coordinator.acquired
  split
  · exact Quiet.refl key st
  · rename_i call found
    split
    · rename_i mutex queued
      split
      · exact Quiet.setCall found rfl rfl (by simp [queued]) (by simp)
          (by simp [queued, Phase.passed])
      · exact Quiet.refl key st
    · rename_i mutex abandoned
      split
      · have found' : (st.setMutex mutex (ops.release (st.mutexes mutex) id)).calls id =
            some call := found
        exact (quiet_setMutex _ _).trans
          (Quiet.setCall found' rfl rfl (by simp [abandoned]) (by simp) (by simp [Phase.passed]))
      · exact Quiet.refl key st
    · exact Quiet.refl key st

omit [DecidableEq δ] in
theorem quiet_leave {mutex : Nat} (found : st.calls id = some call)
    (free : ∀ set, call.phase ≠ .waiting set) (passed : call.phase.passed = true) :
    Quiet key st (((st.setMutex mutex (ops.release (st.mutexes mutex) id)).setCall id
      { call with phase := .left mutex }).scheduleCleanup call.key call.generation) := by
  have found' : (st.setMutex mutex (ops.release (st.mutexes mutex) id)).calls id = some call := found
  have called : Quiet key (st.setMutex mutex (ops.release (st.mutexes mutex) id))
      ((st.setMutex mutex (ops.release (st.mutexes mutex) id)).setCall id
        { call with phase := .left mutex }) :=
    Quiet.setCall found' rfl rfl free (by simp) (fun _ => passed)
  exact ((quiet_setMutex _ _).trans called).trans (quiet_scheduleCleanup _ _)

omit [DecidableEq δ] in
theorem quiet_release (id : Nat) : Quiet key st (st.release ops id) := by
  unfold Coordinator.release
  split
  · exact Quiet.refl key st
  · rename_i call found
    split
    · rename_i inside
      exact quiet_leave found (by simp [inside]) (by simp [inside, Phase.passed])
    · rename_i left
      exact quiet_leave found (by simp [left]) (by simp [left, Phase.passed])
    · exact Quiet.refl key st

theorem quiet_abort (found : st.calls id = some call) (free : ∀ set, call.phase ≠ .waiting set) :
    Quiet key st (st.abort id).1 ∧ (st.abort id).2 = [] := by
  simp only [Coordinator.abort, found]
  split
  · rename_i set waits
    exact absurd waits (free set)
  · rename_i mutex queued
    exact ⟨Quiet.setCall found rfl rfl free (by simp) (by simp [queued, Phase.passed]), rfl⟩
  · exact ⟨Quiet.setCall found rfl rfl free free (fun passed => passed), rfl⟩

omit [DecidableEq δ] in
theorem sameKey_deleteKey {other : κ} (apart : other ≠ key) :
    SameKey key st (st.deleteKey other) where
  resolvers := by simp [Coordinator.deleteKey, Ne.symm apart]
  expected := by simp [Coordinator.deleteKey, Ne.symm apart]
  counts := by simp [Coordinator.deleteKey, Ne.symm apart]
  sets _ _ := rfl
  calls_le := Nat.le_refl _
  stays _ call _ found ofKey phase := ⟨call, found, ofKey, rfl, phase⟩
  origin _ later found ofKey := ⟨later, found, ofKey, rfl, fun _ phase => phase, fun phase => phase⟩

/-- The outcome of rejecting a parked call. -/
theorem reject_parked (st : Coordinator κ δ M) {set : Nat} (found : st.calls id = some call)
    (phase : call.phase = .waiting set) :
    (st.reject id).2 = [(call.key, .withdrawn ⟨id, call.deviceId⟩)] ∧
      (∀ key, (st.reject id).1.waiters key =
        if key = call.key then (st.waiters key).filter (fun waiter => waiter.call ≠ id)
        else st.waiters key) ∧
      (st.reject id).1.sets =
        Function.update st.sets set ((st.sets set).filter (· ≠ call.deviceId)) ∧
      (st.reject id).1.calls =
        Function.update st.calls id (some { call with phase := .settled }) := by
  simp only [Coordinator.reject, found, phase, Coordinator.setCall, Coordinator.setSet, true_and,
    and_true, Coordinator.waiters]
  intro key
  by_cases same : key = call.key
  · subst same
    cases st.barrierResolvers call.key <;> simp
  · simp [same]

theorem reject_fields (st : Coordinator κ δ M) (id : Nat) :
    (st.reject id).1.barrierCounts = st.barrierCounts ∧
      (st.reject id).1.expectedDeviceCounts = st.expectedDeviceCounts ∧
      (st.reject id).1.nextSet = st.nextSet ∧ (st.reject id).1.nextCall = st.nextCall := by
  unfold Coordinator.reject
  split
  · simp
  · split <;> simp [Coordinator.setCall, Coordinator.setSet]

theorem reject_idle (free : ∀ call set, st.calls id = some call →
    call.phase ≠ .waiting set) : st.reject id = (st, []) := by
  unfold Coordinator.reject
  split
  · rfl
  · rename_i call found
    split
    · rename_i set phase
      exact absurd phase (free call set found)
    · rfl

theorem settles_reject (id : Nat) : Settles st (st.reject id).1 := by
  by_cases parked : ∃ call set, st.calls id = some call ∧ call.phase = .waiting set
  · obtain ⟨call, set, found, phase⟩ := parked
    obtain ⟨-, waiters, -, calls⟩ := reject_parked st found phase
    obtain ⟨counts, -, nextSet, nextCall⟩ := reject_fields st id
    constructor
    case counts => rw [counts]; exact fun _ _ counted => counted
    case nextSet => exact nextSet
    case nextCall => exact nextCall
    case waiters =>
      intro key waiter member
      rw [waiters] at member
      split at member
      · exact List.mem_of_mem_filter member
      · exact member
    case keys =>
      intro other
      rw [calls]
      by_cases same : other = id
      · subst same; simp [found]
      · simp [same]
    case phases =>
      intro other later set' foundLater phase'
      rw [calls] at foundLater
      by_cases same : other = id
      · subst same
        obtain rfl : { call with phase := Phase.settled } = later := by simpa using foundLater
        simp at phase'
      · exact ⟨later, by simpa [same] using foundLater, phase'⟩
  · have free : ∀ call set, st.calls id = some call → call.phase ≠ .waiting set :=
      fun call set found phase => parked ⟨call, set, found, phase⟩
    rw [reject_idle free]
    exact Settles.refl st

/-- A record of another key leaves this key's record alone, its set included. -/
theorem sameKey_reject (shape : Shape st)
    (apart : ∀ call, st.calls id = some call → call.key ≠ key) :
    SameKey key st (st.reject id).1 := by
  by_cases parked : ∃ call set, st.calls id = some call ∧ call.phase = .waiting set
  · obtain ⟨call, set, found, phase⟩ := parked
    have other := apart call found
    obtain ⟨-, -, sets, calls⟩ := reject_parked st found phase
    obtain ⟨counts, expected, -, nextCall⟩ := reject_fields st id
    constructor
    case resolvers =>
      simp [Coordinator.reject, found, phase, Coordinator.setCall, Coordinator.setSet,
        Ne.symm other]
    case expected => rw [expected]
    case counts => rw [counts]
    case sets =>
      intro own counted
      have distinct : own ≠ set := by
        rintro rfl
        exact other (shape.captured_key id call own key found phase counted).symm
      simp [sets, distinct]
    case calls_le => exact Nat.le_of_eq nextCall.symm
    case stays =>
      intro later parkedCall own foundLater ofKey phase'
      have distinct : later ≠ id := by
        rintro rfl
        exact apart parkedCall foundLater ofKey
      exact ⟨parkedCall, by simpa [calls, distinct] using foundLater, ofKey, rfl, phase'⟩
    case origin =>
      intro later after foundAfter ofKey
      by_cases same : later = id
      · subst same
        obtain rfl : { call with phase := Phase.settled } = after := by
          simpa [calls] using foundAfter
        exact absurd ofKey other
      · exact ⟨after, by simpa [calls, same] using foundAfter, ofKey, rfl,
          fun _ phase' => phase', fun passed => passed⟩
  · have free : ∀ call set, st.calls id = some call → call.phase ≠ .waiting set :=
      fun call set found phase => parked ⟨call, set, found, phase⟩
    rw [reject_idle free]
    exact (Quiet.refl key st).1

end Frames

end AutoMobile.CriticalSection
