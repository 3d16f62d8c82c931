import AutoMobile.CoordinatorGenerations

namespace AutoMobile.CriticalSection

open Coordinator RendezvousHistory

variable {κ δ M : Type} [DecidableEq κ] [DecidableEq δ]

section Registration

variable {ops : MutexOps M} {count : Nat} {key : κ} {st : Coordinator κ δ M}
  {history : List (Note δ)}

omit [DecidableEq κ] [DecidableEq δ] in
theorem Shape.of_eq {next : Coordinator κ δ M} (shape : Shape st)
    (calls : next.calls = st.calls) (nextCall : next.nextCall = st.nextCall)
    (counts : next.barrierCounts = st.barrierCounts) (nextSet : next.nextSet = st.nextSet)
    (waiters : ∀ key, next.waiters key = st.waiters key) : Shape next where
  calls_fresh := by rw [calls, nextCall]; exact shape.calls_fresh
  counts_lt := by rw [counts, nextSet]; exact shape.counts_lt
  counts_inj := by rw [counts]; exact shape.counts_inj
  captured_lt := by rw [calls, nextSet]; exact shape.captured_lt
  captured_key := by rw [calls, counts]; exact shape.captured_key
  parked_key := by
    intro key
    rw [waiters, calls]
    exact shape.parked_key key

omit [DecidableEq δ] in
theorem ensureResolvers_waiters (name other : κ) :
    (st.ensureResolvers name).waiters other = st.waiters other := by
  unfold ensureResolvers
  split
  · rfl
  · rename_i missing
    by_cases same : other = name
    · subst same
      simp [waiters, missing]
    · simp [waiters, same]

omit [DecidableEq δ] in
theorem ensureResolvers_fields (st : Coordinator κ δ M) (name : κ) :
    (st.ensureResolvers name).calls = st.calls ∧ (st.ensureResolvers name).nextCall = st.nextCall ∧
      (st.ensureResolvers name).barrierCounts = st.barrierCounts ∧
      (st.ensureResolvers name).nextSet = st.nextSet ∧
      (st.ensureResolvers name).sets = st.sets ∧
      (st.ensureResolvers name).expectedDeviceCounts = st.expectedDeviceCounts ∧
      (st.ensureResolvers name).keyGenerations = st.keyGenerations ∧
      (st.ensureResolvers name).cleanupTimers = st.cleanupTimers := by
  unfold ensureResolvers
  split <;> exact ⟨rfl, rfl, rfl, rfl, rfl, rfl, rfl, rfl⟩

omit [DecidableEq δ] in
theorem Shape.registerExpectedDevices (shape : Shape st) (name : κ) (deviceCount : Nat) :
    Shape (st.registerExpectedDevices ops name deviceCount) := by
  unfold Coordinator.registerExpectedDevices
  split
  · exact shape
  · have expected : Shape (st.setExpected name deviceCount) :=
      shape.of_eq rfl rfl rfl rfl (fun _ => rfl)
    have quiet : Quiet name (st.setExpected name deviceCount)
        ((st.setExpected name deviceCount).ensureLock ops name) := quiet_ensureLock name
    have locked := expected.settles quiet.2
    have counted := locked.ensureCounts name
    obtain ⟨calls, nextCall, counts, nextSet, -⟩ := ensureResolvers_fields
      (((st.setExpected name deviceCount).ensureLock ops name).ensureCounts name) name
    exact counted.of_eq calls nextCall counts nextSet (ensureResolvers_waiters name)

omit [DecidableEq δ] in
/-- Registering the count once more, or for the first time. -/
theorem BarrierInv.setExpected (inv : BarrierInv count key st history) (positive : 0 < count) :
    BarrierInv count key (st.setExpected key count) history := by
  constructor
  case registered =>
    intro n registered
    obtain rfl : count = n := by simpa [Coordinator.setExpected] using registered
    refine ⟨rfl, ?_⟩
    cases found : st.expectedDeviceCounts key with
    | none => simpa [inv.unregistered found] using positive
    | some earlier => exact (inv.registered earlier found).2
  case unregistered => simp [Coordinator.setExpected]
  case valid => exact inv.valid
  case waiters => exact inv.waiters
  case counted => exact inv.counted
  case uncounted => exact inv.uncounted
  case parked => exact inv.parked
  case waits => exact inv.waits
  case passed => exact inv.passed
  case arrived_lt => exact inv.arrived_lt

omit [DecidableEq δ] in
theorem BarrierInv.registerExpectedDevices (inv : BarrierInv count key st history) :
    BarrierInv count key (st.registerExpectedDevices ops key count) history := by
  unfold Coordinator.registerExpectedDevices
  split
  · exact inv
  · rename_i positive
    have expected := inv.setExpected (by omega)
    have quiet : Quiet key (st.setExpected key count)
        ((st.setExpected key count).ensureLock ops key) := quiet_ensureLock key
    have counted := (expected.same quiet.1).ensureCounts.1
    obtain ⟨calls, nextCall, counts, -, sets, expectedCounts, -, -⟩ := ensureResolvers_fields
      (((st.setExpected key count).ensureLock ops key).ensureCounts key) key
    constructor
    case valid => exact counted.valid
    case waiters => exact (ensureResolvers_waiters key key).trans counted.waiters
    case registered =>
      simp only [clearCleanup, expectedCounts]
      exact counted.registered
    case unregistered =>
      simp only [clearCleanup, expectedCounts]
      exact counted.unregistered
    case counted =>
      simp only [clearCleanup, counts, sets]
      exact counted.counted
    case uncounted =>
      simp only [clearCleanup, counts]
      exact counted.uncounted
    case parked =>
      simp only [clearCleanup, calls, counts]
      exact counted.parked
    case waits =>
      simp only [clearCleanup, calls]
      exact counted.waits
    case passed =>
      simp only [clearCleanup, calls]
      exact counted.passed
    case arrived_lt =>
      simp only [clearCleanup, nextCall]
      exact counted.arrived_lt

omit [DecidableEq δ] in
theorem sameKey_ensureResolvers {other : κ} (apart : other ≠ key) :
    SameKey key st (st.ensureResolvers other) := by
  unfold ensureResolvers
  split
  · exact (Quiet.refl key st).1
  · exact { (Quiet.refl key st).1 with resolvers := by simp [Ne.symm apart] }

omit [DecidableEq δ] in
theorem sameKey_registerExpectedDevices {other : κ} (shape : Shape st) (apart : other ≠ key)
    (deviceCount : Nat) : SameKey key st (st.registerExpectedDevices ops other deviceCount) := by
  unfold Coordinator.registerExpectedDevices
  split
  · exact (Quiet.refl key st).1
  · have expectedShape : Shape (st.setExpected other deviceCount) :=
      shape.of_eq rfl rfl rfl rfl (fun _ => rfl)
    have expected : SameKey key st (st.setExpected other deviceCount) :=
      { (Quiet.refl key st).1 with expected := by simp [Coordinator.setExpected, Ne.symm apart] }
    have locked : Quiet key (st.setExpected other deviceCount)
        ((st.setExpected other deviceCount).ensureLock ops other) := quiet_ensureLock other
    have counted : SameKey key ((st.setExpected other deviceCount).ensureLock ops other)
        (((st.setExpected other deviceCount).ensureLock ops other).ensureCounts other) :=
      sameKey_ensureCounts (expectedShape.settles locked.2) apart
    exact (((expected.trans locked.1).trans counted).trans (sameKey_ensureResolvers apart)).trans
      (quiet_clearCleanup other).1

end Registration

/-- The running generation is newer than every call let through at the key and
than its pending cleanup. -/
structure Fresh (key : κ) (st : Coordinator κ δ M) : Prop where
  passed : ∀ id call, st.calls id = some call → call.key = key → call.phase.passed = true →
    call.generation < st.keyGenerations key
  pending : ∀ generation, st.cleanupTimers key = some generation →
    generation < st.keyGenerations key

/-- Generations only grow, and the one somebody waits in is fresh. -/
structure Aged (key : κ) (st : Coordinator κ δ M) : Prop where
  calls : ∀ id call, st.calls id = some call → call.key = key →
    call.generation ≤ st.keyGenerations key
  timers : ∀ generation, st.cleanupTimers key = some generation → generation ≤ st.keyGenerations key
  fresh : st.waiters key ≠ [] → Fresh key st

/-- At the key no generation starts, nobody joins, and a new timer is that of a
call let through. -/
structure Ages (key : κ) (st next : Coordinator κ δ M) : Prop where
  generations : next.keyGenerations key = st.keyGenerations key
  waiters : next.waiters key ≠ [] → st.waiters key ≠ []
  origin : ∀ id later, next.calls id = some later → later.key = key →
    ∃ call, st.calls id = some call ∧ call.key = key ∧ call.generation = later.generation ∧
      (later.phase.passed = true → call.phase.passed = true)
  timers : ∀ generation, next.cleanupTimers key = some generation →
    st.cleanupTimers key = some generation ∨ ∃ id call, st.calls id = some call ∧
      call.key = key ∧ call.generation = generation ∧ call.phase.passed = true

section Ageing

variable {ops : MutexOps M} {key : κ} {st : Coordinator κ δ M}

variable {next : Coordinator κ δ M} {set : Nat}

omit [DecidableEq κ] [DecidableEq δ] in
theorem Aged.ages (aged : Aged key st) (ages : Ages key st next) : Aged key next where
  calls id later found ofKey := by
    obtain ⟨call, found', ofKey', generation, -⟩ := ages.origin id later found ofKey
    rw [← generation, ages.generations]
    exact aged.calls id call found' ofKey'
  timers generation pending := by
    rw [ages.generations]
    rcases ages.timers generation pending with old | ⟨id, call, found, ofKey, rfl, -⟩
    · exact aged.timers generation old
    · exact aged.calls id call found ofKey
  fresh waits := by
    have fresh := aged.fresh (ages.waiters waits)
    constructor
    · intro id later found ofKey passed
      obtain ⟨call, found', ofKey', generation, before⟩ := ages.origin id later found ofKey
      rw [← generation, ages.generations]
      exact fresh.passed id call found' ofKey' (before passed)
    · intro generation pending
      rw [ages.generations]
      rcases ages.timers generation pending with old | ⟨id, call, found, ofKey, rfl, passed⟩
      · exact fresh.pending generation old
      · exact fresh.passed id call found ofKey passed

omit [DecidableEq κ] [DecidableEq δ] in
theorem Ages.of_eq (generations : next.keyGenerations key = st.keyGenerations key)
    (waiters : next.waiters key ≠ [] → st.waiters key ≠ []) (calls : next.calls = st.calls)
    (timers : ∀ generation, next.cleanupTimers key = some generation →
      st.cleanupTimers key = some generation) : Ages key st next where
  generations := generations
  waiters := waiters
  origin _ later found ofKey :=
    ⟨later, by rw [← calls]; exact found, ofKey, rfl, fun passed => passed⟩
  timers generation pending := Or.inl (timers generation pending)

omit [DecidableEq κ] [DecidableEq δ] in
theorem Ages.refl (key : κ) (st : Coordinator κ δ M) : Ages key st st :=
  Ages.of_eq rfl (fun waits => waits) rfl (fun _ pending => pending)

omit [DecidableEq κ] [DecidableEq δ] in
theorem Ages.trans {middle : Coordinator κ δ M} (first : Ages key st middle)
    (second : Ages key middle next) : Ages key st next where
  generations := second.generations.trans first.generations
  waiters waits := first.waiters (second.waiters waits)
  origin id later found ofKey := by
    obtain ⟨call', found', ofKey', generation', before'⟩ := second.origin id later found ofKey
    obtain ⟨call, found'', ofKey'', generation, before⟩ := first.origin id call' found' ofKey'
    exact ⟨call, found'', ofKey'', generation.trans generation',
      fun passed => before (before' passed)⟩
  timers generation pending := by
    rcases second.timers generation pending with old | ⟨id, call', found', ofKey', same', passed'⟩
    · exact first.timers generation old
    · obtain ⟨call, found, ofKey, same, before⟩ := first.origin id call' found' ofKey'
      exact Or.inr ⟨id, call, found, ofKey, same.trans same', before passed'⟩

omit [DecidableEq κ] [DecidableEq δ] in
theorem Ages.setCall {id : Nat} {call later : Call κ δ} (found : st.calls id = some call)
    (sameKey : call.key = later.key) (generation : call.generation = later.generation)
    (passed : later.phase.passed = true → call.phase.passed = true) :
    Ages key st (st.setCall id later) where
  generations := rfl
  waiters waits := waits
  origin other after foundAfter ofKey := by
    by_cases same : other = id
    · subst same
      obtain rfl : later = after := by simpa [Coordinator.setCall] using foundAfter
      exact ⟨call, found, sameKey.trans ofKey, generation, passed⟩
    · exact ⟨after, by simpa [Coordinator.setCall, same] using foundAfter, ofKey, rfl, fun h => h⟩
  timers _ pending := Or.inl pending

omit [DecidableEq κ] [DecidableEq δ] in
theorem ages_setMutex (id : Nat) (mutex : M) : Ages key st (st.setMutex id mutex) :=
  Ages.of_eq rfl (fun waits => waits) rfl (fun _ pending => pending)

omit [DecidableEq δ] in
/-- A cleanup is scheduled for the generation of a call that was let through. -/
theorem ages_leave {middle : Coordinator κ δ M} {id : Nat} {call : Call κ δ}
    (moved : Ages key st middle) (found : st.calls id = some call)
    (passed : call.phase.passed = true) :
    Ages key st (middle.scheduleCleanup call.key call.generation) where
  generations := moved.generations
  waiters := moved.waiters
  origin := moved.origin
  timers generation pending := by
    by_cases same : key = call.key
    · subst same
      obtain rfl : call.generation = generation := by
        simpa [scheduleCleanup] using pending
      exact Or.inr ⟨id, call, found, rfl, rfl, passed⟩
    · exact moved.timers generation
        (by simpa [scheduleCleanup, same] using pending)

omit [DecidableEq δ] in
theorem ages_ensureLock (name : κ) : Ages key st (st.ensureLock ops name) := by
  unfold ensureLock
  split
  · exact Ages.refl key st
  · exact Ages.of_eq rfl (fun waits => waits) rfl (fun _ pending => pending)

omit [DecidableEq δ] in
theorem ages_ensureCounts (name : κ) : Ages key st (st.ensureCounts name) := by
  obtain ⟨calls, -, resolvers, -, generations, timers⟩ := ensureCounts_fields st name
  refine Ages.of_eq (congrFun generations key) ?_ calls ?_
  · simp only [waiters, resolvers]
    exact fun waits => waits
  · rw [timers]
    exact fun _ pending => pending

omit [DecidableEq δ] in
theorem ages_clearCleanup (name : κ) : Ages key st (st.clearCleanup name) := by
  refine Ages.of_eq rfl (fun waits => waits) rfl ?_
  intro generation pending
  by_cases same : key = name
  · simp [clearCleanup, same] at pending
  · simpa [clearCleanup, same] using pending

omit [DecidableEq δ] in
theorem ages_registerExpectedDevices (name : κ) (deviceCount : Nat) :
    Ages key st (st.registerExpectedDevices ops name deviceCount) := by
  unfold Coordinator.registerExpectedDevices
  split
  · exact Ages.refl key st
  · have expected : Ages key st (st.setExpected name deviceCount) :=
      Ages.of_eq rfl (fun waits => waits) rfl (fun _ pending => pending)
    have locked : Ages key (st.setExpected name deviceCount)
        ((st.setExpected name deviceCount).ensureLock ops name) := ages_ensureLock name
    have counted := (expected.trans locked).trans (ages_ensureCounts name)
    obtain ⟨calls, -, -, -, -, -, generations, timers⟩ := ensureResolvers_fields
      (((st.setExpected name deviceCount).ensureLock ops name).ensureCounts name) name
    have resolved : Ages key (((st.setExpected name deviceCount).ensureLock ops name).ensureCounts
        name) ((((st.setExpected name deviceCount).ensureLock ops name).ensureCounts
          name).ensureResolvers name) := by
      refine Ages.of_eq (congrFun generations key) ?_ calls ?_
      · rw [ensureResolvers_waiters]
        exact fun waits => waits
      · rw [timers]
        exact fun _ pending => pending
    exact (counted.trans resolved).trans (ages_clearCleanup name)

omit [DecidableEq δ] in
theorem ages_proceed (id : Nat) : Ages key st (st.proceed ops id) := by
  unfold Coordinator.proceed
  split
  · exact Ages.refl key st
  · rename_i call found
    split
    · rename_i lifted
      have settles : Ages key st (st.setCall id { call with phase := .settled }) :=
        Ages.setCall found rfl rfl (by simp [Phase.passed])
      split
      · exact settles
      · split
        · exact ages_leave settles found (by simp [lifted, Phase.passed])
        · split
          · exact settles
          · rename_i mutex locked
            have found' : (st.setMutex mutex (ops.acquire (st.mutexes mutex) id)).calls id =
                some call := found
            exact (ages_setMutex _ _).trans
              (Ages.setCall found' rfl rfl (by simp [lifted, Phase.passed]))
    · exact Ages.refl key st

omit [DecidableEq κ] [DecidableEq δ] in
theorem ages_acquired (id : Nat) : Ages key st (st.acquired ops id) := by
  unfold Coordinator.acquired
  split
  · exact Ages.refl key st
  · rename_i call found
    split
    · rename_i mutex queued
      split
      · exact Ages.setCall found rfl rfl (by simp [queued, Phase.passed])
      · exact Ages.refl key st
    · rename_i mutex abandoned
      split
      · have found' : (st.setMutex mutex (ops.release (st.mutexes mutex) id)).calls id =
            some call := found
        exact (ages_setMutex _ _).trans (Ages.setCall found' rfl rfl (by simp [Phase.passed]))
      · exact Ages.refl key st
    · exact Ages.refl key st

omit [DecidableEq δ] in
theorem ages_release (id : Nat) : Ages key st (st.release ops id) := by
  unfold Coordinator.release
  split
  · exact Ages.refl key st
  · rename_i call found
    have leaves : ∀ mutex, call.phase.passed = true →
        Ages key st (((st.setMutex mutex (ops.release (st.mutexes mutex) id)).setCall id
          { call with phase := .left mutex }).scheduleCleanup call.key call.generation) := by
      intro mutex passed
      have found' : (st.setMutex mutex (ops.release (st.mutexes mutex) id)).calls id =
          some call := found
      exact ages_leave ((ages_setMutex _ _).trans
        (Ages.setCall found' rfl rfl (fun _ => passed))) found passed
    split
    · rename_i mutex inside
      exact leaves mutex (by simp [inside, Phase.passed])
    · rename_i mutex left
      exact leaves mutex (by simp [left, Phase.passed])
    · exact Ages.refl key st

theorem ages_reject (id : Nat) : Ages key st (st.reject id).1 := by
  by_cases parked : ∃ call set, st.calls id = some call ∧ call.phase = .waiting set
  · obtain ⟨call, set, found, phase⟩ := parked
    obtain ⟨-, waiters, -, calls⟩ := reject_parked st found phase
    have fields : (st.reject id).1.keyGenerations = st.keyGenerations ∧
        (st.reject id).1.cleanupTimers = st.cleanupTimers := by
      simp [Coordinator.reject, found, phase, Coordinator.setCall, setSet]
    constructor
    case generations => rw [fields.1]
    case waiters =>
      intro waits empty
      rw [waiters] at waits
      simp [empty] at waits
    case origin =>
      intro other later foundLater ofKey
      rw [calls] at foundLater
      by_cases same : other = id
      · subst same
        obtain rfl : { call with phase := Phase.settled } = later := by simpa using foundLater
        exact ⟨call, found, ofKey, rfl, by simp [Phase.passed]⟩
      · exact ⟨later, by simpa [same] using foundLater, ofKey, rfl, fun h => h⟩
    case timers =>
      rw [fields.2]
      exact fun _ pending => Or.inl pending
  · rw [reject_idle (fun call set found phase => parked ⟨call, set, found, phase⟩)]
    exact Ages.refl key st

theorem ages_abort (id : Nat) : Ages key st (st.abort id).1 := by
  unfold Coordinator.abort
  split
  · exact Ages.refl key st
  · rename_i call found
    split
    · exact ages_reject id
    · rename_i mutex queued
      exact Ages.setCall found rfl rfl (by simp [queued, Phase.passed])
    · exact Ages.setCall found rfl rfl (fun h => h)

omit [DecidableEq δ] in
theorem ages_deleteKey (name : κ) : Ages key st (st.deleteKey name) := by
  refine Ages.of_eq rfl ?_ rfl ?_
  · intro waits
    by_cases same : key = name
    · simp [deleteKey, waiters, same] at waits
    · simpa [deleteKey, waiters, same] using waits
  · intro generation pending
    by_cases same : key = name
    · simp [deleteKey, same] at pending
    · simpa [deleteKey, same] using pending

omit [DecidableEq δ] in
theorem ages_cleanup (name : κ) : Ages key st (st.cleanup name) := by
  unfold Coordinator.cleanup
  split
  · exact Ages.refl key st
  · split
    · exact ages_clearCleanup name
    · exact ages_deleteKey name

theorem ages_rejectAll (members : List (Waiter δ)) (st : Coordinator κ δ M) :
    Ages key st (rejectAll members st).1 := by
  induction members generalizing st with
  | nil => exact Ages.refl key st
  | cons waiter rest ih => exact (ages_reject waiter.call).trans (ih _)

theorem ages_forceCleanup (name : κ) : Ages key st (st.forceCleanup name).1 :=
  (ages_rejectAll (st.waiters name) st).trans (ages_deleteKey name)

omit [DecidableEq δ] in
/-- What an arrival does to the generation counters and the timers. -/
theorem arrive_generation {name : κ} (counted : st.barrierCounts name = some set) (deviceId : δ)
    (kind : Kind) :
    (st.arrive name deviceId kind).cleanupTimers = st.cleanupTimers ∧
      (st.arrive name deviceId kind).keyGenerations =
        (if st.arrivedDevices name = [] then st.bumpGeneration name else st).keyGenerations ∧
      (st.arrive name deviceId kind).calls = Function.update st.calls st.nextCall
        (some ⟨name, deviceId, kind, (st.arrive name deviceId kind).keyGenerations name, false,
          .waiting set⟩) := by
  simp only [Coordinator.arrive, Coordinator.setCall, setSet, counted, Option.getD_some]
  split <;> simp [bumpGeneration]

omit [DecidableEq δ] in
/-- The first arrival of a generation starts a fresh one, the others join it. -/
theorem Aged.arrive (aged : Aged key st) (counted : st.barrierCounts key = some set)
    (crowd : st.arrivedDevices key ≠ [] → st.waiters key ≠ []) (deviceId : δ) (kind : Kind) :
    Aged key (st.arrive key deviceId kind) ∧ Fresh key (st.arrive key deviceId kind) := by
  obtain ⟨timers, generations, calls⟩ := arrive_generation counted deviceId kind
  have grown : st.keyGenerations key ≤ (st.arrive key deviceId kind).keyGenerations key := by
    rw [generations]
    split
    · simp [bumpGeneration]
    · exact Nat.le_refl _
  have fresh : Fresh key (st.arrive key deviceId kind) := by
    constructor
    · intro id call found ofKey passed
      rw [calls] at found
      by_cases same : id = st.nextCall
      · subst same
        rw [Function.update_self] at found
        cases found
        simp [Phase.passed] at passed
      · have found : st.calls id = some call := by simpa [same] using found
        rw [generations]
        split
        · have := aged.calls id call found ofKey
          simp only [bumpGeneration, Function.update_self]
          omega
        · rename_i crowded
          exact (aged.fresh (crowd crowded)).passed id call found ofKey passed
    · intro generation pending
      rw [timers] at pending
      rw [generations]
      split
      · have := aged.timers generation pending
        simp only [bumpGeneration, Function.update_self]
        omega
      · rename_i crowded
        exact (aged.fresh (crowd crowded)).pending generation pending
  refine ⟨⟨?_, ?_, fun _ => fresh⟩, fresh⟩
  · intro id call found ofKey
    rw [calls] at found
    by_cases same : id = st.nextCall
    · subst same
      rw [Function.update_self] at found
      cases found
      exact Nat.le_refl _
    · exact Nat.le_trans (aged.calls id call (by simpa [same] using found) ofKey) grown
  · intro generation pending
    rw [timers] at pending
    exact Nat.le_trans (aged.timers generation pending) grown

omit [DecidableEq δ] in
theorem Aged.lift (aged : Aged key st) (members : List (Waiter δ)) :
    Aged key (st.lift key members) where
  calls id call found ofKey := by
    rw [lift_calls] at found
    split at found
    · obtain ⟨before, found', rfl⟩ := Option.map_eq_some_iff.mp found
      exact aged.calls id before found' ofKey
    · exact aged.calls id call found ofKey
  timers := aged.timers
  fresh waits := by
    simp [Coordinator.lift, liftAll, setSet, waiters] at waits

theorem Aged.waitAtBarrier (aged : Aged key st) {count : Nat} {history : List (Note δ)}
    (inv : BarrierInv count key st history) (deviceId : δ) (kind : Kind) :
    Aged key (st.waitAtBarrier key deviceId kind).1 := by
  obtain ⟨counted, set, hasSet⟩ := inv.ensureCounts
  have crowd : (st.ensureCounts key).arrivedDevices key ≠ [] →
      (st.ensureCounts key).waiters key ≠ [] := by
    simp [arrivedDevices, hasSet, counted.counted set hasSet, counted.waiters]
  have aged' := aged.ages (ages_ensureCounts key)
  obtain ⟨arrived, fresh⟩ := aged'.arrive hasSet crowd deviceId kind
  rcases waitAtBarrier_cases st key deviceId kind with ⟨outcome, -⟩ | ⟨_, -, cases⟩
  · rw [outcome]
    exact aged
  · rcases cases with ⟨-, outcome⟩ | ⟨-, ⟨-, outcome⟩ | ⟨-, outcome⟩⟩ <;> rw [outcome]
    · exact aged'
    · exact arrived.lift _
    · exact ⟨arrived.calls, arrived.timers, fun _ => ⟨fresh.passed, fresh.pending⟩⟩

omit [DecidableEq δ] in
/-- An arrival at another key. -/
theorem ages_arrive {other : κ} (apart : other ≠ key) (counted : st.barrierCounts other = some set)
    (deviceId : δ) (kind : Kind) :
    Ages key st (st.arrive other deviceId kind) := by
  obtain ⟨timers, generations, calls⟩ := arrive_generation counted deviceId kind
  obtain ⟨-, -, -, -, resolvers, -⟩ := arrive_fields counted deviceId kind
  constructor
  case generations =>
    rw [generations]
    split
    · simp [bumpGeneration, Ne.symm apart]
    · rfl
  case waiters =>
    simp only [waiters, resolvers]
    exact fun waits => waits
  case origin =>
    intro id later found ofKey
    rw [calls] at found
    by_cases same : id = st.nextCall
    · subst same
      rw [Function.update_self] at found
      cases found
      exact absurd ofKey apart
    · exact ⟨later, by simpa [same] using found, ofKey, rfl, fun h => h⟩
  case timers =>
    rw [timers]
    exact fun _ pending => Or.inl pending

theorem ages_waitAtBarrier {other : κ} (shape : Shape st) (apart : other ≠ key) (deviceId : δ)
    (kind : Kind) : Ages key st (st.waitAtBarrier other deviceId kind).1 := by
  obtain ⟨set, hasSet⟩ := ensureCounts_counted st other
  have shape' := (shape.ensureCounts other).arrive hasSet deviceId kind
  have arrived : Ages key st ((st.ensureCounts other).arrive other deviceId kind) :=
    (ages_ensureCounts other).trans (ages_arrive apart hasSet deviceId kind)
  obtain ⟨-, -, calls⟩ := arrive_generation hasSet deviceId kind
  rcases waitAtBarrier_cases st other deviceId kind with ⟨outcome, -⟩ | ⟨_, -, cases⟩
  · rw [outcome]
    exact Ages.refl key st
  · rcases cases with ⟨-, outcome⟩ | ⟨-, ⟨-, outcome⟩ | ⟨-, outcome⟩⟩ <;> rw [outcome]
    · exact ages_ensureCounts other
    · refine arrived.trans ⟨rfl, ?_, ?_, fun _ pending => Or.inl pending⟩
      · simp [Coordinator.lift, liftAll, setSet, waiters,
          Ne.symm apart]
      · intro id later found ofKey
        rw [lift_calls] at found
        split at found
        · -- every member belongs to the other key
          rename_i inside
          obtain ⟨before, found', rfl⟩ := Option.map_eq_some_iff.mp found
          obtain ⟨waiter, member, rfl⟩ := List.mem_map.mp inside
          rcases List.mem_append.mp member with member | member
          · obtain ⟨call, found'', ofOther⟩ := shape'.parked_key other waiter member
            obtain rfl : before = call := Option.some.inj (found'.symm.trans found'')
            exact absurd (ofOther.symm.trans ofKey) apart
          · obtain rfl := List.mem_singleton.mp member
            rw [calls, Function.update_self] at found'
            cases found'
            exact absurd ofKey apart
        · exact ⟨later, found, ofKey, rfl, fun h => h⟩
    · refine arrived.trans (Ages.of_eq rfl ?_ rfl (fun _ pending => pending))
      simp [Coordinator.park, Coordinator.waiters, Ne.symm apart]

end Ageing

end AutoMobile.CriticalSection
