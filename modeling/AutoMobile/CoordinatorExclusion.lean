import AutoMobile.CoordinatorRendezvous

/- Exclusion inside a critical section. The mutex of a key serialises its calls
for as long as no cleanup drops it under a call that queues for it or holds it. -/
namespace AutoMobile.CriticalSection

open Coordinator RendezvousHistory

variable {κ δ M : Type} [DecidableEq κ] [DecidableEq δ]

/-- The call waits for this mutex or holds it. -/
def Phase.uses (phase : Phase) (mutex : Nat) : Prop := phase = .queued mutex ∨ phase = .inside mutex

/-- At most one call of the key is inside its critical section. -/
def Serial (key : κ) (st : Coordinator κ δ M) : Prop :=
  ∀ first second one two mine yours, st.calls first = some one → one.key = key →
    one.phase = .inside mine → st.calls second = some two → two.key = key →
    two.phase = .inside yours → first = second

/-- A cleanup of the key that takes effect finds no call queued or inside. -/
def Spares (key : κ) (st : Coordinator κ δ M) (event : Event κ δ) : Prop :=
  event = .cleanup key → st.cleanupTimers key = some (st.keyGenerations key) →
    ∀ id call mutex, st.calls id = some call → call.key = key → ¬ call.phase.uses mutex

/-- The calls of the key use its mutex, and one that is inside holds it. -/
structure Guarded (ops : MutexOps M) (key : κ) (st : Coordinator κ δ M) : Prop where
  allotted : ∀ mutex, st.locks key = some mutex → mutex < st.nextMutex
  uses : ∀ id call mutex, st.calls id = some call → call.key = key → call.phase.uses mutex →
    st.locks key = some mutex
  holds : ∀ id call mutex, st.calls id = some call → call.key = key →
    call.phase = .inside mutex → ops.holder (st.mutexes mutex) = some id

omit [DecidableEq κ] [DecidableEq δ] in
/-- One mutex, one holder, one call inside. -/
theorem Guarded.serial {ops : MutexOps M} {key : κ} {st : Coordinator κ δ M}
    (guarded : Guarded ops key st) : Serial key st := by
  intro first second one two mine yours found ofKey phase found' ofKey' phase'
  have mineLock := guarded.uses first one mine found ofKey (Or.inr phase)
  have yoursLock := guarded.uses second two yours found' ofKey' (Or.inr phase')
  obtain rfl : mine = yours := Option.some.inj (mineLock.symm.trans yoursLock)
  exact Option.some.inj ((guarded.holds first one mine found ofKey phase).symm.trans
    (guarded.holds second two mine found' ofKey' phase'))

/-- No call of the key starts to use a mutex, and every holder keeps its mutex. -/
structure Rests (ops : MutexOps M) (key : κ) (st next : Coordinator κ δ M) : Prop where
  locks : ∀ mutex, st.locks key = some mutex → next.locks key = some mutex
  allotted : ∀ mutex, next.locks key = some mutex → st.locks key = some mutex ∨
    mutex < next.nextMutex
  nextMutex : st.nextMutex ≤ next.nextMutex
  holders : ∀ mutex id, mutex < st.nextMutex → ops.holder (st.mutexes mutex) = some id →
    ops.holder (next.mutexes mutex) = some id
  origin : ∀ id later mutex, next.calls id = some later → later.key = key →
    later.phase.uses mutex → ∃ call, st.calls id = some call ∧ call.key = key ∧
      call.phase = later.phase

section Frames

variable {ops : MutexOps M} {key : κ} {st : Coordinator κ δ M}

variable {next : Coordinator κ δ M}

omit [DecidableEq κ] [DecidableEq δ] in
theorem Guarded.rests (guarded : Guarded ops key st) (rests : Rests ops key st next) :
    Guarded ops key next where
  allotted mutex locked := by
    rcases rests.allotted mutex locked with old | new
    · exact Nat.lt_of_lt_of_le (guarded.allotted mutex old) rests.nextMutex
    · exact new
  uses id later mutex found ofKey phase := by
    obtain ⟨call, found', ofKey', same⟩ := rests.origin id later mutex found ofKey phase
    exact rests.locks mutex (guarded.uses id call mutex found' ofKey' (same ▸ phase))
  holds id later mutex found ofKey phase := by
    obtain ⟨call, found', ofKey', same⟩ := rests.origin id later mutex found ofKey (Or.inr phase)
    have inside : call.phase = .inside mutex := same.trans phase
    have locked := guarded.uses id call mutex found' ofKey' (Or.inr inside)
    exact rests.holders mutex id (guarded.allotted mutex locked)
      (guarded.holds id call mutex found' ofKey' inside)

omit [DecidableEq κ] [DecidableEq δ] in
theorem Rests.trans {middle : Coordinator κ δ M} (first : Rests ops key st middle)
    (second : Rests ops key middle next) : Rests ops key st next where
  locks mutex locked := second.locks mutex (first.locks mutex locked)
  allotted mutex locked := by
    rcases second.allotted mutex locked with old | new
    · rcases first.allotted mutex old with older | bound
      · exact Or.inl older
      · exact Or.inr (Nat.lt_of_lt_of_le bound second.nextMutex)
    · exact Or.inr new
  nextMutex := Nat.le_trans first.nextMutex second.nextMutex
  holders mutex id bound held :=
    second.holders mutex id (Nat.lt_of_lt_of_le bound first.nextMutex)
      (first.holders mutex id bound held)
  origin id later mutex found ofKey phase := by
    obtain ⟨call', found', ofKey', same'⟩ := second.origin id later mutex found ofKey phase
    obtain ⟨call, found'', ofKey'', same⟩ :=
      first.origin id call' mutex found' ofKey' (same' ▸ phase)
    exact ⟨call, found'', ofKey'', same.trans same'⟩

omit [DecidableEq κ] [DecidableEq δ] in
/-- A step that touches no lock and no mutex. -/
theorem Rests.of_calls (locks : next.locks key = st.locks key) (mutexes : next.mutexes = st.mutexes)
    (nextMutex : next.nextMutex = st.nextMutex)
    (origin : ∀ id later mutex, next.calls id = some later → later.key = key →
      later.phase.uses mutex → ∃ call, st.calls id = some call ∧ call.key = key ∧
        call.phase = later.phase) : Rests ops key st next where
  locks := by rw [locks]; exact fun _ locked => locked
  allotted := by rw [locks]; exact fun _ locked => Or.inl locked
  nextMutex := Nat.le_of_eq nextMutex.symm
  holders := by rw [mutexes]; exact fun _ _ _ held => held
  origin := origin

omit [DecidableEq κ] [DecidableEq δ] in
theorem Rests.of_eq (locks : next.locks key = st.locks key) (mutexes : next.mutexes = st.mutexes)
    (nextMutex : next.nextMutex = st.nextMutex) (calls : next.calls = st.calls) :
    Rests ops key st next :=
  Rests.of_calls locks mutexes nextMutex (by
    rw [calls]
    exact fun _ later _ found ofKey _ => ⟨later, found, ofKey, rfl⟩)

omit [DecidableEq κ] [DecidableEq δ] in
theorem Rests.refl (ops : MutexOps M) (key : κ) (st : Coordinator κ δ M) : Rests ops key st st :=
  Rests.of_eq rfl rfl rfl rfl

omit [DecidableEq κ] [DecidableEq δ] in
/-- A call that uses no mutex afterwards. -/
theorem rests_setCall {id : Nat} {later : Call κ δ} (free : ∀ mutex, ¬ later.phase.uses mutex) :
    Rests ops key st (st.setCall id later) := by
  refine Rests.of_calls rfl rfl rfl ?_
  intro other after mutex found ofKey phase
  by_cases same : other = id
  · subst same
    obtain rfl : later = after := by simpa [setCall] using found
    exact absurd phase (free mutex)
  · exact ⟨after, by simpa [setCall, same] using found, ofKey, rfl⟩

omit [DecidableEq δ] in
theorem rests_ensureLock (name : κ) : Rests ops key st (st.ensureLock ops name) := by
  unfold ensureLock
  split
  · exact Rests.refl ops key st
  · rename_i missing
    constructor
    case locks =>
      intro mutex locked
      have apart : key ≠ name := by
        rintro rfl
        rw [missing] at locked
        cases locked
      simpa [apart] using locked
    case allotted =>
      intro mutex locked
      by_cases same : key = name
      · subst same
        obtain rfl : st.nextMutex = mutex := by simpa using locked
        exact Or.inr (Nat.lt_succ_self _)
      · exact Or.inl (by simpa [same] using locked)
    case nextMutex => exact Nat.le_succ _
    case holders =>
      intro mutex id bound held
      simpa [Nat.ne_of_lt bound] using held
    case origin => exact fun _ later _ found ofKey _ => ⟨later, found, ofKey, rfl⟩

omit [DecidableEq δ] in
theorem rests_ensureCounts (name : κ) : Rests ops key st (st.ensureCounts name) := by
  unfold ensureCounts
  split <;> exact Rests.of_eq rfl rfl rfl rfl

omit [DecidableEq δ] in
theorem rests_ensureResolvers (name : κ) : Rests ops key st (st.ensureResolvers name) := by
  unfold ensureResolvers
  split <;> exact Rests.of_eq rfl rfl rfl rfl

omit [DecidableEq δ] in
theorem rests_registerExpectedDevices (name : κ) (deviceCount : Nat) :
    Rests ops key st (st.registerExpectedDevices ops name deviceCount) := by
  unfold Coordinator.registerExpectedDevices
  split
  · exact Rests.refl ops key st
  · have expected : Rests ops key st (st.setExpected name deviceCount) :=
      Rests.of_eq rfl rfl rfl rfl
    exact (((expected.trans (rests_ensureLock name)).trans (rests_ensureCounts name)).trans
      (rests_ensureResolvers name)).trans (Rests.of_eq rfl rfl rfl rfl)

omit [DecidableEq δ] in
/-- A new call waits, so it uses no mutex. -/
theorem rests_arrive {name : κ} {set : Nat} (counted : st.barrierCounts name = some set)
    (deviceId : δ) (kind : Kind) : Rests ops key st (st.arrive name deviceId kind) := by
  obtain ⟨⟨generation, calls⟩, -⟩ := arrive_fields counted deviceId kind
  have fields : (st.arrive name deviceId kind).locks = st.locks ∧
      (st.arrive name deviceId kind).mutexes = st.mutexes ∧
      (st.arrive name deviceId kind).nextMutex = st.nextMutex := by
    unfold Coordinator.arrive
    dsimp only
    split <;> exact ⟨rfl, rfl, rfl⟩
  refine Rests.of_calls (congrFun fields.1 key) fields.2.1 fields.2.2 ?_
  intro id later mutex found ofKey phase
  rw [calls] at found
  by_cases same : id = st.nextCall
  · subst same
    rw [Function.update_self] at found
    cases found
    rcases phase with phase | phase <;> cases phase
  · exact ⟨later, by simpa [same] using found, ofKey, rfl⟩

theorem rests_waitAtBarrier (name : κ) (deviceId : δ) (kind : Kind) :
    Rests ops key st (st.waitAtBarrier name deviceId kind).1 := by
  obtain ⟨set, hasSet⟩ := ensureCounts_counted st name
  have counted : Rests ops key st (st.ensureCounts name) := rests_ensureCounts name
  have arrives := counted.trans (rests_arrive hasSet deviceId kind)
  rcases waitAtBarrier_cases st name deviceId kind with ⟨outcome, -⟩ | ⟨_, -, cases⟩
  · rw [outcome]
    exact Rests.refl ops key st
  · rcases cases with ⟨-, outcome⟩ | ⟨-, ⟨-, outcome⟩ | ⟨-, outcome⟩⟩ <;> rw [outcome]
    · exact counted
    · refine arrives.trans (Rests.of_calls rfl rfl rfl ?_)
      intro id later mutex found ofKey phase
      rw [lift_calls] at found
      split at found
      · obtain ⟨before, -, rfl⟩ := Option.map_eq_some_iff.mp found
        rcases phase with phase | phase <;> cases phase
      · exact ⟨later, found, ofKey, rfl⟩
    · exact arrives.trans (Rests.of_eq rfl rfl rfl rfl)

theorem rests_reject (id : Nat) : Rests ops key st (st.reject id).1 := by
  by_cases parked : ∃ call set, st.calls id = some call ∧ call.phase = .waiting set
  · obtain ⟨call, set, found, phase⟩ := parked
    have moved : Rests ops key st (st.setCall id { call with phase := .settled }) :=
      rests_setCall (by simp [Phase.uses])
    simp only [Coordinator.reject, found, phase]
    exact moved.trans (Rests.of_eq rfl rfl rfl rfl)
  · rw [reject_idle (fun call set found phase => parked ⟨call, set, found, phase⟩)]
    exact Rests.refl ops key st

theorem rests_abort (id : Nat) : Rests ops key st (st.abort id).1 := by
  unfold Coordinator.abort
  split
  · exact Rests.refl ops key st
  · rename_i call found
    split
    · exact rests_reject id
    · exact rests_setCall (by simp [Phase.uses])
    · refine Rests.of_calls rfl rfl rfl ?_
      intro other after mutex foundAfter ofKey phase
      by_cases same : other = id
      · subst same
        obtain rfl : { call with aborted := true } = after := by
          simpa [setCall] using foundAfter
        exact ⟨call, found, ofKey, rfl⟩
      · exact ⟨after, by simpa [setCall, same] using foundAfter, ofKey, rfl⟩

omit [DecidableEq δ] in
theorem rests_deleteKey {name : κ} (apart : name ≠ key) : Rests ops key st (st.deleteKey name) :=
  Rests.of_eq (by simp [deleteKey, Ne.symm apart]) rfl rfl rfl

theorem rests_rejectAll (members : List (Waiter δ)) (st : Coordinator κ δ M) :
    Rests ops key st (rejectAll members st).1 := by
  induction members generalizing st with
  | nil => exact Rests.refl ops key st
  | cons waiter rest ih => exact (rests_reject waiter.call).trans (ih _)

omit [DecidableEq κ] [DecidableEq δ] in
/-- Acquiring leaves every holder in place. -/
theorem rests_acquire (exclusive : ops.Exclusive) (mutex ticket : Nat) :
    Rests ops key st (st.setMutex mutex (ops.acquire (st.mutexes mutex) ticket)) where
  locks _ locked := locked
  allotted _ locked := Or.inl locked
  nextMutex := Nat.le_refl _
  holders other id _ held := by
    by_cases same : other = mutex
    · subst same
      simpa [setMutex] using exclusive.acquire_held _ ticket id held
    · simpa [setMutex, same] using held
  origin _ later _ found ofKey _ := ⟨later, found, ofKey, rfl⟩

omit [DecidableEq κ] [DecidableEq δ] in
/-- A release by a call that is not inside takes no mutex from a call that is. -/
theorem Guarded.release (guarded : Guarded ops key st) (exclusive : ops.Exclusive)
    {id mutex : Nat} {later : Call κ δ} (free : ∀ own, ¬ later.phase.uses own) :
    Guarded ops key ((st.setMutex mutex (ops.release (st.mutexes mutex) id)).setCall id later) := by
  have origin : ∀ other after own, ((st.setMutex mutex
      (ops.release (st.mutexes mutex) id)).setCall id later).calls other = some after →
      after.phase.uses own → other ≠ id ∧ st.calls other = some after := by
    intro other after own found phase
    by_cases same : other = id
    · subst same
      obtain rfl : later = after := by simpa [setCall] using found
      exact absurd phase (free own)
    · exact ⟨same, by simpa [setCall, setMutex, same] using found⟩
  constructor
  case allotted => exact guarded.allotted
  case uses =>
    intro other after own found ofKey phase
    exact guarded.uses other after own (origin other after own found phase).2 ofKey phase
  case holds =>
    intro other after own found ofKey phase
    obtain ⟨apart, found'⟩ := origin other after own found (Or.inr phase)
    have held := guarded.holds other after own found' ofKey phase
    by_cases same : own = mutex
    · subst same
      simpa [setCall, setMutex] using
        exclusive.release_other _ id other held apart
    · simpa [setCall, setMutex, same] using held

omit [DecidableEq δ] in
theorem Guarded.proceed (guarded : Guarded ops key st) (exclusive : ops.Exclusive) (id : Nat) :
    Guarded ops key (st.proceed ops id) := by
  unfold Coordinator.proceed
  split
  · exact guarded
  · rename_i call found
    have settles : Rests ops key st (st.setCall id { call with phase := .settled }) :=
      rests_setCall (by simp [Phase.uses])
    split
    · split
      · exact guarded.rests settles
      · split
        · exact guarded.rests (settles.trans (Rests.of_eq rfl rfl rfl rfl))
        · split
          · exact guarded.rests settles
          · -- the call queues for the mutex its key has now
            rename_i mutex locked
            have acquires := guarded.rests (rests_acquire exclusive mutex id)
            have origin : ∀ other after own,
                ((st.setMutex mutex (ops.acquire (st.mutexes mutex) id)).setCall id
                  { call with phase := .queued mutex }).calls other = some after →
                after.key = key → after.phase.uses own → other = id ∧ after.phase = .queued mutex ∧
                  call.key = key ∨ st.calls other = some after := by
              intro other after own foundAfter ofKey _
              by_cases same : other = id
              · subst same
                obtain rfl : { call with phase := Phase.queued mutex } = after := by
                  simpa [Coordinator.setCall] using foundAfter
                exact Or.inl ⟨rfl, rfl, ofKey⟩
              · exact Or.inr (by
                  simpa [Coordinator.setCall, Coordinator.setMutex, same] using foundAfter)
            constructor
            case allotted => exact guarded.allotted
            case uses =>
              intro other after own foundAfter ofKey phase
              rcases origin other after own foundAfter ofKey phase with ⟨-, queued, rfl⟩ | old
              · rw [queued] at phase
                obtain rfl : mutex = own := by simpa [Phase.uses] using phase
                exact locked
              · exact guarded.uses other after own old ofKey phase
            case holds =>
              intro other after own foundAfter ofKey phase
              rcases origin other after own foundAfter ofKey (Or.inr phase) with
                ⟨-, queued, -⟩ | old
              · rw [queued] at phase
                cases phase
              · exact acquires.holds other after own old ofKey phase
    · exact guarded

omit [DecidableEq κ] [DecidableEq δ] in
theorem Guarded.acquired (guarded : Guarded ops key st) (exclusive : ops.Exclusive) (id : Nat) :
    Guarded ops key (st.acquired ops id) := by
  unfold Coordinator.acquired
  split
  · exact guarded
  · rename_i call found
    split
    · rename_i mutex queued
      split
      · rename_i granted
        have origin : ∀ other after own, (st.setCall id
            { call with phase := .inside mutex }).calls other = some after →
            after.phase.uses own → (other = id ∧ after.key = call.key ∧ own = mutex) ∨
              st.calls other = some after := by
          intro other after own foundAfter phase
          by_cases same : other = id
          · subst same
            obtain rfl : { call with phase := Phase.inside mutex } = after := by
              simpa [Coordinator.setCall] using foundAfter
            obtain rfl : mutex = own := by simpa [Phase.uses] using phase
            exact Or.inl ⟨rfl, rfl, rfl⟩
          · exact Or.inr (by simpa [Coordinator.setCall, same] using foundAfter)
        constructor
        case allotted => exact guarded.allotted
        case uses =>
          intro other after own foundAfter ofKey phase
          rcases origin other after own foundAfter phase with ⟨rfl, sameKey, rfl⟩ | old
          · exact guarded.uses other call own found (sameKey ▸ ofKey) (Or.inl queued)
          · exact guarded.uses other after own old ofKey phase
        case holds =>
          intro other after own foundAfter ofKey phase
          rcases origin other after own foundAfter (Or.inr phase) with ⟨rfl, -, rfl⟩ | old
          · exact granted
          · exact guarded.holds other after own old ofKey phase
      · exact guarded
    · split
      · exact guarded.release exclusive (by simp [Phase.uses])
      · exact guarded
    · exact guarded

omit [DecidableEq δ] in
theorem Guarded.leave (guarded : Guarded ops key st) (exclusive : ops.Exclusive) (id : Nat) :
    Guarded ops key (st.release ops id) := by
  unfold Coordinator.release
  split
  · exact guarded
  · split
    · exact (guarded.release exclusive (by simp [Phase.uses])).rests (Rests.of_eq rfl rfl rfl rfl)
    · exact (guarded.release exclusive (by simp [Phase.uses])).rests (Rests.of_eq rfl rfl rfl rfl)
    · exact guarded

omit [DecidableEq δ] in
/-- Dropping the mutex of a key that no call uses. -/
theorem Guarded.cleanup (guarded : Guarded ops key st) (name : κ)
    (spares : Spares key st (.cleanup name)) : Guarded ops key (st.cleanup name) := by
  unfold Coordinator.cleanup
  split
  · exact guarded
  · rename_i generation pending
    split
    · exact guarded.rests (Rests.of_eq rfl rfl rfl rfl)
    · rename_i current
      by_cases same : name = key
      · subst same
        obtain rfl : st.keyGenerations name = generation := by omega
        have free := spares rfl pending
        exact {
          allotted := by simp [Coordinator.deleteKey]
          uses := fun id call mutex found ofKey phase =>
            absurd phase (free id call mutex found ofKey)
          holds := guarded.holds }
      · exact guarded.rests (rests_deleteKey same)

theorem Guarded.step (guarded : Guarded ops key st) (exclusive : ops.Exclusive)
    (event : Event κ δ) (spares : Spares key st event) (kept : event ≠ .forceCleanup key) :
    Guarded ops key (st.step ops event).1 := by
  cases event with
  | registerExpectedDevices name deviceCount =>
    exact guarded.rests (rests_registerExpectedDevices name deviceCount)
  | enterCriticalSection name deviceId aborted =>
    simp only [Coordinator.step]
    split
    · exact guarded
    · exact guarded.rests ((rests_ensureLock name).trans (rests_waitAtBarrier ..))
  | awaitBarrier name deviceId deviceCount aborted =>
    simp only [Coordinator.step]
    split
    · exact guarded
    · exact guarded.rests ((rests_registerExpectedDevices name deviceCount).trans
        (rests_waitAtBarrier ..))
  | proceed id => exact guarded.proceed exclusive id
  | acquired id => exact guarded.acquired exclusive id
  | abort id => exact guarded.rests (rests_abort id)
  | timeout id => exact guarded.rests (rests_reject id)
  | release id => exact guarded.leave exclusive id
  | cleanup name => exact guarded.cleanup name spares
  | forceCleanup name =>
    have apart : name ≠ key := fun same => kept (congrArg Event.forceCleanup same)
    exact guarded.rests ((rests_rejectAll (st.waiters name) st).trans (rests_deleteKey apart))

omit [DecidableEq κ] [DecidableEq δ] in
theorem guarded_initial : Guarded ops key (initial ops : Coordinator κ δ M) := by
  constructor <;> simp [initial]

end Frames

/-- In every run without a forced cleanup of the key whose cleanups of the key spare
the calls that use its mutex, at most one call is inside, at every moment. -/
theorem critical_section_exclusion (ops : MutexOps M) (exclusive : ops.Exclusive) (key : κ)
    (events : List (Event κ δ))
    (spares : Runs.Meets (Coordinator.step ops) (fun st event => Spares key st event)
      (initial ops) events)
    (kept : Event.forceCleanup key ∉ events) :
    ∀ past rest, events = past ++ rest → Serial key (runFrom ops past).1 := by
  rintro past rest rfl
  have others : Runs.Meets (Coordinator.step ops)
      (fun _ event => event ≠ Event.forceCleanup key) (initial ops) past :=
    Runs.Meets.of_forall _ (by
      intro event member _ same
      exact kept (List.mem_append_left _ (same ▸ member))) _
  have guarded := Runs.Meets.state_invariant (Coordinator.step ops)
    (Guarded ops key)
    (fun st event guarded allowed => guarded.step exclusive event allowed.1 allowed.2)
    (guarded_initial (κ := κ) (δ := δ)) (spares.append_left.and _ others)
  exact guarded.serial

omit [DecidableEq κ] [DecidableEq δ] in
theorem spares_of_ne {key : κ} {st : Coordinator κ δ M} {event : Event κ δ}
    (other : event ≠ .cleanup key) : Spares key st event :=
  fun same => absurd same other

/-- A section reused by a second device after the cleanup the first one left behind. -/
theorem critical_section_exclusion_reused :
    Serial 0 (runFrom fifoMutex ([.registerExpectedDevices 0 1, .enterCriticalSection 0 7 false,
      .proceed 0, .acquired 0, .release 0, .cleanup 0, .registerExpectedDevices 0 1,
      .enterCriticalSection 0 8 false, .proceed 1, .acquired 1] : List (Event Nat Nat))).1 := by
  refine critical_section_exclusion fifoMutex fifoMutex_exclusive 0 _ ?_ (by decide) _ [] rfl
  refine ⟨spares_of_ne (by decide), spares_of_ne (by decide), spares_of_ne (by decide),
    spares_of_ne (by decide), spares_of_ne (by decide), ?_, spares_of_ne (by decide),
    spares_of_ne (by decide), spares_of_ne (by decide), spares_of_ne (by decide), trivial⟩
  -- the only call so far has left
  intro _ _ id call mutex found _ phase
  have agreed : Consistent 0 1 ([.registerExpectedDevices 0 1, .enterCriticalSection 0 7 false,
      .proceed 0, .acquired 0, .release 0] : List (Event Nat Nat)) := by
    simp [Consistent, Event.registers]
  have shape := (tracked_run fifoMutex agreed).shape
  have known : id = 0 := by
    by_contra other
    have none := shape.calls_fresh id (Nat.one_le_iff_ne_zero.mpr other)
    cases found.symm.trans none
  subst known
  have left : call.phase = .left 0 := by
    obtain rfl : (⟨0, 7, .enterCriticalSection, 1, false, .left 0⟩ : Call Nat Nat) = call :=
      Option.some.inj found
    rfl
  rcases phase with phase | phase <;> cases left.symm.trans phase

/-- Devices 1 and 2 form a generation; 2, the last to come, goes first and leaves early, and its
cleanup drops the mutex that 1 still holds, so 2 meets 3 behind a mutex of their own. -/
def earlyCleanupRun : List (Event Nat Nat) :=
  [.registerExpectedDevices 0 2, .enterCriticalSection 0 1 false,
    .enterCriticalSection 0 2 false, .proceed 1, .proceed 0, .acquired 1, .release 1, .acquired 0,
    .cleanup 0, .registerExpectedDevices 0 2, .enterCriticalSection 0 2 false,
    .enterCriticalSection 0 3 false, .proceed 3, .proceed 2, .acquired 3]

theorem early_cleanup_two_inside :
    Consistent 0 2 earlyCleanupRun ∧ Event.forceCleanup 0 ∉ earlyCleanupRun ∧
      ¬ Serial 0 (runFrom fifoMutex earlyCleanupRun).1 := by
  refine ⟨by simp [Consistent, earlyCleanupRun, Event.registers], by decide, ?_⟩
  intro serial
  have same := serial 0 3 ⟨0, 1, .enterCriticalSection, 1, false, .inside 0⟩
    ⟨0, 3, .enterCriticalSection, 2, false, .inside 1⟩ 0 1 (by decide) rfl rfl (by decide) rfl rfl
  cases same

end AutoMobile.CriticalSection
