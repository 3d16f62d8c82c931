import AutoMobile.CoordinatorBarrier

namespace AutoMobile.CriticalSection

open Coordinator RendezvousHistory

variable {κ δ M : Type} [DecidableEq κ] [DecidableEq δ]

omit [DecidableEq δ] in
@[simp] theorem historyOf_nil (key : κ) : historyOf key ([] : List (κ × Note δ)) = [] := rfl

omit [DecidableEq δ] in
@[simp] theorem historyOf_append (key : κ) (first second : List (κ × Note δ)) :
    historyOf key (first ++ second) = historyOf key first ++ historyOf key second := by
  simp [historyOf]

omit [DecidableEq δ] in
@[simp] theorem historyOf_cons_self (key : κ) (note : Note δ) (rest : List (κ × Note δ)) :
    historyOf key ((key, note) :: rest) = note :: historyOf key rest := by
  simp [historyOf]

omit [DecidableEq δ] in
theorem historyOf_cons_other {key other : κ} (apart : other ≠ key) (note : Note δ)
    (rest : List (κ × Note δ)) : historyOf key ((other, note) :: rest) = historyOf key rest := by
  simp [historyOf, apart]

section Own

variable {ops : MutexOps M} {count : Nat} {key : κ} {st : Coordinator κ δ M}
  {history : List (Note δ)}

variable {set : Nat} {other : κ} {deviceId : δ}

/-- Withdrawing a parked call of the key takes exactly its record and its device. -/
theorem BarrierInv.reject (inv : BarrierInv count key st history) {id : Nat} {call : Call κ δ}
    (found : st.calls id = some call) (ofKey : call.key = key) (phase : call.phase = .waiting set) :
    BarrierInv count key (st.reject id).1 (history ++ [.withdrawn ⟨id, call.deviceId⟩]) := by
  obtain ⟨-, waiters, sets, calls⟩ := reject_parked st found phase
  obtain ⟨counts, expected, -, nextCall⟩ := reject_fields st id
  have member := inv.waits id call set found ofKey phase
  have apart := inv.valid.waiting_nodup
  -- a device waits through one call only, so both filters drop the same entry
  have parties : ((waiting history).filter (fun w => w.call ≠ id)).map (·.party) =
      ((waiting history).map (·.party)).filter (· ≠ call.deviceId) := by
    rw [List.filter_map]
    congr 1
    apply List.filter_congr
    intro waiter inside
    simp only [Function.comp_apply, ne_eq, decide_not, Bool.not_eq_eq_eq_not, Bool.not_not,
      decide_eq_decide]
    constructor
    · rintro rfl
      exact congrArg Waiter.party (List.inj_on_of_nodup_map apart.2 inside member rfl)
    · intro same
      exact congrArg Waiter.call (List.inj_on_of_nodup_map apart.1 inside member same)
  have fewer : ((waiting history).filter (fun w => w.call ≠ id)).length ≤
      (waiting history).length := List.length_filter_le _ _
  constructor
  case valid => exact inv.valid.snoc member
  all_goals try simp only [waiting_snoc, Note.apply]
  case waiters => rw [waiters, if_pos ofKey.symm, inv.waiters]
  case registered =>
    intro n registered
    rw [expected] at registered
    obtain ⟨same, less⟩ := inv.registered n registered
    exact ⟨same, by omega⟩
  case unregistered =>
    intro none
    rw [expected] at none
    simp [inv.unregistered none]
  case counted =>
    intro own counted
    rw [counts] at counted
    obtain ⟨parked, own', found', -, -, phase', counted'⟩ := inv.parked _ member
    obtain rfl : call = parked := Option.some.inj (found.symm.trans found')
    obtain rfl : set = own' := Phase.waiting.inj (phase.symm.trans phase')
    obtain rfl : set = own := Option.some.inj (counted'.symm.trans counted)
    rw [sets, Function.update_self, inv.counted set counted, parties]
  case uncounted =>
    intro none
    rw [counts] at none
    simp [inv.uncounted none]
  case parked =>
    intro waiter inside
    obtain ⟨inside, other⟩ := List.mem_filter.mp inside
    obtain ⟨parked, own, found', rest⟩ := inv.parked waiter inside
    have other : waiter.call ≠ id := by simpa using other
    exact ⟨parked, own, by simpa [calls, other] using found', counts ▸ rest⟩
  case waits =>
    intro later parked own found' ofKey' phase'
    by_cases same : later = id
    · subst same
      obtain rfl : { call with phase := Phase.settled } = parked := by simpa [calls] using found'
      simp at phase'
    · exact List.mem_filter.mpr
        ⟨inv.waits later parked own (by simpa [calls, same] using found') ofKey' phase',
          by simpa using same⟩
  case passed =>
    intro later after found' ofKey' passed
    rw [releasedWaiters_snoc]
    by_cases same : later = id
    · subst same
      obtain rfl : { call with phase := Phase.settled } = after := by simpa [calls] using found'
      simp [Phase.passed] at passed
    · obtain ⟨waiter, released, same'⟩ :=
        inv.passed later after (by simpa [calls, same] using found') ofKey' passed
      exact ⟨waiter, by simp [released], same'⟩
  case arrived_lt =>
    intro waiter arrived
    rw [nextCall]
    exact inv.arrived_lt waiter (by simpa using arrived)

omit [DecidableEq δ] in
/-- Dropping the record of a key nobody waits at. -/
theorem BarrierInv.deleteKey (inv : BarrierInv count key st history)
    (empty : waiting history = []) : BarrierInv count key (st.deleteKey key) history where
  valid := inv.valid
  waiters := by simp [Coordinator.deleteKey, Coordinator.waiters, empty]
  registered := by simp [Coordinator.deleteKey]
  unregistered _ := empty
  counted := by simp [Coordinator.deleteKey]
  uncounted _ := empty
  parked := by simp [empty]
  waits := inv.waits
  passed := inv.passed
  arrived_lt := inv.arrived_lt

omit [DecidableEq δ] in
/-- A new empty set for a key without one. -/
theorem Shape.ensureCounts (shape : Shape st) (name : κ) : Shape (st.ensureCounts name) := by
  unfold Coordinator.ensureCounts
  split
  · exact shape
  · rename_i missing
    have old : ∀ other set, Function.update st.barrierCounts name (some st.nextSet) other =
        some set → (other = name ∧ set = st.nextSet) ∨
          (other ≠ name ∧ st.barrierCounts other = some set) := by
      intro other set counted
      by_cases same : other = name
      · subst same
        simp only [Function.update_self, Option.some.injEq] at counted
        exact Or.inl ⟨rfl, counted.symm⟩
      · exact Or.inr ⟨same, by simpa [same] using counted⟩
    constructor
    case calls_fresh => exact shape.calls_fresh
    case counts_lt =>
      intro other set counted
      rcases old other set counted with ⟨-, rfl⟩ | ⟨-, counted⟩
      · exact Nat.lt_succ_self _
      · exact Nat.lt_succ_of_lt (shape.counts_lt other set counted)
    case counts_inj =>
      intro first second set one two
      rcases old first set one with ⟨isNew, fresh⟩ | ⟨-, had⟩ <;>
        rcases old second set two with ⟨isNew', fresh'⟩ | ⟨-, had'⟩
      · rw [isNew, isNew']
      · exact absurd (shape.counts_lt _ _ had') (by omega)
      · exact absurd (shape.counts_lt _ _ had) (by omega)
      · exact shape.counts_inj first second set had had'
    case captured_lt =>
      exact fun id call set found phase =>
        Nat.lt_succ_of_lt (shape.captured_lt id call set found phase)
    case captured_key =>
      intro id call set other found phase counted
      rcases old other set counted with ⟨-, rfl⟩ | ⟨-, counted⟩
      · exact absurd (shape.captured_lt id call _ found phase) (Nat.lt_irrefl _)
      · exact shape.captured_key id call set other found phase counted
    case parked_key => exact shape.parked_key

omit [DecidableEq δ] in
theorem sameKey_ensureCounts (shape : Shape st) (apart : other ≠ key) :
    SameKey key st (st.ensureCounts other) := by
  unfold Coordinator.ensureCounts
  split
  · exact (Quiet.refl key st).1
  · constructor
    case resolvers => rfl
    case expected => rfl
    case counts => simp [Ne.symm apart]
    case sets =>
      intro set counted
      have old : set ≠ st.nextSet := Nat.ne_of_lt (shape.counts_lt key set counted)
      simp [old]
    case calls_le => exact Nat.le_refl _
    case stays => exact fun _ call _ found ofKey phase => ⟨call, found, ofKey, rfl, phase⟩
    case origin =>
      exact fun _ later found ofKey =>
        ⟨later, found, ofKey, rfl, fun _ phase => phase, fun phase => phase⟩

omit [DecidableEq δ] in
theorem BarrierInv.ensureCounts (inv : BarrierInv count key st history) :
    BarrierInv count key (st.ensureCounts key) history ∧
      ∃ set, (st.ensureCounts key).barrierCounts key = some set := by
  unfold Coordinator.ensureCounts
  split
  · rename_i set counted
    exact ⟨inv, set, counted⟩
  · rename_i missing
    have empty := inv.uncounted missing
    refine ⟨?_, st.nextSet, by simp⟩
    constructor
    case valid => exact inv.valid
    case waiters => exact inv.waiters
    case registered => exact inv.registered
    case unregistered => exact inv.unregistered
    case counted =>
      intro set counted
      obtain rfl : st.nextSet = set := by simpa using counted
      simp [empty]
    case uncounted => exact fun _ => empty
    case parked => simp [empty]
    case waits => exact inv.waits
    case passed => exact inv.passed
    case arrived_lt => exact inv.arrived_lt

omit [DecidableEq δ] in
/-- What an arrival writes, for a key that has its set. -/
theorem arrive_fields (counted : st.barrierCounts key = some set) (deviceId : δ) (kind : Kind) :
    (∃ generation, (st.arrive key deviceId kind).calls = Function.update st.calls st.nextCall
      (some ⟨key, deviceId, kind, generation, false, .waiting set⟩)) ∧
      (st.arrive key deviceId kind).sets = Function.update st.sets set (st.sets set ++ [deviceId]) ∧
      (st.arrive key deviceId kind).barrierCounts = st.barrierCounts ∧
      (st.arrive key deviceId kind).expectedDeviceCounts = st.expectedDeviceCounts ∧
      (st.arrive key deviceId kind).barrierResolvers = st.barrierResolvers ∧
      (st.arrive key deviceId kind).nextSet = st.nextSet ∧
      (st.arrive key deviceId kind).nextCall = st.nextCall + 1 := by
  simp only [Coordinator.arrive, Coordinator.setCall, Coordinator.setSet, counted, Option.getD_some]
  split <;> exact ⟨⟨_, rfl⟩, rfl, rfl, rfl, rfl, rfl, rfl⟩

omit [DecidableEq δ] in
theorem Shape.arrive (shape : Shape st) {name : κ} (counted : st.barrierCounts name = some set)
    (deviceId : δ) (kind : Kind) :
    Shape (st.arrive name deviceId kind) := by
  obtain ⟨⟨generation, calls⟩, -, counts, -, resolvers, nextSet, nextCall⟩ :=
    arrive_fields counted deviceId kind
  have origin : ∀ id call, (st.arrive name deviceId kind).calls id = some call →
      (id = st.nextCall ∧ call = ⟨name, deviceId, kind, generation, false, .waiting set⟩) ∨
        (id ≠ st.nextCall ∧ st.calls id = some call) := by
    intro id call found
    rw [calls] at found
    by_cases same : id = st.nextCall
    · subst same
      exact Or.inl ⟨rfl, by simpa using found.symm⟩
    · exact Or.inr ⟨same, by simpa [same] using found⟩
  constructor
  case calls_fresh =>
    intro id fresh
    rw [nextCall] at fresh
    have other : id ≠ st.nextCall := by omega
    simpa [calls, other] using shape.calls_fresh id (by omega)
  case counts_lt => rw [counts, nextSet]; exact shape.counts_lt
  case counts_inj => rw [counts]; exact shape.counts_inj
  case captured_lt =>
    intro id call own found phase
    rw [nextSet]
    rcases origin id call found with ⟨-, rfl⟩ | ⟨-, found⟩
    · cases phase
      exact shape.counts_lt name set counted
    · exact shape.captured_lt id call own found phase
  case captured_key =>
    intro id call own other found phase counted'
    rw [counts] at counted'
    rcases origin id call found with ⟨-, rfl⟩ | ⟨-, found⟩
    · cases phase
      exact shape.counts_inj other name set counted' counted
    · exact shape.captured_key id call own other found phase counted'
  case parked_key =>
    intro other waiter member
    obtain ⟨call, found, ofKey⟩ := shape.parked_key other waiter
      (by simpa only [Coordinator.waiters, resolvers] using member)
    have old : waiter.call ≠ st.nextCall := by
      intro same
      rw [same, shape.calls_fresh _ (Nat.le_refl _)] at found
      cases found
    exact ⟨call, by simpa [calls, old] using found, ofKey⟩

omit [DecidableEq δ] in
theorem Shape.park (shape : Shape st) {name : κ} {waiter : Waiter δ} {call : Call κ δ}
    (found : st.calls waiter.call = some call) (ofKey : call.key = name) :
    Shape (st.park name waiter) where
  calls_fresh := shape.calls_fresh
  counts_lt := shape.counts_lt
  counts_inj := shape.counts_inj
  captured_lt := shape.captured_lt
  captured_key := shape.captured_key
  parked_key := by
    intro other parked member
    by_cases same : other = name
    · subst same
      have cases : parked ∈ st.waiters other ∨ parked = waiter := by
        simpa [Coordinator.park, Coordinator.waiters] using member
      rcases cases with member | rfl
      · exact shape.parked_key other parked member
      · exact ⟨call, found, ofKey⟩
    · exact shape.parked_key other parked
        (by simpa [Coordinator.park, Coordinator.waiters, same] using member)

omit [DecidableEq δ] in
theorem lift_calls (name : κ) (members : List (Waiter δ)) (id : Nat) :
    (st.lift name members).calls id = if id ∈ members.map (·.call) then
      (st.calls id).map (fun call => { call with phase := .lifted }) else st.calls id := rfl

omit [DecidableEq δ] in
theorem settles_lift (name : κ) (members : List (Waiter δ)) :
    Settles st (st.lift name members) where
  counts _ _ counted := counted
  nextSet := rfl
  nextCall := rfl
  waiters key waiter member := by
    by_cases same : key = name
    · simp [Coordinator.lift, Coordinator.liftAll, Coordinator.setSet, Coordinator.waiters,
        same] at member
    · simpa [Coordinator.lift, Coordinator.liftAll, Coordinator.setSet, Coordinator.waiters,
        same] using member
  keys id := by
    rw [lift_calls]
    split
    · cases st.calls id <;> rfl
    · rfl
  phases id later set found phase := by
    rw [lift_calls] at found
    split at found
    · obtain ⟨call, -, rfl⟩ := Option.map_eq_some_iff.mp found
      cases phase
    · exact ⟨later, found, phase⟩

omit [DecidableEq δ] in
/-- An arrival at another key, whichever way it ends. -/
theorem sameKey_arrive (shape : Shape st) (apart : other ≠ key)
    (counted : st.barrierCounts other = some set) (deviceId : δ) (kind : Kind) :
    SameKey key st (st.arrive other deviceId kind) := by
  obtain ⟨⟨generation, calls⟩, sets, counts, expected, resolvers, -, nextCall⟩ :=
    arrive_fields counted deviceId kind
  constructor
  case resolvers => rw [resolvers]
  case expected => rw [expected]
  case counts => rw [counts]
  case sets =>
    intro own counted'
    have distinct : own ≠ set := by
      rintro rfl
      exact apart (shape.counts_inj other key own counted counted')
    simp [sets, distinct]
  case calls_le => omega
  case stays =>
    intro id call own found ofKey phase
    have old : id ≠ st.nextCall := by
      rintro rfl
      rw [shape.calls_fresh _ (Nat.le_refl _)] at found
      cases found
    exact ⟨call, by simpa [calls, old] using found, ofKey, rfl, phase⟩
  case origin =>
    intro id later found ofKey
    rw [calls] at found
    by_cases same : id = st.nextCall
    · subst same
      rw [Function.update_self] at found
      cases found
      exact absurd ofKey apart
    · exact ⟨later, by simpa [same] using found, ofKey, rfl, fun _ phase => phase,
        fun passed => passed⟩

omit [DecidableEq δ] in
theorem sameKey_park (apart : other ≠ key) (waiter : Waiter δ) :
    SameKey key st (st.park other waiter) where
  resolvers := by simp [Coordinator.park, Ne.symm apart]
  expected := rfl
  counts := rfl
  sets _ _ := rfl
  calls_le := Nat.le_refl _
  stays _ call _ found ofKey phase := ⟨call, found, ofKey, rfl, phase⟩
  origin _ later found ofKey :=
    ⟨later, found, ofKey, rfl, fun _ phase => phase, fun passed => passed⟩

omit [DecidableEq δ] in
theorem sameKey_lift {members : List (Waiter δ)} (shape : Shape st) (apart : other ≠ key)
    (counted : st.barrierCounts other = some set)
    (owned : ∀ waiter ∈ members, ∃ call, st.calls waiter.call = some call ∧ call.key = other) :
    SameKey key st (st.lift other members) := by
  -- no call of this key is among the members
  have outside : ∀ id call, st.calls id = some call → call.key = key →
      id ∉ members.map (·.call) := by
    intro id call found ofKey inside
    obtain ⟨waiter, member, rfl⟩ := List.mem_map.mp inside
    obtain ⟨call', found', ofOther⟩ := owned waiter member
    obtain rfl : call = call' := Option.some.inj (found.symm.trans found')
    exact apart (ofOther.symm.trans ofKey)
  constructor
  case resolvers => simp [Coordinator.lift, Coordinator.liftAll, Coordinator.setSet, Ne.symm apart]
  case expected => rfl
  case counts => rfl
  case sets =>
    intro own counted'
    have distinct : own ≠ set := by
      rintro rfl
      exact apart (shape.counts_inj other key own counted counted')
    simp [Coordinator.lift, Coordinator.liftAll, Coordinator.setSet, counted, distinct]
  case calls_le => exact Nat.le_refl _
  case stays =>
    intro id call own found ofKey phase
    exact ⟨call, by rw [lift_calls, if_neg (outside id call found ofKey)]; exact found, ofKey,
      rfl, phase⟩
  case origin =>
    intro id later found ofKey
    rw [lift_calls] at found
    split at found
    · rename_i inside
      obtain ⟨call, found', rfl⟩ := Option.map_eq_some_iff.mp found
      exact absurd inside (outside id call found' ofKey)
    · exact ⟨later, found, ofKey, rfl, fun _ phase => phase, fun passed => passed⟩

omit [DecidableEq κ] [DecidableEq δ] in
/-- The next arrival of a device that is not waiting yet. -/
theorem BarrierInv.allowed_arrival (inv : BarrierInv count key st history)
    (absent : deviceId ∉ (waiting history).map (·.party)) :
    Allowed count history (.arrived ⟨st.nextCall, deviceId⟩) := by
  constructor
  · intro other arrived
    exact Nat.ne_of_lt (inv.arrived_lt other arrived)
  · intro other member same
    exact absent (List.mem_map.mpr ⟨other, member, same⟩)

omit [DecidableEq δ] in
/-- An arrival that does not complete the generation joins the waiters. -/
theorem BarrierInv.park (inv : BarrierInv count key st history) (shape : Shape st)
    (counted : st.barrierCounts key = some set) (kind : Kind)
    (absent : deviceId ∉ (waiting history).map (·.party))
    (short : (waiting history).length + 1 < count) {expected : Nat}
    (registered : st.expectedDeviceCounts key = some expected) :
    BarrierInv count key
      ((st.arrive key deviceId kind).park key ⟨st.nextCall, deviceId⟩)
      (history ++ [.arrived ⟨st.nextCall, deviceId⟩]) := by
  obtain ⟨⟨generation, calls⟩, sets, counts, expectedCounts, resolvers, -, nextCall⟩ :=
    arrive_fields counted deviceId kind
  have parkCalls : ((st.arrive key deviceId kind).park key ⟨st.nextCall, deviceId⟩).calls =
      Function.update st.calls st.nextCall
        (some ⟨key, deviceId, kind, generation, false, .waiting set⟩) := calls
  have parkExpected : ((st.arrive key deviceId kind).park key
      ⟨st.nextCall, deviceId⟩).expectedDeviceCounts = st.expectedDeviceCounts := expectedCounts
  have parkCounts : ((st.arrive key deviceId kind).park key
      ⟨st.nextCall, deviceId⟩).barrierCounts = st.barrierCounts := counts
  constructor
  case valid => exact inv.valid.snoc (inv.allowed_arrival absent)
  all_goals try simp only [waiting_snoc, Note.apply]
  case waiters =>
    rw [← inv.waiters]
    simp [Coordinator.park, Coordinator.waiters, resolvers]
  case registered =>
    intro n found
    rw [parkExpected] at found
    exact ⟨(inv.registered n found).1, by simpa using short⟩
  case unregistered =>
    intro none
    rw [parkExpected, registered] at none
    cases none
  case counted =>
    intro own counted'
    rw [parkCounts, counted] at counted'
    cases counted'
    show (st.arrive key deviceId kind).sets set = _
    rw [sets, Function.update_self, inv.counted set counted]
    simp
  case uncounted =>
    intro none
    rw [parkCounts, counted] at none
    cases none
  case parked =>
    intro waiter member
    rw [parkCalls, parkCounts]
    rcases List.mem_append.mp member with member | member
    · obtain ⟨call, own, found, rest⟩ := inv.parked waiter member
      have old : waiter.call ≠ st.nextCall := by
        intro same
        rw [same, shape.calls_fresh _ (Nat.le_refl _)] at found
        cases found
      exact ⟨call, own, by simpa [old] using found, rest⟩
    · obtain rfl := List.mem_singleton.mp member
      exact ⟨_, set, Function.update_self .., rfl, rfl, rfl, counted⟩
  case waits =>
    intro id call own found ofKey phase
    rw [parkCalls] at found
    by_cases same : id = st.nextCall
    · subst same
      rw [Function.update_self] at found
      cases found
      simp
    · exact List.mem_append_left _
        (inv.waits id call own (by simpa [same] using found) ofKey phase)
  case passed =>
    intro id call found ofKey passed
    rw [parkCalls] at found
    rw [releasedWaiters_snoc]
    by_cases same : id = st.nextCall
    · subst same
      rw [Function.update_self] at found
      cases found
      simp [Phase.passed] at passed
    · obtain ⟨waiter, released, same'⟩ :=
        inv.passed id call (by simpa [same] using found) ofKey passed
      exact ⟨waiter, by simp [released], same'⟩
  case arrived_lt =>
    intro waiter arrived
    show waiter.call < (st.arrive key deviceId kind).nextCall
    rw [nextCall]
    rcases List.mem_append.mp arrived with arrived | arrived
    · exact Nat.lt_succ_of_lt (inv.arrived_lt waiter arrived)
    · cases List.mem_singleton.mp arrived
      exact Nat.lt_succ_self _

omit [DecidableEq δ] in
/-- The arrival that completes the generation lets everyone through. -/
theorem BarrierInv.lift (inv : BarrierInv count key st history)
    (counted : st.barrierCounts key = some set) (kind : Kind)
    (absent : deviceId ∉ (waiting history).map (·.party))
    (full : (waiting history).length + 1 = count) :
    BarrierInv count key
      ((st.arrive key deviceId kind).lift key (waiting history ++ [⟨st.nextCall, deviceId⟩]))
      (history ++ [.arrived ⟨st.nextCall, deviceId⟩] ++
        [.released (waiting history ++ [⟨st.nextCall, deviceId⟩])]) := by
  obtain ⟨⟨generation, calls⟩, sets, counts, expectedCounts, resolvers, -, nextCall⟩ :=
    arrive_fields counted deviceId kind
  have allowed := inv.allowed_arrival absent
  have liftExpected : ((st.arrive key deviceId kind).lift key (waiting history ++
      [⟨st.nextCall, deviceId⟩])).expectedDeviceCounts = st.expectedDeviceCounts := expectedCounts
  have liftCounts : ((st.arrive key deviceId kind).lift key (waiting history ++
      [⟨st.nextCall, deviceId⟩])).barrierCounts = st.barrierCounts := counts
  constructor
  case valid =>
    refine (inv.valid.snoc allowed).snoc ⟨?_, ?_⟩
    · simp [Note.apply]
    · simpa using full
  all_goals try simp only [waiting_snoc, Note.apply]
  case waiters => simp [Coordinator.lift, Coordinator.liftAll, Coordinator.setSet,
    Coordinator.waiters]
  case registered =>
    intro n found
    rw [liftExpected] at found
    have := inv.registered n found
    exact ⟨this.1, by simp only [List.length_nil]; omega⟩
  case unregistered => exact fun _ => trivial
  case counted =>
    intro own counted'
    rw [liftCounts, counted] at counted'
    cases counted'
    simp [Coordinator.lift, Coordinator.liftAll, Coordinator.setSet, counts, counted]
  case uncounted => exact fun _ => trivial
  case parked => simp
  case waits =>
    intro id call own found ofKey phase
    rw [lift_calls] at found
    split at found
    · obtain ⟨before, -, rfl⟩ := Option.map_eq_some_iff.mp found
      cases phase
    · rename_i outside
      rw [calls] at found
      have old : id ≠ st.nextCall := by
        rintro rfl
        simp at outside
      have member := inv.waits id call own (by simpa [old] using found) ofKey phase
      exact absurd (List.mem_map.mpr ⟨_, List.mem_append_left _ member, rfl⟩) outside
  case passed =>
    intro id call found ofKey passed
    rw [releasedWaiters_snoc, releasedWaiters_snoc]
    rw [lift_calls] at found
    split at found
    · rename_i inside
      obtain ⟨waiter, member, same⟩ := List.mem_map.mp inside
      exact ⟨waiter, List.mem_append_right _ member, same⟩
    · rename_i outside
      rw [calls] at found
      have old : id ≠ st.nextCall := by
        rintro rfl
        simp at outside
      obtain ⟨waiter, released, same⟩ :=
        inv.passed id call (by simpa [old] using found) ofKey passed
      exact ⟨waiter, by simp [released], same⟩
  case arrived_lt =>
    intro waiter arrived
    show waiter.call < (st.arrive key deviceId kind).nextCall
    rw [nextCall]
    simp only [List.mem_append, List.mem_singleton, reduceCtorEq, or_false] at arrived
    rcases arrived with arrived | arrived
    · exact Nat.lt_succ_of_lt (inv.arrived_lt waiter arrived)
    · cases arrived
      exact Nat.lt_succ_self _

/-- `waitAtBarrier` and its notes, case by case. -/
theorem waitAtBarrier_cases (st : Coordinator κ δ M) (key : κ) (deviceId : δ) (kind : Kind) :
    st.waitAtBarrier key deviceId kind = (st, []) ∧ st.expectedDeviceCounts key = none ∨
      ∃ expected, st.expectedDeviceCounts key = some expected ∧ let counted := st.ensureCounts key
        let arrived := counted.arrive key deviceId kind
        let waiter : Waiter δ := ⟨counted.nextCall, deviceId⟩
        (deviceId ∈ counted.arrivedDevices key ∧
            st.waitAtBarrier key deviceId kind = (counted, []) ∨
          deviceId ∉ counted.arrivedDevices key ∧ ((arrived.arrivedDevices key).length = expected ∧
                st.waitAtBarrier key deviceId kind =
                  (arrived.lift key (arrived.waiters key ++ [waiter]),
                    [(key, .arrived waiter), (key, .released (arrived.waiters key ++ [waiter]))]) ∨
              (arrived.arrivedDevices key).length ≠ expected ∧ st.waitAtBarrier key deviceId kind =
                  (arrived.park key waiter, [(key, .arrived waiter)]))) := by
  unfold Coordinator.waitAtBarrier
  split
  · rename_i missing
    exact Or.inl ⟨rfl, missing⟩
  · rename_i expected registered
    refine Or.inr ⟨expected, registered, ?_⟩
    dsimp only
    split
    · rename_i already
      exact Or.inl ⟨already, rfl⟩
    · rename_i absent
      refine Or.inr ⟨absent, ?_⟩
      split
      · rename_i full
        exact Or.inl ⟨full, rfl⟩
      · rename_i short
        exact Or.inr ⟨short, rfl⟩

omit [DecidableEq δ] in
theorem ensureCounts_counted (st : Coordinator κ δ M) (name : κ) :
    ∃ set, (st.ensureCounts name).barrierCounts name = some set := by
  unfold Coordinator.ensureCounts
  split
  · rename_i set counted
    exact ⟨set, counted⟩
  · exact ⟨st.nextSet, by simp⟩

omit [DecidableEq δ] in
theorem ensureCounts_fields (st : Coordinator κ δ M) (name : κ) :
    (st.ensureCounts name).calls = st.calls ∧ (st.ensureCounts name).nextCall = st.nextCall ∧
      (st.ensureCounts name).barrierResolvers = st.barrierResolvers ∧
      (st.ensureCounts name).expectedDeviceCounts = st.expectedDeviceCounts ∧
      (st.ensureCounts name).keyGenerations = st.keyGenerations ∧
      (st.ensureCounts name).cleanupTimers = st.cleanupTimers := by
  unfold Coordinator.ensureCounts
  split <;> exact ⟨rfl, rfl, rfl, rfl, rfl, rfl⟩

theorem Shape.waitAtBarrier (shape : Shape st) (name : κ) (deviceId : δ) (kind : Kind) :
    Shape (st.waitAtBarrier name deviceId kind).1 := by
  have counted := shape.ensureCounts name
  obtain ⟨set, hasSet⟩ := ensureCounts_counted st name
  have arrived := counted.arrive hasSet deviceId kind
  obtain ⟨⟨generation, calls⟩, -⟩ := arrive_fields hasSet deviceId kind
  rcases waitAtBarrier_cases st name deviceId kind with ⟨outcome, -⟩ | ⟨_, -, cases⟩
  · rw [outcome]
    exact shape
  · rcases cases with ⟨-, outcome⟩ | ⟨-, ⟨-, outcome⟩ | ⟨-, outcome⟩⟩ <;> rw [outcome]
    · exact counted
    · exact arrived.settles (settles_lift _ _)
    · exact arrived.park (by rw [calls]; exact Function.update_self ..) rfl

theorem BarrierInv.waitAtBarrier (inv : BarrierInv count key st history) (shape : Shape st)
    (deviceId : δ) (kind : Kind) :
    BarrierInv count key (st.waitAtBarrier key deviceId kind).1
      (history ++ historyOf key (st.waitAtBarrier key deviceId kind).2) := by
  obtain ⟨counted, set, hasSet⟩ := inv.ensureCounts
  have shape' := shape.ensureCounts key
  obtain ⟨-, sets, counts, -, resolvers, -, -⟩ := arrive_fields hasSet deviceId kind
  have parties := counted.counted set hasSet
  have devices : (st.ensureCounts key).arrivedDevices key = (waiting history).map (·.party) := by
    simp only [Coordinator.arrivedDevices, hasSet, parties]
  have grown : (((st.ensureCounts key).arrive key deviceId kind).arrivedDevices key).length =
      (waiting history).length + 1 := by
    simp [Coordinator.arrivedDevices, counts, hasSet, sets, parties]
  have parked : ((st.ensureCounts key).arrive key deviceId kind).waiters key = waiting history := by
    rw [← counted.waiters, Coordinator.waiters, resolvers, Coordinator.waiters]
  rcases waitAtBarrier_cases st key deviceId kind with
    ⟨outcome, -⟩ | ⟨expected, registered, cases⟩
  · rw [outcome]
    simpa using inv
  · obtain ⟨rfl, short⟩ := inv.registered expected registered
    simp only [devices, grown, parked] at cases
    rcases cases with ⟨-, outcome⟩ | ⟨absent, ⟨full, outcome⟩ | ⟨partly, outcome⟩⟩ <;>
      rw [outcome]
    · simpa using counted
    · simpa using counted.lift hasSet kind absent full
    · simpa using counted.park shape' hasSet kind absent (by omega)
        (by rw [(ensureCounts_fields st key).2.2.2.1]; exact registered)

/-- What happens at the barrier of another key. -/
theorem sameKey_waitAtBarrier (shape : Shape st) (apart : other ≠ key) (deviceId : δ)
    (kind : Kind) :
    SameKey key st (st.waitAtBarrier other deviceId kind).1 ∧
      historyOf key (st.waitAtBarrier other deviceId kind).2 = [] := by
  have counted : SameKey key st (st.ensureCounts other) := sameKey_ensureCounts shape apart
  have shape' := shape.ensureCounts other
  obtain ⟨set, hasSet⟩ := ensureCounts_counted st other
  obtain ⟨⟨generation, calls⟩, -, counts, -, resolvers, -, -⟩ := arrive_fields hasSet deviceId kind
  have arrived := counted.trans (sameKey_arrive shape' apart hasSet deviceId kind)
  have shape'' := shape'.arrive hasSet deviceId kind
  rcases waitAtBarrier_cases st other deviceId kind with ⟨outcome, -⟩ | ⟨_, -, cases⟩
  · rw [outcome]
    exact ⟨(Quiet.refl key st).1, rfl⟩
  · rcases cases with ⟨-, outcome⟩ | ⟨-, ⟨-, outcome⟩ | ⟨-, outcome⟩⟩ <;> rw [outcome]
    · exact ⟨counted, rfl⟩
    · refine ⟨arrived.trans (sameKey_lift shape'' apart (counts ▸ hasSet) ?_), ?_⟩
      · intro waiter member
        rcases List.mem_append.mp member with member | member
        · exact shape''.parked_key other waiter member
        · obtain rfl := List.mem_singleton.mp member
          exact ⟨_, by rw [calls]; exact Function.update_self .., rfl⟩
      · simp only [historyOf_cons_other apart, historyOf_nil]
    · exact ⟨arrived.trans (sameKey_park apart _), by
        simp only [historyOf_cons_other apart, historyOf_nil]⟩

end Own

end AutoMobile.CriticalSection
